import ProofOutline.Arith
import ProofOutline.Attempt
import ProofOutline.Check
import ProofOutline.Checker
import ProofOutline.Command
import ProofOutline.CommandLine
import ProofOutline.CommandLine.Request
import ProofOutline.Compound
import ProofOutline.Exercise
import ProofOutline.Exercise.Load
import ProofOutline.Feedback
import ProofOutline.Folder
import ProofOutline.Formula
import ProofOutline.Interpreted
import ProofOutline.Json
import ProofOutline.Main
import ProofOutline.Model
import ProofOutline.Name
import ProofOutline.Name.Table
import ProofOutline.Node
import ProofOutline.Ordered
import ProofOutline.Proofs.Acceptance
import ProofOutline.Proofs.Arena
import ProofOutline.Proofs.Attempts
import ProofOutline.Proofs.Backward
import ProofOutline.Proofs.Bookkeeping
import ProofOutline.Proofs.Calls
import ProofOutline.Proofs.Checking
import ProofOutline.Proofs.Clearing
import ProofOutline.Proofs.Contents
import ProofOutline.Proofs.Delimiting
import ProofOutline.Proofs.Desugaring
import ProofOutline.Proofs.Diagnostics
import ProofOutline.Proofs.Editing
import ProofOutline.Proofs.Evaluation
import ProofOutline.Proofs.FalsePreconditions
import ProofOutline.Proofs.Filling
import ProofOutline.Proofs.Forms
import ProofOutline.Proofs.Gaps
import ProofOutline.Proofs.Grammar
import ProofOutline.Proofs.Grouping
import ProofOutline.Proofs.Height
import ProofOutline.Proofs.Holes
import ProofOutline.Proofs.Labels
import ProofOutline.Proofs.Layout
import ProofOutline.Proofs.Lexer
import ProofOutline.Proofs.Listeners
import ProofOutline.Proofs.LongestMatch
import ProofOutline.Proofs.Meaning
import ProofOutline.Proofs.Nesting
import ProofOutline.Proofs.Notification
import ProofOutline.Proofs.Overlap
import ProofOutline.Proofs.Parity
import ProofOutline.Proofs.ParsedTrees
import ProofOutline.Proofs.Parser.Chain
import ProofOutline.Proofs.Parser.Completeness
import ProofOutline.Proofs.Parser.Counting
import ProofOutline.Proofs.Parser.Declaration
import ProofOutline.Proofs.Parser.Equations
import ProofOutline.Proofs.Parser.Failing
import ProofOutline.Proofs.Parser.Progress
import ProofOutline.Proofs.Parser.Pushing
import ProofOutline.Proofs.Parser.Soundness
import ProofOutline.Proofs.Parser.Unambiguous
import ProofOutline.Proofs.Parsing
import ProofOutline.Proofs.Precondition
import ProofOutline.Proofs.Printable
import ProofOutline.Proofs.Printing
import ProofOutline.Proofs.Readable
import ProofOutline.Proofs.Reading
import ProofOutline.Proofs.Rearranging
import ProofOutline.Proofs.Receipts
import ProofOutline.Proofs.Replay
import ProofOutline.Proofs.Resubmission
import ProofOutline.Proofs.Results
import ProofOutline.Proofs.RoundTrip
import ProofOutline.Proofs.Routing
import ProofOutline.Proofs.Run
import ProofOutline.Proofs.Segmentation
import ProofOutline.Proofs.Sorts
import ProofOutline.Proofs.Source
import ProofOutline.Proofs.Spelling
import ProofOutline.Proofs.Splitting
import ProofOutline.Proofs.Submission
import ProofOutline.Proofs.Submitting
import ProofOutline.Proofs.Substitution
import ProofOutline.Proofs.Tours
import ProofOutline.Proofs.Translation
import ProofOutline.Proofs.Verdicts
import ProofOutline.Proofs.Walking
import ProofOutline.Proofs.Writing
import ProofOutline.Report
import ProofOutline.Semantics
import ProofOutline.Session
import ProofOutline.SmtLib
import ProofOutline.SmtLib.Language
import ProofOutline.Source
import ProofOutline.Text
import ProofOutline.Token
import ProofOutline.Token.Lexer
import ProofOutline.Toml.Document
import ProofOutline.Toml.Reader
import ProofOutline.Toml.Value
import ProofOutline.Tree
import ProofOutline.Tree.Arena
import ProofOutline.Tree.Cursor
import ProofOutline.Tree.Parser
import ProofOutline.Tree.Pushing
import ProofOutline.Tree.Walk
import ProofOutline.Triple
import ProofOutline.Word
import ProofOutline.Worksheet
