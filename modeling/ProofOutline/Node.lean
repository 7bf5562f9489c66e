import ProofOutline.Feedback
import ProofOutline.Source

/-!
# Steps of an exercise and nodes of a worksheet

An exercise is a list of steps: assertions and commands that are given, holes
to be filled with assertions, and remarks that take no part in the proof.  A
node is a step as the student has it: with feedback and, for a hole, the
attempt typed so far.
-/

namespace ProofOutline

inductive Step where
  | assertion (assertion : Assertion)
  | hole (prompt : String)
  | command (program : Program)
  | remark (body : String)
  deriving DecidableEq

namespace Step

def defaultPrompt : String := "\x7b \x7d"

def readAssertion (source : String) : Except SourceError Step :=
  (Source.parseAssertion source).map .assertion

def readCommand (source : String) : Except SourceError Step :=
  (Source.parseCommand source).map .command

def ofRemark (text : String) : Step := .remark (Text.trim text)

end Step

inductive HoleState where
  | unvalidated
  | prevalidating
  | prevalidated
  | prevalidationFailed
  deriving DecidableEq, Repr

structure Hole where
  prompt : String
  attempt : String := ""
  state : HoleState := .unvalidated
  feedback : Feedback := .empty
  /-- Whether the feedback asks the student for a change. -/
  mustAddress : Bool := false
  /-- Whether the feedback is the parse error of an attempt. -/
  parseFeedback : Bool := false
  deriving DecidableEq, Repr

inductive Node where
  | given (assertion : Assertion) (feedback : Feedback)
  | hole (hole : Hole)
  | command (program : Program) (feedback : Feedback)
  | remark (body : String)
  deriving DecidableEq

namespace Node

def ofStep : Step → Node
  | .assertion assertion => .given assertion .empty
  | .hole prompt => .hole { prompt }
  | .command program => .command program .empty
  | .remark body => .remark body

def kindName : Node → String
  | given _ _ => "assertion"
  | hole _ => "hole"
  | command _ _ => "command"
  | remark _ => "remark"

/-- Remarks are shown but take no part in the proof. -/
def isCore : Node → Bool
  | remark _ => false
  | _ => true

def isHole : Node → Bool
  | hole _ => true
  | _ => false

def isCommand : Node → Bool
  | command _ _ => true
  | _ => false

def bearsAssertion : Node → Bool
  | given _ _ | hole _ => true
  | _ => false

def hole? : Node → Option Hole
  | hole content => some content
  | _ => none

def feedback? : Node → Option Feedback
  | given _ feedback | command _ feedback => some feedback
  | hole content => some content.feedback
  | remark _ => none

/-- New feedback is no parse error until it is marked as one. -/
def withFeedback? (feedback : Feedback) : Node → Option Node
  | given assertion _ => some (.given assertion feedback)
  | command program _ => some (.command program feedback)
  | hole content =>
      some (.hole { content with
        feedback
        mustAddress := feedback.shouldBeAddressed
        parseFeedback := false })
  | remark _ => none

/-- The source as typed, or the attempt; the prompt in an empty hole. -/
def displayText : Node → String
  | given assertion _ => assertion.source
  | command program _ => program.source
  | hole content =>
      if content.attempt.isEmpty then content.prompt else content.attempt
  | remark body => body

end Node

end ProofOutline
