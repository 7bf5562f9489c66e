import ProofOutline.Interpreted
import ProofOutline.Text
import ProofOutline.Token.Lexer
import ProofOutline.Tree.Parser
import ProofOutline.Tree.Walk

/-!
# Source texts

Reading a typed text as an assertion or a command.  The text is trimmed, split
into tokens, parsed and read; then interpreted predicates are expanded.  A
command may leave out its last semicolon.
-/

namespace ProofOutline

inductive SourceError where
  | lexical (error : LexError)
  | grammar (error : SyntaxError)
  | reading (error : ReadError)
  | notAnAssertion (source : String)
  | notACommand (source : String)
  deriving DecidableEq, Repr

namespace SourceError

def message : SourceError → String
  | lexical error => error.message
  | grammar error => error.message
  | reading error => error.message
  | notAnAssertion source => "`" ++ source ++ "` is not an assertion"
  | notACommand source => "`" ++ source ++ "` is not a command"

def diagnostic : SourceError → Diagnostic
  | lexical error => error.diagnostic
  | grammar error => error.diagnostic
  | reading error => error.diagnostic
  | notAnAssertion source =>
      { code := "imp::not_an_assertion"
        message := (notAnAssertion source).message }
  | notACommand source =>
      { code := "imp::not_a_command"
        message := (notACommand source).message }

end SourceError

namespace Source

def parseTree (source : List Char) : Except SourceError SyntaxTree := do
  let tokens ← (Token.lexChars source).mapError .lexical
  (SyntaxTree.ofTokens tokens).mapError .grammar

def parseChars (source : List Char) : Except SourceError Decl := do
  let trimmed := Text.trimChars source
  let tree ← parseTree trimmed
  match tree.cursor? with
  | some cursor =>
      let (decl, _) ← (cursor.readDecl trimmed).mapError .reading
      return decl.desugar
  | none => throw (.grammar ⟨.emptyTree, ⟨0, Text.byteLength trimmed⟩⟩)

def parse (source : String) : Except SourceError Decl :=
  parseChars source.toList

def parseAssertion (source : String) : Except SourceError Assertion := do
  match ← parse source with
  | .assertion assertion => return assertion
  | .program _ => throw (.notAnAssertion (Text.trim source))

/-- Add the last semicolon if it is missing. -/
def delimit (trimmed : List Char) : List Char :=
  if trimmed.getLast? = some ';' then trimmed else trimmed ++ [';']

def parseCommand (source : String) : Except SourceError Program := do
  let trimmed := Text.trimChars source.toList
  match ← parseChars (delimit trimmed) with
  | .program program => return program
  | .assertion _ => throw (.notACommand (String.ofList trimmed))

end Source

end ProofOutline
