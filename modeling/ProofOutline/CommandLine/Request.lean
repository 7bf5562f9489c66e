import ProofOutline.Attempt
import ProofOutline.Text

/-!
# Command-line requests

The command line names a subcommand, `check` or `parse`, each with one
argument and a few options.  Options may stand before or after the argument;
after two dashes alone nothing is an option any more.
-/

namespace ProofOutline

inductive Request where
  | check (path : String) (json : Bool) (attempts : List (Nat × String))
  | parse (source : String) (command : Bool)
  /-- Print a fixed text. -/
  | print (text : String)
  deriving DecidableEq, Repr

namespace Request

def versionText : String := "hoare 0.1.0\n"

def helpText : String :=
  Text.unlines [
    "Hoare-logic proof checker for the Imp language",
    "",
    "Usage: hoare <COMMAND>",
    "",
    "Commands:",
    "  check  Check the proof in an exercise file",
    "  parse  Parse one assertion or command and print its desugared form",
    "  help   Print this message or the help of the given subcommand(s)",
    "",
    "Options:",
    "  -h, --help     Print help",
    "  -V, --version  Print version"]

def checkHelpText : String :=
  Text.unlines [
    "Check the proof in an exercise file",
    "",
    "Usage: hoare check [OPTIONS] <PATH>",
    "",
    "Arguments:",
    "  <PATH>  ",
    "",
    "Options:",
    "      --json              Print a JSON report instead of text",
    "      --attempt <N=TEXT>  Fill hole N (1-based step number) with TEXT; repeatable",
    "  -h, --help              Print help"]

def parseHelpText : String :=
  Text.unlines [
    "Parse one assertion or command and print its desugared form",
    "",
    "Usage: hoare parse [OPTIONS] <SOURCE>",
    "",
    "Arguments:",
    "  <SOURCE>  ",
    "",
    "Options:",
    "      --command  Treat SOURCE as a command (a missing `;` is appended)",
    "  -h, --help     Print help"]

def helpHelpText : String :=
  Text.unlines [
    "Print this message or the help of the given subcommand(s)",
    "",
    "Usage: hoare help [COMMAND]...",
    "",
    "Arguments:",
    "  [COMMAND]...  Print help for the subcommand(s)"]

/-! ## Words of the command line -/

inductive Piece where
  /-- Two dashes alone. -/
  | stop
  | long (name : String) (value : Option String)
  | short (letters : List Char)
  | plain (text : String)
  deriving DecidableEq, Repr

def Piece.ofString (word : String) : Piece :=
  match word.toList with
  | ['-', '-'] => .stop
  | '-' :: '-' :: rest =>
      let name := String.ofList (rest.takeWhile (· ≠ '='))
      match rest.dropWhile (· ≠ '=') with
      | [] => .long name none
      | _ :: value => .long name (some (String.ofList value))
  | '-' :: letter :: rest => .short (letter :: rest)
  | _ => .plain word

/-! ## Arguments of a subcommand -/

structure Grammar where
  help : String
  /-- The name of the option that is given or not. -/
  switch : String
  /-- The name of the option that takes attempts. -/
  attempts : Option String
  /-- Whether the argument may be the empty text. -/
  allowsEmpty : Bool

structure Arguments where
  argument : Option String := none
  switched : Bool := false
  attempts : List (Nat × String) := []

/-- Reading ends early, with a text to print or with a usage error. -/
inductive Ending where
  | print (text : String)
  | usage
  deriving DecidableEq, Repr

namespace Grammar

variable (grammar : Grammar)

def plain (text : String) (args : Arguments) : Except Ending Arguments :=
  if args.argument.isSome ∨ (text = "" ∧ !grammar.allowsEmpty) then
    .error .usage
  else .ok { args with argument := some text }

def attempt (value : String) (args : Arguments) : Except Ending Arguments :=
  match Attempt.read value with
  | .ok attempt => .ok { args with attempts := args.attempts ++ [attempt] }
  | .error _ => .error .usage

def long (name : String) (value : Option String) (args : Arguments) :
    Except Ending Arguments :=
  match value with
  | some value =>
      if grammar.attempts = some name then attempt value args
      else .error .usage
  | none =>
      if name = "help" then .error (.print grammar.help)
      else if name = grammar.switch ∧ !args.switched then
        .ok { args with switched := true }
      else .error .usage

def read : List String → Arguments → Except Ending Arguments
  | [], args => .ok args
  | word :: rest, args =>
      match Piece.ofString word with
      | .stop => rest.foldlM (fun args text => grammar.plain text args) args
      | .plain text => do read rest (← grammar.plain text args)
      | .short letters =>
          if letters.head? = some 'h' then .error (.print grammar.help)
          else .error .usage
      | .long name value =>
          if value.isNone ∧ grammar.attempts = some name then
            match rest with
            | [] => .error .usage
            | next :: rest =>
                match Piece.ofString next with
                | .plain text => do read rest (← attempt text args)
                | _ => .error .usage
          else do read rest (← grammar.long name value args)

end Grammar

def checkGrammar : Grammar := ⟨checkHelpText, "json", some "attempt", false⟩

def parseGrammar : Grammar := ⟨parseHelpText, "command", none, true⟩

def readCheck (words : List String) : Except Ending Request := do
  let args ← checkGrammar.read words {}
  match args.argument with
  | some path => return .check path args.switched args.attempts
  | none => throw .usage

def readParse (words : List String) : Except Ending Request := do
  let args ← parseGrammar.read words {}
  match args.argument with
  | some source => return .parse source args.switched
  | none => throw .usage

def readHelp : List String → Except Ending Request
  | [] => .ok (.print helpText)
  | ["check"] => .ok (.print checkHelpText)
  | ["parse"] => .ok (.print parseHelpText)
  | ["help"] => .ok (.print helpHelpText)
  | _ => .error .usage

def readWords : List String → Except Ending Request
  | [] => .error .usage
  | "check" :: rest => readCheck rest
  | "parse" :: rest => readParse rest
  | "help" :: rest => readHelp rest
  | word :: _ =>
      match Piece.ofString word with
      | .long "help" none | .short ('h' :: _) => .ok (.print helpText)
      | .long "version" none | .short ('V' :: _) => .ok (.print versionText)
      | _ => .error .usage

def read? (words : List String) : Option Request :=
  match readWords words with
  | .ok request => some request
  | .error (.print text) => some (.print text)
  | .error .usage => none

end Request

end ProofOutline
