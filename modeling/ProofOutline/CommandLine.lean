import ProofOutline.Check
import ProofOutline.CommandLine.Request
import ProofOutline.Report

/-!
# The command line

What the program answers to a command line: a status, a text for the output
and a complaint for the error output.  The status is `0` on success, `1` for a
reported error and `2` for misuse.
-/

namespace ProofOutline

structure Response where
  status : Nat
  output : String := ""
  complaint : String := ""
  deriving DecidableEq, Repr

namespace Request

def usageHint : String := "For more information, try '--help'.\n"

def success (output : String) : Response := { status := 0, output }

def failure (message : String) : Response :=
  { status := 1, complaint := "Error: " ++ message ++ "\n" }

def renderCheck (path : String) (json : Bool) (result : CheckResult) :
    String :=
  let nodes := result.session.sheet.nodes
  let title := result.exercise.title
  if json then
    (Report.document path title nodes result.submission).render ++ "\n"
  else Report.listing title nodes result.submission

def runCheck (read : String → Except ReadFailure String) (path : String)
    (json : Bool) (attempts : List (Nat × String)) : Response :=
  let result := do
    let exercise ← (Exercise.load read path).mapError CheckError.load
    exercise.check attempts Solver.missing ()
  match result with
  | .ok result => success (renderCheck path json result)
  | .error error => failure error.message

def renderDecl : Decl → String
  | .assertion assertion =>
      "assertion: " ++ assertion.render ++ "\nfree variables: " ++
        ", ".intercalate (assertion.formula.freeVars.map Name.text) ++ "\n"
  | .program program => "command: " ++ program.render ++ "\n"

def runParse (source : String) (command : Bool) : Response :=
  let decl :=
    if command then (Source.parseCommand source).map Decl.program
    else Source.parse source
  match decl with
  | .ok decl => success (renderDecl decl)
  | .error error => failure error.message

def run (read : String → Except ReadFailure String) : Request → Response
  | check path json attempts => runCheck read path json attempts
  | parse source command => runParse source command
  | print text => success text

end Request

/-- Answer a command line, taking files from wherever `read` finds them. -/
def respond (read : String → Except ReadFailure String)
    (words : List String) : Response :=
  match Request.read? words with
  | some request => request.run read
  | none => { status := 2, complaint := Request.usageHint }

end ProofOutline
