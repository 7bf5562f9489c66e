import ProofOutline.Checker
import ProofOutline.Node
import ProofOutline.Toml.Document

/-!
# Exercise files

An exercise file is a TOML document with an optional title, an optional table
`checker` and an array of tables `step`.  Unknown keys are refused everywhere.
A record may also be written as the array of its fields in order, and the kind
of a step as a table with that kind as its key.
-/

namespace ProofOutline

inductive ExerciseError where
  | malformed
  | holeOnly (number : Nat)
  | step (number : Nat) (error : SourceError)
  deriving DecidableEq, Repr

namespace ExerciseError

/-- Steps are numbered from one in messages. -/
def detail : ExerciseError → String
  | malformed => "failed to parse"
  | holeOnly number =>
      "step " ++ toString number ++ ": only holes take `prompt` or `attempt`"
  | step number error => "step " ++ toString number ++ ": " ++ error.message

end ExerciseError

inductive StepKind where
  | assertion
  | command
  | hole
  | remark
  deriving DecidableEq, Repr

def StepKind.ofName? : String → Option StepKind
  | "assertion" => some assertion
  | "command" => some command
  | "hole" => some hole
  | "remark" => some remark
  | _ => none

structure StepEntry where
  kind : StepKind
  text : String := ""
  prompt : Option String := none
  attempt : Option String := none
  deriving DecidableEq, Repr

structure ExerciseFile where
  title : Option String := none
  config : CheckerConfig := {}
  steps : List StepEntry := []
  deriving DecidableEq, Repr

structure Exercise where
  title : Option String
  config : CheckerConfig
  steps : List Step
  /-- Attempts already filled in, each with the index of its hole. -/
  attempts : List (Nat × String)
  deriving DecidableEq

/-! ## The layout of the file -/

namespace ExerciseFile

open Toml

def readString? : Value → Option String
  | .string text => some text
  | _ => none

def readBoolean? : Value → Option Bool
  | .boolean flag => some flag
  | _ => none

def readNatural? : Value → Option Nat
  | .integer value => if 0 ≤ value then some value.toNat else none
  | _ => none

def readFields {α : Type} (field : String → Value → α → Option α)
    (entries : Entries) (start : α) : Option α :=
  entries.foldlM (fun record entry => field entry.1 entry.2 record) start

/-- Fields given by position; values beyond the last field are ignored. -/
def numbered (names : List String) (values : List Value) : Entries :=
  names.zip values

def configField (key : String) (value : Value) (config : CheckerConfig) :
    Option CheckerConfig :=
  match key with
  | "reject_false_precondition" =>
      (readBoolean? value).map
        ({ config with rejectFalsePrecondition := · })
  | "solver_timeout_ms" =>
      (readNatural? value).map
        ({ config with solverTimeoutMs := some · })
  | _ => none

def readConfig? : Value → Option CheckerConfig
  | .table _ entries => readFields configField entries {}
  | .array values =>
      readFields configField
        (numbered ["reject_false_precondition", "solver_timeout_ms"] values)
        {}
  | _ => none

def isEmptyValue : Value → Bool
  | .array [] | .table _ [] => true
  | _ => false

def readKind? : Value → Option StepKind
  | .string name => StepKind.ofName? name
  | .table origin ((name, content) :: rest) =>
      if isEmptyValue content && (origin != .inline || rest.isEmpty) then
        StepKind.ofName? name
      else none
  | _ => none

def stepField (key : String) (value : Value)
    (entry : Option StepKind × StepEntry) :
    Option (Option StepKind × StepEntry) :=
  match key with
  | "kind" => (readKind? value).map (some ·, entry.2)
  | "text" =>
      (readString? value).map fun text => (entry.1, { entry.2 with text })
  | "prompt" =>
      (readString? value).map fun prompt =>
        (entry.1, { entry.2 with prompt := some prompt })
  | "attempt" =>
      (readString? value).map fun attempt =>
        (entry.1, { entry.2 with attempt := some attempt })
  | _ => none

def readStepEntries? (entries : Entries) : Option StepEntry := do
  let (kind, entry) ← readFields stepField entries (none, { kind := .hole })
  return { entry with kind := ← kind }

def readStep? : Value → Option StepEntry
  | .table _ entries => readStepEntries? entries
  | .array values =>
      readStepEntries?
        (numbered ["kind", "text", "prompt", "attempt"] values)
  | _ => none

def readSteps? : Value → Option (List StepEntry)
  | .array values => values.mapM readStep?
  | .tables items => items.mapM readStepEntries?
  | _ => none

def field (key : String) (value : Value) (file : ExerciseFile) :
    Option ExerciseFile :=
  match key with
  | "title" =>
      (readString? value).map fun title => { file with title := some title }
  | "checker" => (readConfig? value).map ({ file with config := · })
  | "step" => (readSteps? value).map ({ file with steps := · })
  | _ => none

def read? (raw : String) : Option ExerciseFile := do
  readFields field (← Toml.parse? raw) {}

end ExerciseFile

/-! ## From the file to the exercise -/

namespace Exercise

def readStep (number : Nat) (entry : StepEntry) :
    Except ExerciseError Step :=
  if entry.kind ≠ .hole ∧ (entry.prompt.isSome ∨ entry.attempt.isSome) then
    .error (.holeOnly number)
  else
    match entry.kind with
    | .assertion => (Step.readAssertion entry.text).mapError (.step number)
    | .command => (Step.readCommand entry.text).mapError (.step number)
    | .hole => .ok (.hole (entry.prompt.getD Step.defaultPrompt))
    | .remark => .ok (.ofRemark entry.text)

def readSteps (index : Nat) :
    List StepEntry → Except ExerciseError (List Step)
  | [] => .ok []
  | entry :: rest => do
      let step ← readStep (index + 1) entry
      return step :: (← readSteps (index + 1) rest)

def filledIn (index : Nat) : List StepEntry → List (Nat × String)
  | [] => []
  | entry :: rest =>
      (entry.attempt.map (index, ·)).toList ++ filledIn (index + 1) rest

def ofFile (file : ExerciseFile) : Except ExerciseError Exercise := do
  let steps ← readSteps 0 file.steps
  return ⟨file.title, file.config, steps, filledIn 0 file.steps⟩

def parse (raw : String) : Except ExerciseError Exercise :=
  match ExerciseFile.read? raw with
  | some file => ofFile file
  | none => .error .malformed

end Exercise

end ProofOutline
