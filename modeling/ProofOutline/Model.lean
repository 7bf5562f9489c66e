import ProofOutline.Command
import ProofOutline.Name.Table

/-!
# Models and program states

A model gives words to variables; those it does not mention are `0`.  A
program state gives each variable it knows a word or the mark of an overflow,
and running a command updates it.
-/

namespace ProofOutline

abbrev Model := NameTable Word

namespace Model

def valueOf (model : Model) (name : Name) : Word :=
  (model.get? name).getD 0

def eval? (model : Model) (expr : Arith) : Option Word :=
  expr.eval? model.valueOf

end Model

/-- A known variable without a word has overflowed. -/
abbrev ProgramState := NameTable (Option Word)

namespace ProgramState

def ofModel (model : Model) (names : List Name) : ProgramState :=
  NameTable.ofList (names.map fun name => (name, some (model.valueOf name)))

def hasOverflowed (state : ProgramState) (name : Name) : Bool :=
  state.get? name == some none

/-- The word of a variable, from the model if the state has none. -/
def valueOf (state : ProgramState) (model : Model) (name : Name) : Word :=
  match state.get? name with
  | some (some word) => word
  | _ => model.valueOf name

/-- An expression that reads an overflowed variable overflows too. -/
def eval? (state : ProgramState) (model : Model) (expr : Arith) :
    Option Word :=
  if expr.freeVars.any state.hasOverflowed then none
  else expr.eval? (state.valueOf model)

def step (model : Model) (state : ProgramState) :
    Primitive → ProgramState
  | .assign target value => state.insert target (state.eval? model value)
  | .skip => state

def run (model : Model) (state : ProgramState) (command : Command) :
    ProgramState :=
  command.primitives.foldl (step model) state

def renderEntry : Name × Option Word → String
  | (name, some word) => "    " ++ name.text ++ ": " ++ word.render
  | (name, none) => "    " ++ name.text ++ ": <overflow>"

def render (state : ProgramState) : String :=
  if state.isEmpty then "    (no variables)"
  else "\n".intercalate (state.entries.map renderEntry)

end ProgramState

end ProofOutline
