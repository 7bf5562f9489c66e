import ProofOutline.Feedback

/-!
# Compound commands

Commands as they are put together step by step.  A block is made of at least
two commands.  Blocks among its parts are opened, one level deep: what stands
in them is taken as it is.
-/

namespace ProofOutline

inductive Compound where
  | assign (target : Name) (value : Arith)
  | skip
  | block (parts : List Compound)

namespace Compound

def subCommands : Compound → List Compound
  | block parts => parts
  | other => [other]

def sequence (commands : List Compound) : Except SequenceError Compound :=
  let flat := commands.flatMap subCommands
  if flat.length < 2 then .error ⟨flat.length⟩ else .ok (.block flat)

mutual

def render : Compound → String
  | assign target value => target.text ++ " := " ++ value.render ++ ";"
  | skip => "skip;"
  | block parts => " ".intercalate (renderAll parts)

def renderAll : List Compound → List String
  | [] => []
  | part :: rest => part.render :: renderAll rest

end

mutual

def precondition : Compound → Formula → Formula
  | assign target value, post => post.subst target value
  | skip, post => post
  | block parts, post => preconditionAll parts post

def preconditionAll : List Compound → Formula → Formula
  | [], post => post
  | part :: rest, post => part.precondition (preconditionAll rest post)

end

mutual

def run (model : Model) : Compound → ProgramState → ProgramState
  | assign target value, state =>
      state.insert target (state.eval? model value)
  | skip, state => state
  | block parts, state => runAll model parts state

def runAll (model : Model) : List Compound → ProgramState → ProgramState
  | [], state => state
  | part :: rest, state => runAll model rest (part.run model state)

end

end Compound

end ProofOutline
