import ProofOutline.Arith

/-!
# Commands

A command runs one or more primitive commands in order.  Grouping leaves no
trace: a sequence is the list of the primitive commands in it.
-/

namespace ProofOutline

inductive Primitive where
  | assign (target : Name) (value : Arith)
  | skip
  deriving DecidableEq

namespace Primitive

def render : Primitive → String
  | assign target value => target.text ++ " := " ++ value.render ++ ";"
  | skip => "skip;"

end Primitive

structure Command where
  first : Primitive
  rest : List Primitive
  deriving DecidableEq

/-- Fewer than two primitive commands do not make a sequence. -/
structure SequenceError where
  count : Nat
  deriving DecidableEq, Repr

namespace SequenceError

def message (error : SequenceError) : String :=
  "a sequence needs at least two sub-commands, got " ++ toString error.count

def diagnostic (error : SequenceError) : Diagnostic where
  code := "imp::sequence"
  message := error.message

end SequenceError

namespace Command

def ofPrimitive (primitive : Primitive) : Command := ⟨primitive, []⟩

def assign (target : Name) (value : Arith) : Command :=
  ofPrimitive (.assign target value)

def skip : Command := ofPrimitive .skip

def primitives (command : Command) : List Primitive :=
  command.first :: command.rest

def sequence (commands : List Command) : Except SequenceError Command :=
  match commands.flatMap primitives with
  | first :: second :: rest => .ok ⟨first, second :: rest⟩
  | few => .error ⟨few.length⟩

def render (command : Command) : String :=
  " ".intercalate (command.primitives.map Primitive.render)

end Command

end ProofOutline
