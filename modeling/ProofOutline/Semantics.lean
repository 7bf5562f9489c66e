import ProofOutline.Triple

/-!
# Meaning of formulas, commands and triples

Arithmetic is read over unbounded integers.  A valuation gives every variable
an integer, and an interpretation decides every predicate symbol on every list
of arguments.  A triple is valid when its program leads from valuations that
satisfy the precondition to valuations that satisfy the postcondition.
-/

namespace ProofOutline

abbrev Valuation := Name → Int

abbrev Interpretation := Name → List Int → Bool

def Valuation.update (valuation : Valuation) (name : Name) (value : Int) :
    Valuation :=
  fun other => if other = name then value else valuation other

def Connective.combine : Connective → Bool → Bool → Bool
  | and, a, b => a && b
  | or, a, b => a || b
  | implies, a, b => !a || b

def Formula.holds (interpretation : Interpretation) (valuation : Valuation) :
    Formula → Bool
  | truth value => value
  | predicate name args => interpretation name (args.map (·.value valuation))
  | neg body => !body.holds interpretation valuation
  | connect op left right =>
      op.combine (left.holds interpretation valuation)
        (right.holds interpretation valuation)
  | compare op left right =>
      op.holds (left.value valuation) (right.value valuation)

def Primitive.exec (valuation : Valuation) : Primitive → Valuation
  | assign target value => valuation.update target (value.value valuation)
  | skip => valuation

def Command.exec (command : Command) (valuation : Valuation) : Valuation :=
  command.primitives.foldl Primitive.exec valuation

def Formula.Valid (formula : Formula) : Prop :=
  ∀ interpretation valuation, formula.holds interpretation valuation = true

def Triple.Valid (triple : Triple) : Prop :=
  ∀ interpretation valuation,
    triple.pre.formula.holds interpretation valuation = true →
      triple.post.formula.holds interpretation
        (triple.program.command.exec valuation) = true

end ProofOutline
