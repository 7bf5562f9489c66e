import ProofOutline.Semantics

/-!
# Weakest preconditions are exact

Putting an expression for a variable is the same as changing the valuation at
that variable.  So the precondition of a command says of a valuation what the
postcondition says of the valuation the command leads to, and the query of a
triple is valid just when the triple is.
-/

namespace ProofOutline

/-! ## Substitution and valuations -/

@[simp] theorem Arith.value_subst (expr : Arith) (name : Name)
    (replacement : Arith) (valuation : Valuation) :
    (expr.subst name replacement).value valuation =
      expr.value (valuation.update name (replacement.value valuation)) := by
  induction expr with
  | lit word => rfl
  | var other =>
      by_cases same : other = name
      · simp [subst, value, Valuation.update, same]
      · simp [subst, value, Valuation.update, same]
  | binary op left right ihLeft ihRight =>
      simp only [subst, value, ihLeft, ihRight]

@[simp] theorem Arith.map_value_subst (args : List Arith) (name : Name)
    (replacement : Arith) (valuation : Valuation) :
    (args.map fun arg => arg.subst name replacement).map
        (·.value valuation) =
      args.map
        (·.value (valuation.update name (replacement.value valuation))) := by
  rw [List.map_map]
  apply List.map_congr_left
  intro arg _
  exact arg.value_subst name replacement valuation

@[simp] theorem Formula.holds_subst (formula : Formula) (name : Name)
    (replacement : Arith) (interpretation : Interpretation)
    (valuation : Valuation) :
    (formula.subst name replacement).holds interpretation valuation =
      formula.holds interpretation
        (valuation.update name (replacement.value valuation)) := by
  induction formula with
  | truth value => rfl
  | predicate symbol args =>
      simp only [subst, holds, Arith.map_value_subst]
  | neg body ih => simp only [subst, holds, ih]
  | connect op left right ihLeft ihRight =>
      simp only [subst, holds, ihLeft, ihRight]
  | compare op left right => simp only [subst, holds, Arith.value_subst]

/-! ## Commands -/

@[simp] theorem Primitive.holds_precondition (primitive : Primitive)
    (post : Formula) (interpretation : Interpretation) (valuation : Valuation) :
    (primitive.precondition post).holds interpretation valuation =
      post.holds interpretation (primitive.exec valuation) := by
  cases primitive with
  | assign target value =>
      exact post.holds_subst target value interpretation valuation
  | skip => rfl

/-- Preconditions are taken from the last command, runs from the first. -/
@[simp] theorem Primitive.holds_foldr_precondition (primitives : List Primitive)
    (post : Formula) (interpretation : Interpretation) (valuation : Valuation) :
    (primitives.foldr precondition post).holds interpretation valuation =
      post.holds interpretation (primitives.foldl exec valuation) := by
  induction primitives generalizing valuation with
  | nil => rfl
  | cons first rest ih =>
      rw [List.foldr_cons, List.foldl_cons, holds_precondition, ih]

@[simp] theorem Command.holds_precondition (command : Command) (post : Formula)
    (interpretation : Interpretation) (valuation : Valuation) :
    (command.precondition post).holds interpretation valuation =
      post.holds interpretation (command.exec valuation) :=
  Primitive.holds_foldr_precondition command.primitives post interpretation
    valuation

/-! ## Queries -/

@[simp] theorem Formula.holds_implies (left right : Formula)
    (interpretation : Interpretation) (valuation : Valuation) :
    (left.implies right).holds interpretation valuation = true ↔
      (left.holds interpretation valuation = true →
        right.holds interpretation valuation = true) := by
  simp only [Formula.implies, holds, Connective.combine]
  cases left.holds interpretation valuation <;> simp

theorem Triple.holds_query (triple : Triple)
    (interpretation : Interpretation) (valuation : Valuation) :
    triple.query.holds interpretation valuation = true ↔
      (triple.pre.formula.holds interpretation valuation = true →
        triple.post.formula.holds interpretation
          (triple.program.command.exec valuation) = true) := by
  rw [query, Formula.holds_implies, Command.holds_precondition]

@[simp] theorem Triple.valid_query_iff (triple : Triple) :
    triple.query.Valid ↔ triple.Valid := by
  simp only [Formula.Valid, Triple.Valid, holds_query]

/--
The precondition of a command holds where the command leads to a valuation
with the postcondition, and nowhere else; so validity of the query decides
validity of the triple.
-/
theorem precondition_exact :
    (∀ (command : Command) (post : Formula)
        (interpretation : Interpretation) (valuation : Valuation),
      (command.precondition post).holds interpretation valuation = true ↔
        post.holds interpretation (command.exec valuation) = true) ∧
    (∀ triple : Triple, triple.query.Valid ↔ triple.Valid) := by
  constructor
  · intro command post interpretation valuation
    rw [Command.holds_precondition]
  · exact Triple.valid_query_iff

end ProofOutline
