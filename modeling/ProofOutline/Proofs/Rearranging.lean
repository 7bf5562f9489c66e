import ProofOutline.Proofs.Backward
import ProofOutline.Proofs.Substitution

/-!
# Reordering commands

The order of the primitive commands in a command matters in general, but two
neighbouring assignments may change places if neither sets a variable that the
other one reads or sets.
-/

namespace ProofOutline

namespace NameTable

variable {α : Type}

private theorem ext_get? {first second : NameTable α}
    (same : ∀ name, first.get? name = second.get? name) : first = second := by
  have entries : first.entries = second.entries := by
    refine Name.eq_of_increasing Prod.fst first.ordered second.ordered ?_
    rintro ⟨name, value⟩
    rw [mem_entries_iff, mem_entries_iff, same]
  cases first
  cases second
  cases entries
  rfl

private theorem insert_comm (table : NameTable α) {name other : Name}
    (distinct : name ≠ other) (value value' : α) :
    (table.insert name value).insert other value' =
      (table.insert other value').insert name value := by
  apply ext_get?
  intro there
  simp only [get?_insert]
  by_cases isName : there = name
  · simp [isName, distinct]
  · simp [isName]

end NameTable

section Independent

variable {target other : Name} {value value' : Arith}

private theorem Primitive.precondition_swap (distinct : target ≠ other)
    (unread : target ∉ value'.freeVars) (unread' : other ∉ value.freeVars)
    (post : Formula) :
    (assign target value).precondition
        ((assign other value').precondition post) =
      (assign other value').precondition
        ((assign target value).precondition post) :=
  Formula.subst_comm distinct (mt Arith.mem_freeVars.mpr unread')
    (mt Arith.mem_freeVars.mpr unread)

namespace ProgramState

private theorem eval?_step_assign (model : Model) (state : ProgramState)
    (value : Arith) (unread : target ∉ value'.freeVars) :
    (state.step model (.assign target value)).eval? model value' =
      state.eval? model value' := by
  have kept : value'.subst target value = value' :=
    Arith.subst_eq_self_iff.mpr (.inl (mt Arith.mem_freeVars.mpr unread))
  rw [eval?_eq_evalIn?, ← evalIn?_pullBack, Primitive.pullBack, kept,
    eval?_eq_evalIn?]

private theorem step_swap (model : Model) (state : ProgramState)
    (distinct : target ≠ other) (unread : target ∉ value'.freeVars)
    (unread' : other ∉ value.freeVars) :
    (state.step model (.assign target value)).step model
        (.assign other value') =
      (state.step model (.assign other value')).step model
        (.assign target value) := by
  have second := eval?_step_assign model state value unread
  have second' := eval?_step_assign model state value' unread'
  calc
    _ = (state.insert target (state.eval? model value)).insert other
          (state.eval? model value') := congrArg (NameTable.insert _ other) second
    _ = (state.insert other (state.eval? model value')).insert target
          (state.eval? model value) := NameTable.insert_comm state distinct _ _
    _ = _ := congrArg (NameTable.insert _ target) second'.symm

end ProgramState

/--
Two neighbouring assignments of which neither sets a variable that the other
one reads or sets may change places: preconditions and queries stay the same
syntax, and a run in words ends in the same state, overflowed variables
included.
-/
theorem Command.independent_assignments_commute (distinct : target ≠ other)
    (unread : target ∉ value'.freeVars) (unread' : other ∉ value.freeVars)
    {before after : List Primitive} {command swapped : Command}
    (inOrder : command.primitives =
      before ++ .assign target value :: .assign other value' :: after)
    (exchanged : swapped.primitives =
      before ++ .assign other value' :: .assign target value :: after) :
    (∀ post, command.precondition post = swapped.precondition post) ∧
    (∀ (pre post : Assertion) (source source' : String),
      Triple.query ⟨pre, ⟨source, command⟩, post⟩ =
        Triple.query ⟨pre, ⟨source', swapped⟩, post⟩) ∧
    ∀ (model : Model) (state : ProgramState),
      state.run model command = state.run model swapped := by
  have same (post : Formula) :
      command.precondition post = swapped.precondition post := by
    simp only [precondition, inOrder, exchanged, List.foldr_append,
      List.foldr_cons]
    rw [Primitive.precondition_swap distinct unread unread']
  refine ⟨same, fun pre post source source' => ?_, fun model state => ?_⟩
  · simp only [Triple.query, same]
  · simp only [ProgramState.run, inOrder, exchanged, List.foldl_append,
      List.foldl_cons]
    rw [ProgramState.step_swap model _ distinct unread unread']

end Independent

section Overflowing

open Verdict.Overflowing (a b c model)

/-- `a` overflows, `b` takes it over, and `c` is set before or after that. -/
theorem Command.independent_assignments_commute_overflowing :
    let next := Arith.binary .plus (.var a) (.lit 1)
    let square := Arith.binary .times (.var b) (.var b)
    let command : Command :=
      ⟨.skip, [.assign a next, .assign c square, .assign b (.var a)]⟩
    let swapped : Command :=
      ⟨.skip, [.assign c square, .assign a next, .assign b (.var a)]⟩
    let start := ProgramState.ofModel model [a]
    (a ≠ c ∧ a ∉ square.freeVars ∧ c ∉ next.freeVars) ∧
      command ≠ swapped ∧
      (∀ post, command.precondition post = swapped.precondition post) ∧
      start.run model command = start.run model swapped ∧
      (start.run model command).render =
        "    a: <overflow>\n    b: <overflow>\n    c: 9" := by
  intro next square command swapped start
  have distinct : a ≠ c := by decide
  have unread : a ∉ square.freeVars := by decide +kernel
  have unread' : c ∉ next.freeVars := by decide +kernel
  have inOrder : command.primitives =
      [.skip] ++ .assign a next :: .assign c square :: [.assign b (.var a)] :=
    rfl
  have exchanged : swapped.primitives =
      [.skip] ++ .assign c square :: .assign a next :: [.assign b (.var a)] :=
    rfl
  have commute := independent_assignments_commute distinct unread unread'
    inOrder exchanged
  exact ⟨⟨distinct, unread, unread'⟩, by decide +kernel, commute.1,
    commute.2.2 model start, by decide +kernel⟩

end Overflowing

end ProofOutline
