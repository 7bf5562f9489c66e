import Mathlib.Data.List.Sort
import ProofOutline.Formula

/-!
# Substitution and free variables

Putting an expression for a variable takes that variable out of the free
variables and brings those of the expression in, provided that the variable
was there; if it was not, nothing happens.  Two substitutions may change
places when neither touches what the other puts in.
-/

namespace ProofOutline

/-! ## Sets of names -/

namespace Name

theorem eq_of_increasing {α : Type} (key : α → Name) {first second : List α}
    (increasing : first.Pairwise fun a b => key a < key b)
    (increasing' : second.Pairwise fun a b => key a < key b)
    (same : ∀ item, item ∈ first ↔ item ∈ second) : first = second := by
  have irrefl : Std.Irrefl fun a b : α => key a < key b :=
    ⟨fun a => lt_irrefl (key a)⟩
  have antisymm : Std.Antisymm fun a b : α => key a < key b :=
    ⟨fun a b below above => absurd (lt_trans below above) (lt_irrefl (key a))⟩
  exact increasing.eq_of_mem_iff increasing' same

@[simp] theorem mem_ofList {name : Name} {names : List Name} :
    name ∈ OrderedSet.ofList names ↔ name ∈ names :=
  OrderedSet.mem_ofList (fun _ _ => eq_of_not_lt) name names

private theorem ofList_congr {first second : List Name}
    (same : ∀ name, name ∈ first ↔ name ∈ second) :
    OrderedSet.ofList first = OrderedSet.ofList second := by
  have increasing (names : List Name) :
      (OrderedSet.ofList names).Pairwise fun a b => id a < id b :=
    OrderedSet.pairwise_ofList (fun _ _ => eq_of_not_lt) lt_trans names
  refine eq_of_increasing id (increasing first) (increasing second) ?_
  intro name
  rw [mem_ofList, mem_ofList, same]

private theorem ofList_exchange {name : Name} {before after others : List Name}
    (exchanged : ∀ other, other ∈ after ↔
      (other ∈ before ∧ other ≠ name) ∨ (name ∈ before ∧ other ∈ others)) :
    OrderedSet.ofList after =
      if name ∈ OrderedSet.ofList before then
        OrderedSet.ofList
          ((OrderedSet.ofList before).filter (· ≠ name) ++
            OrderedSet.ofList others)
      else OrderedSet.ofList before := by
  split
  case isTrue present =>
    apply ofList_congr
    intro other
    rw [exchanged, List.mem_append, List.mem_filter, mem_ofList, mem_ofList,
      decide_eq_true_iff, and_iff_right (mem_ofList.mp present)]
  case isFalse absent =>
    apply ofList_congr
    intro other
    rw [mem_ofList] at absent
    rw [exchanged, or_iff_left fun both => absent both.1]
    exact and_iff_left_of_imp fun mem same => absent (same ▸ mem)

end Name

/-! ## Variables that occur after a substitution -/

@[simp] theorem Arith.mem_occurrences_subst {expr : Arith} {name other : Name}
    {replacement : Arith} :
    other ∈ (expr.subst name replacement).occurrences ↔
      (other ∈ expr.occurrences ∧ other ≠ name) ∨
        (name ∈ expr.occurrences ∧ other ∈ replacement.occurrences) := by
  induction expr with
  | lit value => simp [subst, occurrences]
  | var there =>
      by_cases same : there = name
      · subst same
        simp [subst, occurrences]
      · have different : name ≠ there := Ne.symm same
        simp only [subst, same, if_false, occurrences, List.mem_singleton,
          different, false_and, or_false]
        exact (and_iff_left_of_imp fun isThere => isThere ▸ same).symm
  | binary op left right ihLeft ihRight =>
      simp only [subst, occurrences, List.mem_append, ihLeft, ihRight,
        or_and_right]
      exact or_or_or_comm

@[simp] theorem Formula.mem_occurrences_subst {formula : Formula}
    {name other : Name} {replacement : Arith} :
    other ∈ (formula.subst name replacement).occurrences ↔
      (other ∈ formula.occurrences ∧ other ≠ name) ∨
        (name ∈ formula.occurrences ∧ other ∈ replacement.occurrences) := by
  induction formula with
  | truth value => simp [subst, occurrences]
  | predicate symbol args =>
      simp only [subst, occurrences, List.flatMap_map, List.mem_flatMap,
        Arith.mem_occurrences_subst, and_or_left, exists_or, ← and_assoc,
        exists_and_right]
  | neg body ih => exact ih
  | connect op left right ihLeft ihRight =>
      simp only [subst, occurrences, List.mem_append, ihLeft, ihRight,
        or_and_right]
      exact or_or_or_comm
  | compare op left right =>
      simp only [subst, occurrences, List.mem_append,
        Arith.mem_occurrences_subst, or_and_right]
      exact or_or_or_comm

/-! ## Substitutions that change nothing -/

theorem Arith.subst_eq_self_iff {expr : Arith} {name : Name}
    {replacement : Arith} :
    expr.subst name replacement = expr ↔
      name ∉ expr.occurrences ∨ replacement = .var name := by
  induction expr with
  | lit value => simp [subst, occurrences]
  | var there =>
      by_cases same : there = name
      · subst same
        simp [subst, occurrences]
      · simp [subst, occurrences, same, Ne.symm same]
  | binary op left right ihLeft ihRight =>
      rw [subst, binary.injEq, ihLeft, ihRight, occurrences, List.mem_append,
        not_or, and_or_right]
      exact and_iff_right rfl

theorem Formula.subst_eq_self_iff {formula : Formula} {name : Name}
    {replacement : Arith} :
    formula.subst name replacement = formula ↔
      name ∉ formula.occurrences ∨ replacement = .var name := by
  induction formula with
  | truth value => simp [subst, occurrences]
  | predicate symbol args =>
      have each : args.map (·.subst name replacement) = args.map id ↔
          ∀ arg ∈ args, name ∉ arg.occurrences ∨ replacement = .var name := by
        simp only [List.map_inj_left, id, Arith.subst_eq_self_iff]
      rw [List.map_id] at each
      rw [subst, predicate.injEq, and_iff_right rfl, each, occurrences,
        List.mem_flatMap]
      by_cases self : replacement = .var name <;> simp [self]
  | neg body ih => rw [subst, neg.injEq, ih, occurrences]
  | connect op left right ihLeft ihRight =>
      rw [subst, connect.injEq, ihLeft, ihRight, occurrences, List.mem_append,
        not_or, and_or_right]
      exact and_iff_right rfl
  | compare op left right =>
      rw [subst, compare.injEq, Arith.subst_eq_self_iff,
        Arith.subst_eq_self_iff, occurrences, List.mem_append, not_or,
        and_or_right]
      exact and_iff_right rfl

/--
Substitution has the free variables that it ought to have, and it changes
nothing exactly if the variable is not free or is put for itself.
-/
theorem freeVars_subst_exact (name : Name) (replacement : Arith) :
    (∀ expr : Arith,
      (expr.subst name replacement).freeVars =
        (if name ∈ expr.freeVars then
          OrderedSet.ofList
            (expr.freeVars.filter (· ≠ name) ++ replacement.freeVars)
        else expr.freeVars) ∧
      (expr.subst name replacement = expr ↔
        name ∉ expr.freeVars ∨ replacement = .var name)) ∧
    ∀ formula : Formula,
      (formula.subst name replacement).freeVars =
        (if name ∈ formula.freeVars then
          OrderedSet.ofList
            (formula.freeVars.filter (· ≠ name) ++ replacement.freeVars)
        else formula.freeVars) ∧
      (formula.subst name replacement = formula ↔
        name ∉ formula.freeVars ∨ replacement = .var name) := by
  constructor
  · intro expr
    refine ⟨Name.ofList_exchange fun _ => Arith.mem_occurrences_subst, ?_⟩
    rw [Arith.mem_freeVars, Arith.subst_eq_self_iff]
  · intro formula
    refine ⟨Name.ofList_exchange fun _ => Formula.mem_occurrences_subst, ?_⟩
    rw [Formula.mem_freeVars, Formula.subst_eq_self_iff]

/-! ## Two substitutions -/

/-- The later substitution also goes into what the earlier one has put in. -/
theorem Arith.subst_subst {expr inner replacement : Arith}
    {name other : Name} (distinct : name ≠ other)
    (absent : other ∉ replacement.occurrences) :
    (expr.subst other inner).subst name replacement =
      (expr.subst name replacement).subst other
        (inner.subst name replacement) := by
  induction expr with
  | lit value => rfl
  | var there =>
      by_cases isOther : there = other
      · subst isOther
        simp [subst, Ne.symm distinct]
      · by_cases isName : there = name
        · subst isName
          have kept := subst_eq_self_iff.mpr
            (.inl absent : _ ∨ inner.subst there replacement = _)
          simp [subst, isOther, kept]
        · simp [subst, isOther, isName]
  | binary op left right ihLeft ihRight =>
      simp only [subst, ihLeft, ihRight]

theorem Formula.subst_subst {formula : Formula} {inner replacement : Arith}
    {name other : Name} (distinct : name ≠ other)
    (absent : other ∉ replacement.occurrences) :
    (formula.subst other inner).subst name replacement =
      (formula.subst name replacement).subst other
        (inner.subst name replacement) := by
  induction formula with
  | truth value => rfl
  | predicate symbol args =>
      simp only [subst, List.map_map]
      congr 1
      apply List.map_congr_left
      intro arg _
      exact Arith.subst_subst distinct absent
  | neg body ih => simp only [subst, ih]
  | connect op left right ihLeft ihRight =>
      simp only [subst, ihLeft, ihRight]
  | compare op left right =>
      simp only [subst, Arith.subst_subst distinct absent]

theorem Formula.subst_comm {formula : Formula} {name other : Name}
    {replacement value : Arith} (distinct : name ≠ other)
    (absent : other ∉ replacement.occurrences)
    (absent' : name ∉ value.occurrences) :
    (formula.subst other value).subst name replacement =
      (formula.subst name replacement).subst other value := by
  rw [subst_subst distinct absent,
    Arith.subst_eq_self_iff.mpr (.inl absent')]

end ProofOutline
