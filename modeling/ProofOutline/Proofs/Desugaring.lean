import ProofOutline.Interpreted
import ProofOutline.Triple

/-!
# Expanding early or late

An application of `even` or `odd` to one argument expands to a comparison of
its argument, so that it makes no difference whether a substitution is carried
out before or after.  Weakest preconditions are substitutions one after
another, and so the query of a triple may be expanded at any time.  All other
applications stay where they are.
-/

namespace ProofOutline

namespace Formula

/-! ## One application -/

def IsParityTest (name : Name) (args : List Arith) : Prop :=
  (name.text = "even" ∨ name.text = "odd") ∧ args.length = 1

instance (name : Name) (args : List Arith) :
    Decidable (IsParityTest name args) :=
  inferInstanceAs (Decidable (_ ∧ _))

theorem desugar_predicate_eq (name : Name) (args : List Arith) :
    (predicate name args).desugar =
      if IsParityTest name args then
        Interpreted.remainderByTwo (if name.text = "even" then 0 else 1) args
      else .predicate name args := by
  rw [desugar, Interpreted.find?, Interpreted.known]
  by_cases isEven : name.text = "even"
  · by_cases one : args.length = 1 <;>
      simp [IsParityTest, Interpreted.expand?, isEven, one]
  · by_cases isOdd : name.text = "odd"
    · by_cases one : args.length = 1 <;>
        simp [IsParityTest, Interpreted.expand?, isOdd, one]
    · simp [IsParityTest, isEven, isOdd, Ne.symm isEven, Ne.symm isOdd]

@[simp] theorem subst_remainderByTwo (remainder : Word) (args : List Arith)
    (name : Name) (replacement : Arith) :
    (Interpreted.remainderByTwo remainder args).subst name replacement =
      Interpreted.remainderByTwo remainder
        (args.map (·.subst name replacement)) := by
  cases args <;> rfl

@[simp] theorem occurrences_remainderByTwo (remainder : Word) (arg : Arith) :
    (Interpreted.remainderByTwo remainder [arg]).occurrences =
      arg.occurrences := by
  simp [Interpreted.remainderByTwo, occurrences, Arith.occurrences]

/-! ## Substitutions -/

@[simp] theorem desugar_subst (formula : Formula) (name : Name)
    (replacement : Arith) :
    (formula.subst name replacement).desugar =
      formula.desugar.subst name replacement := by
  induction formula with
  | truth value => rfl
  | predicate symbol args =>
      have alike : IsParityTest symbol (args.map (·.subst name replacement)) ↔
          IsParityTest symbol args := by
        rw [IsParityTest, IsParityTest, List.length_map]
      rw [subst, desugar_predicate_eq, desugar_predicate_eq]
      by_cases test : IsParityTest symbol args
      · rw [if_pos (alike.mpr test), if_pos test, subst_remainderByTwo]
      · rw [if_neg (mt alike.mp test), if_neg test, subst]
  | neg body ih => rw [subst, desugar, ih, desugar, subst]
  | connect op left right ihLeft ihRight =>
      rw [subst, desugar, ihLeft, ihRight, desugar, subst]
  | compare op left right => rfl

end Formula

@[simp] theorem Primitive.desugar_precondition (primitive : Primitive)
    (post : Formula) :
    (primitive.precondition post).desugar =
      primitive.precondition post.desugar := by
  cases primitive with
  | assign target value => exact post.desugar_subst target value
  | skip => rfl

@[simp] theorem Command.desugar_precondition (command : Command)
    (post : Formula) :
    (command.precondition post).desugar =
      command.precondition post.desugar := by
  unfold precondition
  induction command.primitives with
  | nil => rfl
  | cons primitive rest ih =>
      rw [List.foldr_cons, List.foldr_cons, primitive.desugar_precondition, ih]

namespace Formula

/-! ## What is left -/

theorem desugar_eq_predicate_iff {formula : Formula} {name : Name}
    {args : List Arith} :
    formula.desugar = .predicate name args ↔
      formula = .predicate name args ∧ ¬IsParityTest name args := by
  cases formula with
  | predicate symbol others =>
      rw [desugar_predicate_eq]
      split
      case isTrue test =>
        refine iff_of_false (fun same => by cases same) ?_
        rintro ⟨same, none⟩
        cases same
        exact none test
      case isFalse none =>
        refine ⟨fun same => ⟨same, ?_⟩, And.left⟩
        cases same
        exact none
  | truth value => simp [desugar]
  | neg body => simp [desugar]
  | connect op left right => simp [desugar]
  | compare op left right => simp [desugar]

@[simp] theorem desugar_desugar (formula : Formula) :
    formula.desugar.desugar = formula.desugar := by
  induction formula with
  | truth value => rfl
  | predicate name args =>
      by_cases test : IsParityTest name args
      · rw [desugar_predicate_eq, if_pos test]
        rfl
      · rw [desugar_predicate_eq, if_neg test, desugar_predicate_eq,
          if_neg test]
  | neg body ih => rw [desugar, desugar, ih]
  | connect op left right ihLeft ihRight =>
      rw [desugar, desugar, ihLeft, ihRight]
  | compare op left right => rfl

@[simp] theorem occurrences_desugar (formula : Formula) :
    formula.desugar.occurrences = formula.occurrences := by
  induction formula with
  | truth value => rfl
  | predicate name args =>
      rw [desugar_predicate_eq]
      split
      case isTrue test =>
        obtain ⟨arg, rfl⟩ := List.length_eq_one_iff.mp test.2
        rw [occurrences_remainderByTwo, occurrences, List.flatMap_singleton]
      case isFalse => rfl
  | neg body ih => exact ih
  | connect op left right ihLeft ihRight =>
      rw [desugar, occurrences, occurrences, ihLeft, ihRight]
  | compare op left right => rfl

/-! ## Places in a formula -/

def children : Formula → List Formula
  | neg body => [body]
  | connect _ left right => [left, right]
  | truth _ | predicate _ _ | compare _ _ _ => []

/-- The formula that a path of child numbers leads to. -/
def at? (formula : Formula) : List Nat → Option Formula
  | [] => some formula
  | child :: path => formula.children[child]?.bind (·.at? path)

@[simp] theorem children_desugar (formula : Formula) :
    formula.desugar.children = formula.children.map desugar := by
  cases formula with
  | predicate name args =>
      rw [desugar_predicate_eq]
      split <;> rfl
  | truth value => rfl
  | neg body => rfl
  | connect op left right => rfl
  | compare op left right => rfl

@[simp] theorem at?_desugar (formula : Formula) (path : List Nat) :
    formula.desugar.at? path = (formula.at? path).map desugar := by
  induction path generalizing formula with
  | nil => rfl
  | cons child path ih =>
      rw [at?, at?, children_desugar, List.getElem?_map, Option.map_bind,
        Option.bind_map]
      exact congrArg _ (funext fun below => ih below)

/--
Expanding commutes with weakest preconditions and with substitution.  It is
done once and for all, keeps the variables, and removes exactly the
applications that expand.
-/
theorem desugar_commutes (formula : Formula) :
    (∀ command : Command, (command.precondition formula).desugar =
        command.precondition formula.desugar) ∧
      (∀ (name : Name) (replacement : Arith),
        (formula.subst name replacement).desugar =
          formula.desugar.subst name replacement) ∧
      formula.desugar.desugar = formula.desugar ∧
      formula.desugar.freeVars = formula.freeVars ∧
      ∀ (path : List Nat) (name : Name) (args : List Arith),
        formula.desugar.at? path = some (.predicate name args) ↔
          formula.at? path = some (.predicate name args) ∧
            ¬IsParityTest name args := by
  refine ⟨fun command => command.desugar_precondition formula,
    formula.desugar_subst, formula.desugar_desugar, ?_,
    fun path name args => ?_⟩
  · rw [freeVars, freeVars, occurrences_desugar]
  · rw [at?_desugar, Option.map_eq_some_iff]
    simp only [desugar_eq_predicate_iff]
    constructor
    · rintro ⟨found, there, rfl, none⟩
      exact ⟨there, none⟩
    · rintro ⟨there, none⟩
      exact ⟨_, there, rfl, none⟩

end Formula

end ProofOutline
