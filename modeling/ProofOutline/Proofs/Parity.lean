import Mathlib.Algebra.Ring.Int.Parity
import ProofOutline.Interpreted
import ProofOutline.Proofs.Evaluation

/-!
# Even and odd

`even` and `odd` expand to comparisons of a remainder by two.  Remainders take
the sign of the dividend, so that a negative odd number leaves `-1` and is
neither: every other number is exactly one of the two, over unbounded integers
and in words alike.
-/

namespace ProofOutline

/-! ## Truth in words -/

namespace Formula

/-- The truth value in words; nothing when an expression overflows. -/
def holdsInWords? (interpretation : Interpretation) (env : Name → Word) :
    Formula → Option Bool
  | truth value => some value
  | predicate name args =>
      (args.mapM (Arith.eval? env)).map fun words =>
        interpretation name (words.map Int64.toInt)
  | neg body => (body.holdsInWords? interpretation env).map fun value => !value
  | connect op left right =>
      (left.holdsInWords? interpretation env).bind fun a =>
        (right.holdsInWords? interpretation env).map fun b => op.combine a b
  | compare op left right =>
      (left.eval? env).bind fun a =>
        (right.eval? env).map fun b => op.holds a.toInt b.toInt

end Formula

private theorem Arith.toInt_of_mapM_eval? {env : Name → Word}
    {args : List Arith}
    {words : List Word} (h : args.mapM (eval? env) = some words) :
    words.map Int64.toInt =
      args.map (·.value fun name => (env name).toInt) := by
  induction args generalizing words with
  | nil =>
      cases h
      rfl
  | cons arg args ih =>
      rw [List.mapM_cons] at h
      obtain ⟨word, first, h⟩ := Option.bind_eq_some_iff.mp h
      obtain ⟨others, rest, h⟩ := Option.bind_eq_some_iff.mp h
      cases h
      rw [List.map_cons, List.map_cons, toInt_of_eval? first, ih rest]

namespace Formula

private theorem holds_of_holdsInWords? {interpretation : Interpretation}
    {env : Name → Word} {formula : Formula} {found : Bool}
    (h : formula.holdsInWords? interpretation env = some found) :
    formula.holds interpretation (fun name => (env name).toInt) = found := by
  induction formula generalizing found with
  | truth value =>
      cases h
      rfl
  | predicate name args =>
      obtain ⟨words, evaluates, rfl⟩ := Option.map_eq_some_iff.mp h
      rw [holds, Arith.toInt_of_mapM_eval? evaluates]
  | neg body ih =>
      obtain ⟨value, inBody, rfl⟩ := Option.map_eq_some_iff.mp h
      rw [holds, ih inBody]
  | connect op left right ihLeft ihRight =>
      obtain ⟨a, inLeft, h⟩ := Option.bind_eq_some_iff.mp h
      obtain ⟨b, inRight, rfl⟩ := Option.map_eq_some_iff.mp h
      rw [holds, ihLeft inLeft, ihRight inRight]
  | compare op left right =>
      obtain ⟨a, inLeft, h⟩ := Option.bind_eq_some_iff.mp h
      obtain ⟨b, inRight, rfl⟩ := Option.map_eq_some_iff.mp h
      rw [holds, Arith.toInt_of_eval? inLeft, Arith.toInt_of_eval? inRight]

/-! ## The two predicates -/

def even (expr : Arith) : Formula := .predicate ⟨"even", by decide⟩ [expr]

def odd (expr : Arith) : Formula := .predicate ⟨"odd", by decide⟩ [expr]

@[simp] theorem desugar_even (expr : Arith) :
    (even expr).desugar =
      .compare .eq (.binary .modulo expr (.lit 2)) (.lit 0) :=
  rfl

@[simp] theorem desugar_odd (expr : Arith) :
    (odd expr).desugar =
      .compare .eq (.binary .modulo expr (.lit 2)) (.lit 1) :=
  rfl

end Formula

/-! ## Remainders by two -/

theorem tmod_two_eq_zero_iff (value : Int) :
    value.tmod 2 = 0 ↔ Even value := by
  rw [even_iff_two_dvd, Int.dvd_iff_tmod_eq_zero]

theorem tmod_two_eq_one_iff (value : Int) :
    value.tmod 2 = 1 ↔ Odd value ∧ 0 < value := by
  rw [Int.odd_iff]
  rcases Int.le_total 0 value with nonnegative | nonpositive
  · rw [Int.tmod_eq_emod_of_nonneg nonnegative]
    omega
  · have mirrored : value.tmod 2 = -(-value % 2) := by
      rw [← Int.tmod_eq_emod_of_nonneg (Int.neg_nonneg_of_nonpos nonpositive),
        Int.neg_tmod, Int.neg_neg]
    rw [mirrored]
    omega

/--
Truth values for `even` and `odd` of a number: exactly one is true, but both
are false for a negative odd number.
-/
structure SplitByParity (value : Int) (isEven isOdd : Bool) : Prop where
  even_iff : isEven = true ↔ Even value
  odd_iff : isOdd = true ↔ Odd value ∧ 0 < value
  one : ¬(Odd value ∧ value < 0) → (isEven ^^ isOdd) = true
  neither : Odd value ∧ value < 0 → isEven = false ∧ isOdd = false

private theorem splitByParity_of_iff {value : Int} {isEven isOdd : Bool}
    (even_iff : isEven = true ↔ Even value)
    (odd_iff : isOdd = true ↔ Odd value ∧ 0 < value) :
    SplitByParity value isEven isOdd where
  even_iff := even_iff
  odd_iff := odd_iff
  one usual := by
    rcases Int.even_or_odd value with even | odd
    · have notOdd : isOdd = false := Bool.eq_false_iff.mpr fun isOdd =>
        Int.not_odd_iff_even.mpr even (odd_iff.mp isOdd).1
      rw [even_iff.mpr even, notOdd, Bool.xor_false]
    · have notEven : isEven = false := Bool.eq_false_iff.mpr fun isEven =>
        Int.not_even_iff_odd.mpr odd (even_iff.mp isEven)
      have nonzero : value ≠ 0 := fun zero => by simp [zero] at odd
      have notNegative : ¬value < 0 := fun negative => usual ⟨odd, negative⟩
      have positive : 0 < value := by omega
      rw [notEven, odd_iff.mpr ⟨odd, positive⟩, Bool.false_xor]
  neither := by
    rintro ⟨odd, negative⟩
    refine ⟨Bool.eq_false_iff.mpr fun isEven => ?_,
      Bool.eq_false_iff.mpr fun isOdd => ?_⟩
    · exact Int.not_even_iff_odd.mpr odd (even_iff.mp isEven)
    · exact Int.lt_asymm negative (odd_iff.mp isOdd).2

namespace Formula

private theorem splitByParity_holds (interpretation : Interpretation)
    (values : Valuation) (expr : Arith) :
    SplitByParity (expr.value values)
      ((even expr).desugar.holds interpretation values)
      ((odd expr).desugar.holds interpretation values) := by
  apply splitByParity_of_iff
  · rw [desugar_even, ← tmod_two_eq_zero_iff]
    exact beq_iff_eq
  · rw [desugar_odd, ← tmod_two_eq_one_iff]
    exact beq_iff_eq

private theorem exists_holdsInWords?_remainder (interpretation : Interpretation)
    {env : Name → Word} {expr : Arith} {word : Word}
    (evaluates : expr.eval? env = some word) (remainder : Word) :
    ∃ found, (Interpreted.remainderByTwo remainder [expr]).holdsInWords?
      interpretation env = some found := by
  have divided : (Arith.binary .modulo expr (.lit 2)).eval? env =
      some (word % 2) :=
    Arith.eval?_binary_eq_some_iff.mpr
      ⟨word, 2, evaluates, rfl, Int64.toInt_mod word 2⟩
  exact ⟨_, by
    rw [Interpreted.remainderByTwo, List.headD_cons, holdsInWords?, divided]
    rfl⟩

/--
Of the expansions of `even` and `odd` exactly one is true, unless the value is
negative and odd, when neither is; and so in words, when the expression does
not overflow.
-/
theorem even_odd_complementary (expr : Arith)
    (interpretation : Interpretation) :
    (∀ values : Valuation,
      SplitByParity (expr.value values)
        ((even expr).desugar.holds interpretation values)
        ((odd expr).desugar.holds interpretation values)) ∧
    ∀ (env : Name → Word) (word : Word), expr.eval? env = some word →
      ∃ isEven isOdd,
        (even expr).desugar.holdsInWords? interpretation env = some isEven ∧
        (odd expr).desugar.holdsInWords? interpretation env = some isOdd ∧
        SplitByParity word.toInt isEven isOdd := by
  refine ⟨fun values => splitByParity_holds interpretation values expr, ?_⟩
  intro env word evaluates
  obtain ⟨isEven, foundEven⟩ :=
    exists_holdsInWords?_remainder interpretation evaluates 0
  obtain ⟨isOdd, foundOdd⟩ :=
    exists_holdsInWords?_remainder interpretation evaluates 1
  refine ⟨isEven, isOdd, foundEven, foundOdd, ?_⟩
  have split := splitByParity_holds interpretation
    (fun name => (env name).toInt) expr
  rw [← Arith.toInt_of_eval? evaluates] at split
  rwa [← holds_of_holdsInWords? foundEven, ← holds_of_holdsInWords? foundOdd]

/-- `1 - 4` is odd and neither, `4 - 1` is odd. -/
theorem even_odd_complementary_difference :
    let difference := fun a b : Word => Arith.binary .minus (.lit a) (.lit b)
    let never : Interpretation := fun _ _ => false
    let env : Name → Word := fun _ => 0
    (even (difference 1 4)).desugar.holdsInWords? never env = some false ∧
      (odd (difference 1 4)).desugar.holdsInWords? never env = some false ∧
      ∃ isEven isOdd,
        (even (difference 4 1)).desugar.holdsInWords? never env =
          some isEven ∧
        (odd (difference 4 1)).desugar.holdsInWords? never env =
          some isOdd ∧
        (isEven ^^ isOdd) = true := by
  intro difference never env
  obtain ⟨isEven, isOdd, foundEven, foundOdd, negative⟩ :=
    (even_odd_complementary (difference 1 4) never).2 env (-3) (by decide)
  obtain ⟨rfl, rfl⟩ := negative.neither ⟨⟨-2, by decide⟩, by decide⟩
  obtain ⟨isEven, isOdd, foundEven', foundOdd', positive⟩ :=
    (even_odd_complementary (difference 4 1) never).2 env 3 (by decide)
  exact ⟨foundEven, foundOdd, isEven, isOdd, foundEven', foundOdd',
    positive.one (by decide)⟩

/-- Neither expansion is true of `-1`. -/
theorem even_odd_not_complementary :
    let minusOne := Arith.lit (-1)
    let never : Interpretation := fun _ _ => false
    (even minusOne).desugar.holds never (fun _ => 0) = false ∧
      (odd minusOne).desugar.holds never (fun _ => 0) = false ∧
      (even minusOne).desugar.holdsInWords? never (fun _ => 0) =
        some false ∧
      (odd minusOne).desugar.holdsInWords? never (fun _ => 0) =
        some false := by
  decide

end Formula

end ProofOutline
