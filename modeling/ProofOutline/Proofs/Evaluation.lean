import Mathlib.Algebra.Order.Ring.Int
import ProofOutline.Semantics

/-!
# Evaluation in words

An operation on words gives the exact result when that is a word, and nothing
otherwise.  So an expression has a value in words exactly if the exact values
of all its parts are words, and its value is then the exact one.
-/

namespace ProofOutline

/-! ## Operations on words -/

namespace Word

theorem outside_iff_not_inRange (value : Int) :
    (decide (value ≥ 9223372036854775808) ||
      decide (value < -9223372036854775808)) = true ↔ ¬InRange value := by
  have bounds : InRange value ↔
      -9223372036854775808 ≤ value ∧ value ≤ 9223372036854775807 := Iff.rfl
  rw [bounds, Bool.or_eq_true, decide_eq_true_iff, decide_eq_true_iff]
  omega

@[simp] theorem ofInt?_eq_none_iff {value : Int} :
    ofInt? value = none ↔ ¬InRange value := by
  unfold ofInt?
  split
  case isTrue inRange => simp [inRange]
  case isFalse outside => simp [outside]

private theorem exists_toInt_eq {value : Int} (inRange : InRange value) :
    ∃ word : Word, word.toInt = value :=
  ⟨Int64.ofIntLE value inRange.1 inRange.2, Int64.toInt_ofIntLE⟩

theorem checked_eq_ofInt? {overflows : Bool} {wrapped : Word} {value : Int}
    (flagged : overflows = true ↔ ¬InRange value)
    (exact : ¬overflows = true → wrapped.toInt = value) :
    checked overflows wrapped = ofInt? value := by
  cases overflows with
  | true => exact (ofInt?_eq_none_iff.mpr (flagged.mp rfl)).symm
  | false => exact (ofInt?_eq_some_iff.mpr (exact Bool.false_ne_true)).symm

theorem sdivOverflow_iff (a b : Word) :
    a.toBitVec.sdivOverflow b.toBitVec = true ↔
      a = Int64.minValue ∧ b = -1 := by
  rw [BitVec.sdivOverflow_eq, Bool.and_eq_true, Bool.and_eq_true,
    decide_eq_true_iff, decide_eq_true_iff, decide_eq_true_iff]
  constructor
  · rintro ⟨⟨-, least⟩, minusOne⟩
    exact ⟨Int64.toBitVec_inj.mp least, Int64.toBitVec_inj.mp minusOne⟩
  · rintro ⟨rfl, rfl⟩
    decide

private theorem toInt_div_of_not_sdivOverflow {a b : Word}
    (h : ¬a.toBitVec.sdivOverflow b.toBitVec = true) :
    (a / b).toInt = a.toInt.tdiv b.toInt := by
  rw [sdivOverflow_iff, not_and_or] at h
  rcases h with notLeast | notMinusOne
  · exact Int64.toInt_div_of_ne_left a b notLeast
  · exact Int64.toInt_div_of_ne_right a b notMinusOne

theorem sdivOverflow_iff_not_inRange (a b : Word) :
    a.toBitVec.sdivOverflow b.toBitVec = true ↔
      ¬InRange (a.toInt.tdiv b.toInt) := by
  constructor
  · intro overflows
    obtain ⟨rfl, rfl⟩ := (sdivOverflow_iff a b).mp overflows
    decide
  · intro outside
    by_contra fits
    rw [← toInt_div_of_not_sdivOverflow fits] at outside
    exact outside (inRange_toInt (a / b))

theorem quotient?_eq_ofInt? (a b : Word) :
    a.quotient? b = ofInt? (a.toInt.tdiv b.toInt) := by
  unfold quotient?
  split
  case isTrue zero =>
    subst zero
    rw [Int64.toInt_zero, Int.tdiv_zero]
    exact (ofInt?_eq_some_iff.mpr Int64.toInt_zero).symm
  case isFalse =>
    exact checked_eq_ofInt? (sdivOverflow_iff_not_inRange a b)
      toInt_div_of_not_sdivOverflow

private theorem remainder?_eq_ofInt? (a b : Word) :
    a.remainder? b = ofInt? (a.toInt.tmod b.toInt) := by
  symm
  unfold remainder?
  split
  case isTrue zero =>
    subst zero
    exact ofInt?_eq_some_iff.mpr (Int.tmod_zero a.toInt).symm
  case isFalse => exact ofInt?_eq_some_iff.mpr (Int64.toInt_mod a b)

end Word

private theorem ArithOp.onWords?_eq_ofInt? (op : ArithOp) (a b : Word) :
    op.onWords? a b = Word.ofInt? (op.exact a.toInt b.toInt) := by
  cases op with
  | plus =>
      exact Word.checked_eq_ofInt? (Word.outside_iff_not_inRange _)
        BitVec.toInt_add_of_not_saddOverflow
  | minus =>
      exact Word.checked_eq_ofInt? (Word.outside_iff_not_inRange _)
        BitVec.toInt_sub_of_not_ssubOverflow
  | times =>
      exact Word.checked_eq_ofInt? (Word.outside_iff_not_inRange _)
        BitVec.toInt_mul_of_not_smulOverflow
  | divide => exact Word.quotient?_eq_ofInt? a b
  | modulo => exact Word.remainder?_eq_ofInt? a b

/-! ## Division -/

/--
Quotient and remainder of a division that rounds toward zero: the remainder is
smaller than the divisor and does not have the sign opposite to the dividend.
-/
structure TruncatedDivision (dividend divisor quotient remainder : Int) :
    Prop where
  sum : dividend = quotient * divisor + remainder
  small : divisor ≠ 0 → |remainder| < |divisor|
  sign : divisor ≠ 0 → remainder = 0 ∨ remainder.sign = dividend.sign
  byZero : divisor = 0 → quotient = 0 ∧ remainder = dividend

private theorem truncatedDivision_exact (a b : Int) :
    TruncatedDivision a b (ArithOp.divide.exact a b)
      (ArithOp.modulo.exact a b) where
  sum := (Int.tdiv_mul_add_tmod a b).symm
  small nonzero := by
    have small : a.natAbs % b.natAbs < b.natAbs :=
      Nat.mod_lt a.natAbs (Int.natAbs_pos.mpr nonzero)
    rw [ArithOp.exact, Int.abs_eq_natAbs, Int.abs_eq_natAbs, Int.natAbs_tmod]
    exact Int.ofNat_lt.mpr small
  sign _ := by
    rw [ArithOp.exact, Int.sign_tmod]
    split
    case isTrue divides => exact .inl (Int.tmod_eq_zero_of_dvd divides)
    case isFalse => exact .inr rfl
  byZero := by
    rintro rfl
    exact ⟨Int.tdiv_zero a, Int.tmod_zero a⟩

/-! ## Expressions -/

namespace Arith

def subexpressions : Arith → List Arith
  | lit word => [.lit word]
  | var name => [.var name]
  | binary op left right =>
      .binary op left right :: (left.subexpressions ++ right.subexpressions)

variable {env : Name → Word}

@[simp] theorem eval?_binary (env : Name → Word) (op : ArithOp)
    (left right : Arith) :
    (binary op left right).eval? env =
      (left.eval? env).bind fun a =>
        (right.eval? env).bind fun b => op.onWords? a b := by
  rw [eval?]
  cases left.eval? env <;> cases right.eval? env <;> rfl

theorem eval?_binary_eq_some_iff {op : ArithOp} {left right : Arith}
    {word : Word} :
    (binary op left right).eval? env = some word ↔
      ∃ a b, left.eval? env = some a ∧ right.eval? env = some b ∧
        word.toInt = op.exact a.toInt b.toInt := by
  rw [eval?_binary]
  simp only [Option.bind_eq_some_iff, ArithOp.onWords?_eq_ofInt?,
    Word.ofInt?_eq_some_iff]
  constructor
  · rintro ⟨a, inLeft, b, inRight, exact⟩
    exact ⟨a, b, inLeft, inRight, exact⟩
  · rintro ⟨a, b, inLeft, inRight, exact⟩
    exact ⟨a, inLeft, b, inRight, exact⟩

theorem toInt_of_eval? {expr : Arith} {word : Word}
    (h : expr.eval? env = some word) :
    word.toInt = expr.value fun name => (env name).toInt := by
  induction expr generalizing word with
  | lit value =>
      cases h
      rfl
  | var name =>
      cases h
      rfl
  | binary op left right ihLeft ihRight =>
      obtain ⟨a, b, inLeft, inRight, exact⟩ := eval?_binary_eq_some_iff.mp h
      rw [exact, value, ihLeft inLeft, ihRight inRight]

theorem exists_eval?_iff (expr : Arith) (env : Name → Word) :
    (∃ word, expr.eval? env = some word) ↔
      ∀ part ∈ expr.subexpressions,
        Word.InRange (part.value fun name => (env name).toInt) := by
  induction expr with
  | lit word =>
      have inRange := Word.inRange_toInt word
      simpa [eval?, subexpressions, value] using inRange
  | var name =>
      have inRange := Word.inRange_toInt (env name)
      simpa [eval?, subexpressions, value] using inRange
  | binary op left right ihLeft ihRight =>
      rw [subexpressions, List.forall_mem_cons, List.forall_mem_append,
        ← ihLeft, ← ihRight]
      constructor
      · rintro ⟨word, evaluates⟩
        obtain ⟨a, b, inLeft, inRight, -⟩ :=
          eval?_binary_eq_some_iff.mp evaluates
        refine ⟨?_, ⟨a, inLeft⟩, b, inRight⟩
        rw [← toInt_of_eval? evaluates]
        exact Word.inRange_toInt word
      · rintro ⟨inRange, ⟨a, inLeft⟩, b, inRight⟩
        obtain ⟨word, exact⟩ := Word.exists_toInt_eq inRange
        refine ⟨word, eval?_binary_eq_some_iff.mpr
          ⟨a, b, inLeft, inRight, ?_⟩⟩
        rw [exact, value, toInt_of_eval? inLeft, toInt_of_eval? inRight]

/--
An expression has a value in words exactly if every subexpression has a value
that is a word over unbounded integers, and then both values agree.  Division
of words is division rounding toward zero; a quotient is missing only where it
is no word, and a remainder is never missing.
-/
theorem evaluation_exact (expr : Arith) (env : Name → Word) :
    let values : Valuation := fun name => (env name).toInt
    ((∃ word, expr.eval? env = some word) ↔
      ∀ part ∈ expr.subexpressions, Word.InRange (part.value values)) ∧
    (∀ word, expr.eval? env = some word →
      word.toInt = expr.value values) ∧
    ∀ a b : Word,
      let quotient := ArithOp.divide.exact a.toInt b.toInt
      let remainder := ArithOp.modulo.exact a.toInt b.toInt
      TruncatedDivision a.toInt b.toInt quotient remainder ∧
      (∀ word, a.quotient? b = some word ↔ word.toInt = quotient) ∧
      (a.quotient? b = none ↔ ¬Word.InRange quotient) ∧
      ∃ word, a.remainder? b = some word ∧ word.toInt = remainder := by
  refine ⟨exists_eval?_iff expr env, fun word => toInt_of_eval?, ?_⟩
  intro a b quotient remainder
  refine ⟨truncatedDivision_exact a.toInt b.toInt, ?_, ?_, ?_⟩
  · intro word
    rw [Word.quotient?_eq_ofInt?]
    exact Word.ofInt?_eq_some_iff
  · rw [Word.quotient?_eq_ofInt?]
    exact Word.ofInt?_eq_none_iff
  · rw [Word.remainder?_eq_ofInt?]
    exact ⟨a % b, Word.ofInt?_eq_some_iff.mpr (Int64.toInt_mod a b),
      Int64.toInt_mod a b⟩

/--
The least word divided by `-1` is no word, so that no product with it has a
value in words, though zero times it is zero.  The remainder is there.
-/
theorem evaluation_exact_least :
    let least := Arith.lit Int64.minValue
    let product := Arith.binary .times (.lit 0)
      (.binary .divide least (.lit (-1)))
    let remainder := Arith.binary .modulo least (.lit (-1))
    (¬∃ word, product.eval? (fun _ => 0) = some word) ∧
      product.value (fun _ => 0) = 0 ∧
      (∃ word, remainder.eval? (fun _ => 0) = some word ∧ word.toInt = 0) ∧
      Word.quotient? Int64.minValue (-1) = none ∧
      ∃ word, Word.remainder? Int64.minValue (-1) = some word ∧
        word.toInt = 0 := by
  intro least product remainder
  have ofProduct := evaluation_exact product fun _ => 0
  have ofRemainder := evaluation_exact remainder fun _ => 0
  have division := ofProduct.2.2 Int64.minValue (-1)
  refine ⟨?_, by decide, ?_, ?_, ?_⟩
  · rw [ofProduct.1]
    decide
  · obtain ⟨word, evaluates⟩ := ofRemainder.1.mpr (by decide)
    exact ⟨word, evaluates, ofRemainder.2.1 word evaluates⟩
  · exact division.2.2.1.mpr (by decide)
  · exact division.2.2.2

end Arith

end ProofOutline
