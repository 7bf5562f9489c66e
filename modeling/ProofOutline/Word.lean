/-!
# Machine integers

Program values are signed 64-bit words.  Exact integers are brought back into
words by `ofInt?`, which refuses those out of range.  Operations on words wrap
around, and `checked` refuses what they give on an overflow.
-/

namespace ProofOutline

abbrev Word := Int64

namespace Word

def InRange (value : Int) : Prop :=
  Int64.minValue.toInt ≤ value ∧ value ≤ Int64.maxValue.toInt

instance (value : Int) : Decidable (InRange value) :=
  inferInstanceAs (Decidable (_ ∧ _))

def ofInt? (value : Int) : Option Word :=
  if h : InRange value then some (Int64.ofIntLE value h.1 h.2) else none

theorem inRange_toInt (word : Word) : InRange word.toInt :=
  ⟨word.minValue_le_toInt, word.toInt_le⟩

@[simp] theorem ofInt?_eq_some_iff {value : Int} {word : Word} :
    ofInt? value = some word ↔ word.toInt = value := by
  unfold ofInt?
  constructor
  · intro h
    split at h
    · cases h
      exact Int64.toInt_ofIntLE
    · contradiction
  · rintro rfl
    rw [dif_pos (inRange_toInt word)]
    exact congrArg some (Int64.toInt_inj.mp Int64.toInt_ofIntLE)

def checked (overflows : Bool) (wrapped : Word) : Option Word :=
  if overflows then none else some wrapped

/-- Division rounding toward zero, with `x / 0 = 0`. -/
def quotient? (dividend divisor : Word) : Option Word :=
  if divisor = 0 then some 0
  else
    checked (dividend.toBitVec.sdivOverflow divisor.toBitVec)
      (dividend / divisor)

/--
The remainder that goes with `quotient?`, with `x % 0 = x`.  It is in range
even where the quotient is not.
-/
def remainder? (dividend divisor : Word) : Option Word :=
  if divisor = 0 then some dividend else some (dividend % divisor)

def render (word : Word) : String := toString word.toInt

end Word

end ProofOutline
