import Mathlib.Data.List.Induction
import Mathlib.Data.List.TakeWhile
import Mathlib.Data.Nat.Digits.Defs
import ProofOutline.Attempt
import ProofOutline.Proofs.Endings

/-!
# Attempts are decoded exactly

What stands before the first equals sign of an attempt is the number of a step,
between blanks; all that stands behind it is the text, to the letter.  An
attempt is accepted if and only if it has this form, and whatever is written as
`N=TEXT` is recovered.
-/

namespace ProofOutline

namespace Text

/-! ## Trimming -/

/-- `core` stands between blanks and has none at its own ends. -/
structure TrimsTo (text core : List Char) : Prop where
  ends : core = [] ∨ Solid core
  blanks : ∃ before after : List Char, text = before ++ core ++ after ∧
    (∀ c ∈ before, isBlank c = true) ∧ ∀ c ∈ after, isBlank c = true

private theorem trimsTo_trimChars (text : List Char) :
    TrimsTo text (trimChars text) := by
  have left : text.takeWhile isBlank ++ trimLeft text = text :=
    List.takeWhile_append_dropWhile
  have right : trimChars text ++
      ((trimLeft text).reverse.takeWhile isBlank).reverse = trimLeft text := by
    rw [trimChars, trimRight, ← List.reverse_append,
      List.takeWhile_append_dropWhile, List.reverse_reverse]
  refine ⟨trimChars_eq_nil_or_solid text, text.takeWhile isBlank,
    ((trimLeft text).reverse.takeWhile isBlank).reverse, ?_, ?_, ?_⟩
  · rw [List.append_assoc, right, left]
  · exact fun c => List.mem_takeWhile_imp
  · intro c mem
    exact List.mem_takeWhile_imp (List.mem_reverse.mp mem)

private theorem TrimsTo.trimChars_eq {text core : List Char}
    (h : TrimsTo text core) : trimChars text = core := by
  obtain ⟨before, after, rfl, blankBefore, blankAfter⟩ := h.blanks
  have core_eq : trimChars core = core := by
    rcases h.ends with rfl | solid
    · rfl
    · exact solid.trimChars
  rw [trimChars_append (List.all_eq_true.mpr blankAfter), trimChars, trimLeft,
    List.dropWhile_append_of_pos blankBefore]
  exact core_eq

theorem trimChars_eq_iff {text core : List Char} :
    trimChars text = core ↔ TrimsTo text core :=
  ⟨fun h => h ▸ trimsTo_trimChars text, TrimsTo.trimChars_eq⟩

/-! ## Decimal notation -/

/-- An optional plus sign and digits, the highest place first. -/
def WritesNatural (text : List Char) (value : Nat) : Prop :=
  ∃ digits : List Char, (text = digits ∨ text = '+' :: digits) ∧
    digits ≠ [] ∧ (∀ c ∈ digits, c.isDigit = true) ∧
    Nat.ofDigits 10 (digits.map digitValue).reverse = value

private theorem digitsValue_eq_ofDigits (digits : List Char) :
    digitsValue digits = Nat.ofDigits 10 (digits.map digitValue).reverse := by
  induction digits using List.reverseRecOn with
  | nil => rfl
  | append_singleton front last ih =>
      have value : digitsValue (front ++ [last]) =
          10 * digitsValue front + digitValue last := by
        simp [digitsValue]
      rw [value, ih, List.map_append, List.reverse_append, List.map_singleton,
        List.reverse_singleton, List.singleton_append, Nat.ofDigits_cons,
        Nat.add_comm]

theorem readDigits?_eq_some_iff {text : List Char} {value : Nat} :
    readDigits? text = some value ↔
      text ≠ [] ∧ (∀ c ∈ text, c.isDigit = true) ∧
        Nat.ofDigits 10 (text.map digitValue).reverse = value := by
  rw [readDigits?, digitsValue_eq_ofDigits]
  simp [and_assoc]

private theorem readNatural?_digits {text : List Char}
    (all : ∀ c ∈ text, c.isDigit = true) :
    readNatural? text = readDigits? text := by
  unfold readNatural?
  split
  case h_1 digits => exact absurd (all '+' List.mem_cons_self) (by decide)
  case h_2 => rfl

theorem readNatural?_eq_some_iff {text : List Char} {value : Nat} :
    readNatural? text = some value ↔ WritesNatural text value := by
  have noPlus (digits : List Char) (all : ∀ c ∈ digits, c.isDigit = true) :
      '+' ∉ digits := fun mem => absurd (all _ mem) (by decide)
  unfold readNatural?
  split
  case h_1 digits =>
    rw [readDigits?_eq_some_iff]
    constructor
    · intro h
      exact ⟨digits, .inr rfl, h⟩
    · rintro ⟨digits', rfl | same, h⟩
      · exact absurd List.mem_cons_self (noPlus _ h.2.1)
      · cases same
        exact h
  case h_2 signless =>
    rw [readDigits?_eq_some_iff]
    constructor
    · intro h
      exact ⟨text, .inl rfl, h⟩
    · rintro ⟨digits', rfl | same, h⟩
      · exact h
      · exact absurd same (signless digits')

private theorem isBlank_of_isDigit {c : Char} (h : c.isDigit = true) :
    isBlank c = false := by
  have range : 48 ≤ c.toNat ∧ c.toNat ≤ 57 := Char.isDigit_iff_toNat.mp h
  simp only [isBlank, Bool.or_eq_false_iff, Bool.and_eq_false_iff,
    decide_eq_false_iff_not, beq_eq_false_iff_ne]
  omega

private theorem solid_of_all {text : List Char} (nonempty : text ≠ [])
    (all : ∀ c ∈ text, isBlank c = false) : Solid text where
  first := by
    obtain ⟨c, rest, rfl⟩ := List.exists_cons_of_ne_nil nonempty
    exact ⟨c, rest, all c List.mem_cons_self, rfl⟩
  last := ⟨text.dropLast, text.getLast nonempty,
    all _ (List.getLast_mem nonempty), (List.dropLast_concat_getLast _).symm⟩

end Text

namespace Attempt

open Text

/-! ## The first equals sign -/

private theorem takeWhile_of_not_mem {number : List Char} (h : '=' ∉ number)
    (rest : List Char) :
    (number ++ '=' :: rest).takeWhile (· ≠ '=') = number ∧
      (number ++ '=' :: rest).dropWhile (· ≠ '=') = '=' :: rest := by
  have others : ∀ c ∈ number, decide (c ≠ '=') = true := by
    intro c mem
    exact decide_eq_true fun same => h (same ▸ mem)
  rw [List.takeWhile_append_of_pos others, List.dropWhile_append_of_pos others]
  simp

private theorem read_of_no_equals {raw : String} (h : '=' ∉ raw.toList) :
    read raw = .error (.noNumber raw) := by
  have all : raw.toList.dropWhile (· ≠ '=') = [] := by
    rw [List.dropWhile_eq_nil_iff]
    intro c mem
    exact decide_eq_true fun same => h (same ▸ mem)
  rw [read, all]

private theorem read_append {number text : String} (h : '=' ∉ number.toList) :
    read (number ++ "=" ++ text) =
      match readNatural? (trimChars number.toList) with
      | some value =>
          if maxStep < value then .error (.notANumber (trim number))
          else if value = 0 then .error .zero
          else .ok (value - 1, text)
      | none => .error (.notANumber (trim number)) := by
  have chars : (number ++ "=" ++ text).toList =
      number.toList ++ '=' :: text.toList := by simp
  obtain ⟨taken, dropped⟩ := takeWhile_of_not_mem h text.toList
  rw [read, chars, taken, dropped]
  simp only [String.ofList_toList]
  rfl

private theorem exists_split {raw : String} (h : '=' ∈ raw.toList) :
    ∃ number text : String, raw = number ++ "=" ++ text ∧
      '=' ∉ number.toList := by
  obtain ⟨number, text, chars, first⟩ := List.eq_append_cons_of_mem h
  refine ⟨String.ofList number, String.ofList text, ?_, by simpa using first⟩
  rw [← String.toList_inj, chars]
  simp

/-! ## Reading -/

private theorem read_eq_ok_iff {raw text : String} {index : Nat} :
    read raw = .ok (index, text) ↔
      ∃ number : String, raw = number ++ "=" ++ text ∧
        '=' ∉ number.toList ∧
        readNatural? (trimChars number.toList) = some (index + 1) ∧
        index + 1 ≤ maxStep := by
  constructor
  · intro done
    by_cases mem : '=' ∈ raw.toList
    · obtain ⟨number, after, rfl, first⟩ := exists_split mem
      rw [read_append first] at done
      split at done
      case h_1 value isNumber =>
        split at done
        · cases done
        · split at done
          · cases done
          · cases done
            refine ⟨number, rfl, first, ?_, ?_⟩
            · rw [isNumber]
              congr 1
              omega
            · omega
      case h_2 => cases done
    · rw [read_of_no_equals mem] at done
      cases done
  · rintro ⟨number, rfl, first, isNumber, fits⟩
    rw [read_append first, isNumber]
    simp only
    rw [if_neg (by omega), if_neg (by omega), Nat.add_sub_cancel]

private theorem read_numbered {index : Nat} (text : String)
    (fits : index + 1 ≤ maxStep) :
    read (toString (index + 1) ++ "=" ++ text) = .ok (index, text) := by
  have digits : (toString (index + 1)).toList = Nat.toDigits 10 (index + 1) :=
    Nat.toList_repr
  have isDigit : ∀ c ∈ Nat.toDigits 10 (index + 1), c.isDigit = true :=
    fun _ => Nat.isDigit_of_mem_toDigits (by decide) (by decide)
  have solid : Solid (Nat.toDigits 10 (index + 1)) :=
    solid_of_all Nat.toDigits_ne_nil fun c mem =>
      isBlank_of_isDigit (isDigit c mem)
  refine read_eq_ok_iff.mpr ⟨toString (index + 1), rfl, ?_, ?_, fits⟩
  · rw [digits]
    exact fun mem => absurd (isDigit _ mem) (by decide)
  · rw [digits, solid.trimChars, readNatural?_digits isDigit,
      readDigits?_toDigits]

/--
An attempt is accepted if and only if the number of a step, from one up to the
greatest machine word, stands before its first equals sign; the text behind it
is kept as it is.  So every step that can be numbered, and every text, is
recovered from `N=TEXT`.
-/
theorem reading_exact :
    (∀ (raw : String) (index : Nat) (text : String),
      read raw = .ok (index, text) ↔
        ∃ (number : String) (numeral : List Char),
          raw = number ++ "=" ++ text ∧ '=' ∉ number.toList ∧
          TrimsTo number.toList numeral ∧
          WritesNatural numeral (index + 1) ∧ index + 1 ≤ 2 ^ 64 - 1) ∧
    ∀ (index : Nat) (text : String), index < 2 ^ 64 - 1 →
      read (toString (index + 1) ++ "=" ++ text) = .ok (index, text) := by
  have bound : maxStep = 2 ^ 64 - 1 := rfl
  constructor
  · intro raw index text
    rw [read_eq_ok_iff, bound]
    constructor
    · rintro ⟨number, split, first, isNumber, fits⟩
      exact ⟨number, trimChars number.toList, split, first,
        trimChars_eq_iff.mp rfl, readNatural?_eq_some_iff.mp isNumber, fits⟩
    · rintro ⟨number, numeral, split, first, trims, written, fits⟩
      rw [← trimChars_eq_iff.mpr trims] at written
      exact ⟨number, split, first, readNatural?_eq_some_iff.mpr written, fits⟩
  · intro index text below
    exact read_numbered text (by omega)

/--
Blanks, a plus sign and leading zeros are no obstacle, nor is a second equals
sign; and the last step of all is numbered by the greatest machine word.
-/
theorem reading_exact_padded :
    read " +007\u3000=x = 1 " = .ok (6, "x = 1 ") ∧
      18446744073709551614 < 2 ^ 64 - 1 ∧
      read (toString (18446744073709551614 + 1) ++ "=" ++ "= \n") =
        .ok (18446744073709551614, "= \n") := by
  have below : 18446744073709551614 < 2 ^ 64 - 1 := by decide
  have padded : TrimsTo " +007\u3000".toList ['+', '0', '0', '7'] :=
    ⟨.inr ⟨⟨'+', _, rfl, rfl⟩, ⟨['+', '0', '0'], '7', rfl, rfl⟩⟩,
      [' '], ['\u3000'], rfl, List.all_eq_true.mp rfl,
      List.all_eq_true.mp rfl⟩
  have seven : WritesNatural ['+', '0', '0', '7'] (6 + 1) :=
    ⟨['0', '0', '7'], .inr rfl, by simp, List.all_eq_true.mp rfl, rfl⟩
  refine ⟨(reading_exact.1 _ _ _).mpr ?_, below, reading_exact.2 _ _ below⟩
  exact ⟨" +007\u3000", ['+', '0', '0', '7'], by decide, by decide, padded,
    seven, by decide⟩

end Attempt

end ProofOutline
