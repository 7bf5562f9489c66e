import Mathlib.Data.List.Nodup
import ProofOutline.Proofs.Readable
import ProofOutline.Proofs.Writing
import ProofOutline.SmtLib

/-!
# Scripts mean what formulas mean

The text of an expression is read as a term that has the value of the
expression, whatever the language chooses for division by zero, and the text of
a formula as a term that is true if the formula is.  For this, no variable and
no predicate may have a name that the language uses itself, and no variable may
also be a predicate symbol without arguments.  A script is read as one
declaration of every variable and of every predicate symbol of the formula, the
assertion, and nothing besides.
-/

namespace ProofOutline

/-! ## Truncating division by Euclidean division -/

private theorem tdiv_eq_cases {a b : Int} (nonzero : b ≠ 0) :
    a.tdiv b =
      if a % b = 0 ∨ 0 ≤ a then a / b
      else if 0 ≤ b then a / b + 1
      else a / b - 1 := by
  rw [Int.tdiv_eq_ediv]
  by_cases whole : a % b = 0 ∨ 0 ≤ a
  · have noCorrection : 0 ≤ a ∨ b ∣ a :=
      whole.symm.imp_right Int.dvd_of_emod_eq_zero
    rw [if_pos whole, if_pos noCorrection, Int.add_zero]
  · have correction : ¬ (0 ≤ a ∨ b ∣ a) :=
      mt (fun h => h.symm.imp_left Int.emod_eq_zero_of_dvd) whole
    rw [if_neg whole, if_neg correction]
    by_cases positive : 0 ≤ b
    · rw [if_pos positive, Int.sign_eq_one_of_pos (by omega)]
    · rw [if_neg positive, Int.sign_eq_neg_one_of_neg (by omega),
        Int.sub_eq_add_neg]

/-! ## Terms of expressions and formulas -/

namespace SmtLib

namespace SExpr

def application (symbol : String) (args : List SExpr) : SExpr :=
  .list (.atom symbol :: args)

def numeral (value : Nat) : SExpr := .atom (toString value)

def truncDiv (left right : SExpr) : SExpr :=
  let quotient := application "div" [left, right]
  application "ite" [application "=" [right, .atom "0"], .atom "0",
    application "ite"
      [application "or"
        [application "=" [application "mod" [left, right], .atom "0"],
          application ">=" [left, .atom "0"]],
      quotient,
      application "ite" [application ">=" [right, .atom "0"],
        application "+" [quotient, .atom "1"],
        application "-" [quotient, .atom "1"]]]]

def truncMod (left right : SExpr) : SExpr :=
  application "ite" [application "=" [right, .atom "0"], left,
    application "-"
      [left, application "*" [truncDiv left right, right]]]

end SExpr

end SmtLib

open SmtLib SmtLib.SExpr

def Word.term (word : Word) : SExpr :=
  if word.toInt < 0 then application "-" [numeral word.toInt.natAbs]
  else numeral word.toInt.natAbs

def Arith.term : Arith → SExpr
  | lit word => word.term
  | var name => .atom name.text
  | binary .plus left right => application "+" [left.term, right.term]
  | binary .minus left right => application "-" [left.term, right.term]
  | binary .times left right => application "*" [left.term, right.term]
  | binary .divide left right => SExpr.truncDiv left.term right.term
  | binary .modulo left right => SExpr.truncMod left.term right.term

def CompareOp.term (left right : SExpr) : CompareOp → SExpr
  | eq => application "=" [left, right]
  | ne => application "not" [application "=" [left, right]]
  | lt => application "<" [left, right]
  | le => application "<=" [left, right]
  | gt => application ">" [left, right]
  | ge => application ">=" [left, right]

def Formula.term : Formula → SExpr
  | truth value => .atom (toString value)
  | predicate name [] => .atom name.text
  | predicate name args => application name.text (args.map Arith.term)
  | neg body => application "not" [body.term]
  | connect op left right => application op.smtSymbol [left.term, right.term]
  | compare op left right => op.term left.term right.term

/-! ## Their texts -/

private theorem isWord_of_forall {text : String} (nonempty : text.toList ≠ [])
    (all : ∀ c ∈ text.toList, isNamePart c = true) : IsWord text := by
  refine ⟨nonempty, List.all_eq_true.mpr fun c mem => ?_⟩
  cases isChar : isWordChar c with
  | true => rfl
  | false =>
      have part := all c mem
      simp only [isWordChar, Lexeme.isBlank, Bool.and_eq_false_iff,
        bne_eq_false_iff_eq, Bool.not_eq_false', Bool.or_eq_true, beq_iff_eq]
        at isChar
      rcases isChar with (rfl | rfl) | ((rfl | rfl) | rfl) | rfl <;> cases part

private theorem isNamePart_of_isNameStart {c : Char}
    (h : isNameStart c = true) :
    isNamePart c = true := by
  rcases (Bool.or_eq_true _ _).mp h with letter | underscore
  · simp [isNamePart, Char.isAlphanum, letter]
  · simp [isNamePart, underscore]

theorem Name.exists_chars (name : Name) :
    ∃ c rest, name.text.toList = c :: rest ∧ isNameStart c = true ∧
      ∀ c ∈ rest, isNamePart c = true := by
  have valid := name.valid
  cases text : name.text.toList with
  | nil =>
      rw [text] at valid
      cases valid
  | cons c rest =>
      rw [text, isNameText, Bool.and_eq_true, List.all_eq_true] at valid
      exact ⟨c, rest, rfl, valid⟩

private theorem Name.eq_of_text {first second : Name}
    (same : first.text = second.text) : first = second := by
  cases first
  cases second
  cases same
  rfl

@[simp] theorem Name.ofString?_text (name : Name) :
    Name.ofString? name.text = some name :=
  dif_pos name.valid

theorem Name.isWord_text (name : Name) : IsWord name.text := by
  obtain ⟨c, rest, text, start, others⟩ := name.exists_chars
  refine isWord_of_forall (by simp [text]) ?_
  rw [text, List.forall_mem_cons]
  exact ⟨isNamePart_of_isNameStart start, others⟩

theorem toString_string (text : String) : toString text = text := rfl

namespace SmtLib

open SExpr

@[simp] theorem toList_numeral (value : Nat) :
    (toString value).toList = Nat.toDigits 10 value :=
  Nat.toList_repr

private theorem isDigit_of_mem_numeral {value : Nat} {c : Char}
    (mem : c ∈ Nat.toDigits 10 value) : c.isDigit = true :=
  Nat.isDigit_of_mem_toDigits (by decide) (by decide) mem

private theorem isWord_numeral (value : Nat) : IsWord (toString value) := by
  rw [← toString_string (toString value)]
  refine isWord_of_forall ?_ fun c mem => ?_
  · rw [toString_string, toList_numeral]
    exact Nat.toDigits_ne_nil
  · rw [toString_string, toList_numeral] at mem
    simp [isNamePart, Char.isAlphanum, isDigit_of_mem_numeral mem]

theorem spells_word {text : String} (isWord : IsWord text) :
    Spells text (.atom text) :=
  ⟨by rw [chars], isWord⟩

private theorem spells_unary {opening symbol text : String} {expr : SExpr}
    (opened : opening = "(" ++ symbol ++ " ") (isWord : IsWord symbol)
    (spells : Spells text expr) :
    Spells (opening ++ text ++ ")") (application symbol [expr]) where
  chars := by
    simp [opened, application, SExpr.chars, charsAfter, spells.chars]
  worded := ⟨isWord, spells.worded, trivial⟩

section Binary

variable {left right : String} {first second : SExpr}

theorem spells_binary {opening symbol : String}
    (opened : opening = "(" ++ symbol ++ " ") (isWord : IsWord symbol)
    (hleft : Spells left first) (hright : Spells right second) :
    Spells (opening ++ left ++ " " ++ right ++ ")")
      (application symbol [first, second]) where
  chars := by
    simp [opened, application, SExpr.chars, charsAfter, hleft.chars,
      hright.chars]
  worded := ⟨isWord, hleft.worded, hright.worded, trivial⟩

private theorem spells_ne (hleft : Spells left first)
    (hright : Spells right second) :
    Spells (CompareOp.ne.toSmtLib left right)
      (CompareOp.ne.term first second) where
  chars := by
    unfold CompareOp.toSmtLib
    simp only [toString_string, String.toList_append, hleft.chars,
      hright.chars, CompareOp.term, application, SExpr.chars, charsAfter,
      List.append_assoc, List.cons_append, List.nil_append]
    rfl
  worded := by
    have words : IsWord "not" ∧ IsWord "=" := by decide
    simp [CompareOp.term, application, Worded, AllWorded, hleft.worded,
      hright.worded, words]

theorem spells_truncDiv (hleft : Spells left first)
    (hright : Spells right second) :
    Spells (truncDiv left right) (SExpr.truncDiv first second) where
  chars := by
    unfold truncDiv
    simp only [toString_string, String.toList_append, hleft.chars,
      hright.chars, SExpr.truncDiv, application, SExpr.chars, charsAfter,
      List.append_assoc, List.cons_append, List.nil_append]
    rfl
  worded := by
    have words : IsWord "ite" ∧ IsWord "=" ∧ IsWord "0" ∧ IsWord "or" ∧
        IsWord "mod" ∧ IsWord ">=" ∧ IsWord "div" ∧ IsWord "+" ∧
        IsWord "1" ∧ IsWord "-" := by
      decide
    simp [SExpr.truncDiv, application, Worded, AllWorded, hleft.worded,
      hright.worded, words]

private theorem spells_truncMod (hleft : Spells left first)
    (hright : Spells right second) :
    Spells (truncMod left right) (SExpr.truncMod first second) where
  chars := by
    unfold truncMod
    simp only [toString_string, String.toList_append, hleft.chars,
      hright.chars, (spells_truncDiv hleft hright).chars, SExpr.truncMod,
      application, SExpr.chars, charsAfter, List.append_assoc,
      List.cons_append, List.nil_append]
    rfl
  worded := by
    have words : IsWord "ite" ∧ IsWord "=" ∧ IsWord "0" ∧ IsWord "-" ∧
        IsWord "*" := by
      decide
    simp [SExpr.truncMod, application, Worded, AllWorded, hleft.worded,
      hright.worded, (spells_truncDiv hleft hright).worded, words]

end Binary

end SmtLib

theorem Word.spells (word : Word) : Spells word.toSmtLib word.term := by
  unfold Word.toSmtLib Word.term
  split
  · exact spells_unary rfl (by decide) (spells_word (isWord_numeral _))
  · have same : toString word.toInt = toString word.toInt.natAbs := by
      obtain ⟨value, eq⟩ := Int.eq_ofNat_of_zero_le (by omega : 0 ≤ word.toInt)
      rw [eq]
      rfl
    rw [same]
    exact spells_word (isWord_numeral _)

theorem Arith.spells (expr : Arith) : Spells expr.toSmtLib expr.term := by
  induction expr with
  | lit word => exact word.spells
  | var name => exact spells_word name.isWord_text
  | binary op left right hleft hright =>
      cases op with
      | plus => exact spells_binary rfl (by decide) hleft hright
      | minus => exact spells_binary rfl (by decide) hleft hright
      | times => exact spells_binary rfl (by decide) hleft hright
      | divide => exact spells_truncDiv hleft hright
      | modulo => exact spells_truncMod hleft hright

theorem CompareOp.spells (op : CompareOp) {left right : String}
    {first second : SExpr} (hleft : Spells left first)
    (hright : Spells right second) :
    Spells (op.toSmtLib left right) (op.term first second) := by
  cases op with
  | eq => exact spells_binary rfl (by decide) hleft hright
  | ne => exact spells_ne hleft hright
  | lt => exact spells_binary rfl (by decide) hleft hright
  | le => exact spells_binary rfl (by decide) hleft hright
  | gt => exact spells_binary rfl (by decide) hleft hright
  | ge => exact spells_binary rfl (by decide) hleft hright

private theorem allWorded_terms (args : List Arith) :
    AllWorded (args.map Arith.term) := by
  induction args with
  | nil => trivial
  | cons arg args ih => exact ⟨arg.spells.worded, ih⟩

private theorem charsAfter_terms (args : List Arith) :
    charsAfter (args.map Arith.term) =
      (args.map Arith.toSmtLib).flatMap (' ' :: ·.toList) := by
  induction args with
  | nil => rfl
  | cons arg args ih => simp [charsAfter, arg.spells.chars, ih]

theorem Formula.spells (formula : Formula) :
    Spells formula.toSmtLib formula.term := by
  induction formula with
  | truth value => cases value <;> exact spells_word (by decide)
  | predicate name args =>
      cases args with
      | nil => exact spells_word name.isWord_text
      | cons arg args =>
          refine ⟨?_, name.isWord_text, allWorded_terms (arg :: args)⟩
          simp only [toSmtLib, toString_string, String.toList_append,
            List.map_cons, toList_intercalate, term, application, chars,
            charsAfter, charsAfter_terms, arg.spells.chars,
            List.append_assoc, List.cons_append]
          rfl
  | neg body ih => exact spells_unary rfl (by decide) ih
  | connect op left right hleft hright =>
      have isWord : IsWord op.smtSymbol := by cases op <;> decide
      exact spells_binary rfl isWord hleft hright
  | compare op left right => exact op.spells left.spells right.spells

/-! ## Values -/

namespace SmtLib

private theorem head_toDigits_ne (value : Nat) (positive : 0 < value) :
    (Nat.toDigits 10 value).head? ≠ some '0' := by
  induction value using Nat.strongRecOn with
  | ind value ih =>
      rw [Nat.toDigits_eq_if (by decide)]
      split
      · have digits : ∀ digit < 10, 0 < digit →
            [Nat.digitChar digit].head? ≠ some '0' := by
          decide
        exact digits value ‹_› positive
      · rw [List.head?_append_of_ne_nil _ Nat.toDigits_ne_nil]
        exact ih (value / 10) (by omega) (by omega)

@[simp] theorem numeral?_toString (value : Nat) :
    numeral? (toString value) = some value := by
  have digits : (Nat.toDigits 10 value).all Char.isDigit = true :=
    List.all_eq_true.mpr fun c mem => isDigit_of_mem_numeral mem
  have start : (Nat.toDigits 10 value == ['0'] ||
      (Nat.toDigits 10 value).head? != some '0') = true := by
    rcases Nat.eq_zero_or_pos value with rfl | positive
    · rfl
    · simp [head_toDigits_ne value positive]
  have same : Nat.ofDigitChars 10 (Nat.toDigits 10 value) 0 = value :=
    Nat.ofDigitChars_toDigits (by decide) (by decide)
  simp only [numeral?, toList_numeral, digits, start, same]
  simp [Nat.toDigits_ne_nil]

section Values

variable {signature : Signature} {model : Structure}

@[simp] theorem value_numeral (value : Nat) :
    (numeral value).value signature model = some (.int value) := by
  rw [numeral, SExpr.value, numeral?_toString]

@[simp] theorem value_zero :
    (SExpr.atom "0").value signature model = some (.int 0) :=
  value_numeral 0

@[simp] theorem value_one :
    (SExpr.atom "1").value signature model = some (.int 1) :=
  value_numeral 1

section Operators

variable {symbol : String} (operator : Operator)
  (known : operators.lookup symbol = some operator) {a b c : SExpr}
  {x y z : Value}
include known

theorem value_unary (ha : a.value signature model = some x) :
    (application symbol [a]).value signature model =
      operator.apply model [x] := by
  simp [application, SExpr.value, values, applied, known, ha]

theorem value_binary (ha : a.value signature model = some x)
    (hb : b.value signature model = some y) :
    (application symbol [a, b]).value signature model =
      operator.apply model [x, y] := by
  simp [application, SExpr.value, values, applied, known, ha, hb]

end Operators

variable {left right : SExpr} {a b : Int}

theorem value_equal (hleft : left.value signature model = some (.int a))
    (hright : right.value signature model = some (.int b)) :
    (application "=" [left, right]).value signature model =
      some (.bool (a == b)) := by
  have known : operators.lookup "=" = some .equal := rfl
  have same : (Value.int a == Value.int b) = (a == b) := by
    rw [Bool.eq_iff_iff, beq_iff_eq, beq_iff_eq, Value.int.injEq]
  rw [value_binary .equal known hleft hright, ← same]
  rfl

theorem value_ite {condition : Bool} {test : SExpr}
    (htest : test.value signature model = some (.bool condition))
    (hleft : left.value signature model = some (.int a))
    (hright : right.value signature model = some (.int b)) :
    (application "ite" [test, left, right]).value signature model =
      some (.int (if condition then a else b)) := by
  simp only [application, SExpr.value, values, htest, hleft, hright]
  cases condition <;> rfl

/-- The divisor is compared with zero before anything is divided by it. -/
theorem value_truncDiv (hleft : left.value signature model = some (.int a))
    (hright : right.value signature model = some (.int b)) :
    (SExpr.truncDiv left right).value signature model =
      some (.int (a.tdiv b)) := by
  have quotient : (application "div" [left, right]).value signature model =
      some (.int (model.div a b)) :=
    value_binary .div rfl hleft hright
  have rest : (application "mod" [left, right]).value signature model =
      some (.int (model.mod a b)) :=
    value_binary .mod rfl hleft hright
  have dividend : (application ">=" [left, .atom "0"]).value signature model =
      some (.bool (decide (a ≥ 0))) :=
    value_binary .atLeast rfl hleft value_zero
  have divisor : (application ">=" [right, .atom "0"]).value signature model =
      some (.bool (decide (b ≥ 0))) :=
    value_binary .atLeast rfl hright value_zero
  have exact : (application "or"
      [application "=" [application "mod" [left, right], .atom "0"],
        application ">=" [left, .atom "0"]]).value signature model =
      some (.bool (model.mod a b == 0 || decide (a ≥ 0))) :=
    value_binary .or rfl (value_equal rest value_zero) dividend
  have above : (application "+" [application "div" [left, right],
      .atom "1"]).value signature model = some (.int (model.div a b + 1)) :=
    value_binary .plus rfl quotient value_one
  have below : (application "-" [application "div" [left, right],
      .atom "1"]).value signature model = some (.int (model.div a b - 1)) :=
    value_binary .minus rfl quotient value_one
  rw [SExpr.truncDiv, value_ite (value_equal hright value_zero) value_zero
    (value_ite exact quotient (value_ite divisor above below))]
  by_cases zero : b = 0
  · simp [zero]
  · have quotients : model.div a b = a / b := if_neg zero
    have rests : model.mod a b = a % b := if_neg zero
    simp [zero, tdiv_eq_cases zero, quotients, rests]

private theorem value_truncMod
    (hleft : left.value signature model = some (.int a))
    (hright : right.value signature model = some (.int b)) :
    (SExpr.truncMod left right).value signature model =
      some (.int (a.tmod b)) := by
  have product : (application "*" [SExpr.truncDiv left right,
      right]).value signature model = some (.int (a.tdiv b * b)) :=
    value_binary .times rfl (value_truncDiv hleft hright) hright
  have difference : (application "-" [left,
      application "*" [SExpr.truncDiv left right, right]]).value signature
        model = some (.int (a - a.tdiv b * b)) :=
    value_binary .minus rfl hleft product
  rw [SExpr.truncMod, value_ite (value_equal hright value_zero) hleft
    difference]
  by_cases zero : b = 0
  · simp [zero]
  · rw [Int.tmod_def, Int.mul_comm]
    simp [zero]

/-! ### Names -/

@[simp] theorem numeral?_name (name : Name) : numeral? name.text = none := by
  obtain ⟨c, rest, text, start, -⟩ := name.exists_chars
  have noDigit : c.isDigit = false := not_isDigit_of_isNameStart start
  simp [numeral?, text, noDigit]

@[simp] theorem isSymbol_name (name : Name) : isSymbol name.text = true := by
  obtain ⟨c, rest, text, start, others⟩ := name.exists_chars
  have part (c : Char) (h : isNamePart c = true) : isSymbolChar c = true := by
    rcases (Bool.or_eq_true _ _).mp h with letter | underscore
    · simp [isSymbolChar, letter]
    · cases beq_iff_eq.mp underscore
      rfl
  have all : (c :: rest).all isSymbolChar = true :=
    List.all_eq_true.mpr (List.forall_mem_cons.mpr
      ⟨part c (isNamePart_of_isNameStart start), fun d mem =>
        part d (others d mem)⟩)
  simp [isSymbol, text, all, not_isDigit_of_isNameStart start]

/-- The symbol is declared as a constant and means nothing else. -/
structure Signature.IsConstant (signature : Signature) (text : String) :
    Prop where
  free : ¬ Fixed text
  declared : text ∈ signature.constants
  unambiguous : (text, 0) ∉ signature.predicates

structure Signature.IsPredicate (signature : Signature) (text : String)
    (arity : Nat) : Prop where
  free : ¬ Fixed text
  declared : (text, arity) ∈ signature.predicates
  unambiguous : arity = 0 → text ∉ signature.constants

private theorem applied_name {name : Name} (free : ¬ Fixed name.text)
    (args : List Value) :
    applied signature model name.text args =
      signature.apply model name.text args := by
  have unknown : operators.lookup name.text = none :=
    Option.not_isSome_iff_eq_none.mp (mt Or.inr free)
  have notReserved : name.text ∉ reservedWords := mt Or.inl free
  simp [applied, unknown, notReserved]

private theorem value_constant {name : Name}
    (constant : signature.IsConstant name.text) :
    (SExpr.atom name.text).value signature model =
      some (.int (model.constants name.text)) := by
  rw [SExpr.value, numeral?_name, applied_name constant.free]
  simp [Signature.apply, constant.declared, constant.unambiguous]

@[simp] theorem ints?_map_int (values : List Int) :
    Value.ints? (values.map .int) = some values := by
  induction values with
  | nil => rfl
  | cons first values ih =>
      rw [Value.ints?] at ih
      simp [Value.ints?, Value.int?, ih]

private theorem apply_predicate {text : String} {args : List Int}
    (predicate : signature.IsPredicate text args.length) :
    signature.apply model text (args.map .int) =
      some (.bool (model.predicates text args)) := by
  have notConstant :
      ((args.map Value.int).isEmpty && signature.constants.contains text) =
        false := by
    cases args with
    | nil => simp [predicate.unambiguous rfl]
    | cons arg args => rfl
  have isPredicate : signature.predicates.contains
      (text, (args.map Value.int).length) = true := by
    simp [predicate.declared]
  simp only [Signature.apply, notConstant, isPredicate, ints?_map_int,
    Option.map_some]

end Values

section Meaning

variable (signature : Signature) (valuation : Valuation)
  (interpretation : Interpretation) (divZero modZero : Int → Int)

@[simp] theorem value_word (word : Word) (model : Structure) :
    word.term.value signature model = some (.int word.toInt) := by
  unfold Word.term
  split
  · rw [value_unary .minus rfl (value_numeral _)]
    have negated : -(word.toInt.natAbs : Int) = word.toInt := by omega
    exact congrArg (some ∘ Value.int) negated
  · have same : (word.toInt.natAbs : Int) = word.toInt := by omega
    rw [value_numeral, same]

theorem value_arith {expr : Arith}
    (constants : ∀ name ∈ expr.occurrences, signature.IsConstant name.text) :
    expr.term.value signature
        (.ofNames valuation interpretation divZero modZero) =
      some (.int (expr.value valuation)) := by
  induction expr with
  | lit word => exact value_word signature word _
  | var name =>
      rw [Arith.term, value_constant (constants name List.mem_cons_self)]
      simp [Structure.ofNames, Arith.value]
  | binary op left right ihLeft ihRight =>
      have hleft := ihLeft fun name mem =>
        constants name (List.mem_append_left _ mem)
      have hright := ihRight fun name mem =>
        constants name (List.mem_append_right _ mem)
      rw [Arith.value]
      cases op with
      | plus => exact value_binary .plus rfl hleft hright
      | minus => exact value_binary .minus rfl hleft hright
      | times => exact value_binary .times rfl hleft hright
      | divide => exact value_truncDiv hleft hright
      | modulo => exact value_truncMod hleft hright

private theorem values_arith {args : List Arith}
    (constants : ∀ name ∈ args.flatMap Arith.occurrences,
      signature.IsConstant name.text) :
    values signature (.ofNames valuation interpretation divZero modZero)
        (args.map Arith.term) =
      some ((args.map (·.value valuation)).map .int) := by
  induction args with
  | nil => rfl
  | cons arg args ih =>
      have first := value_arith signature valuation interpretation divZero
        modZero fun name mem => constants name (List.mem_append_left _ mem)
      have others := ih fun name mem =>
        constants name (List.mem_append_right _ mem)
      simp [values, first, others]

private theorem value_compare {op : CompareOp} {left right : SExpr} {a b : Int}
    {model : Structure} (hleft : left.value signature model = some (.int a))
    (hright : right.value signature model = some (.int b)) :
    (op.term left right).value signature model =
      some (.bool (op.holds a b)) := by
  cases op with
  | eq => exact value_equal hleft hright
  | ne => exact value_unary .not rfl (value_equal hleft hright)
  | lt => exact value_binary .less rfl hleft hright
  | le => exact value_binary .atMost rfl hleft hright
  | gt => exact value_binary .greater rfl hleft hright
  | ge => exact value_binary .atLeast rfl hleft hright

private theorem value_formula {formula : Formula}
    (constants : ∀ name ∈ formula.occurrences,
      signature.IsConstant name.text)
    (predicates : ∀ symbol ∈ formula.predicates,
      signature.IsPredicate symbol.name.text symbol.arity) :
    formula.term.value signature
        (.ofNames valuation interpretation divZero modZero) =
      some (.bool (formula.holds interpretation valuation)) := by
  induction formula with
  | truth value => cases value <;> rfl
  | predicate name args =>
      have declared : signature.IsPredicate name.text
          (args.map (·.value valuation)).length := by
        simpa using predicates ⟨name, args.length⟩ List.mem_cons_self
      have arguments := values_arith signature valuation interpretation
        divZero modZero constants
      have applied : applied signature
          (.ofNames valuation interpretation divZero modZero) name.text
            ((args.map (·.value valuation)).map .int) =
          some (.bool (interpretation name (args.map (·.value valuation)))) := by
        rw [applied_name declared.free, apply_predicate declared]
        simp [Structure.ofNames]
      cases args with
      | nil =>
          rw [Formula.term, SExpr.value, numeral?_name]
          exact applied
      | cons arg args =>
          have form : (Formula.predicate name (arg :: args)).term =
              application name.text ((arg :: args).map Arith.term) := rfl
          rw [form, application, SExpr.value, arguments]
          exact applied
  | neg body ih => exact value_unary .not rfl (ih constants predicates)
  | connect op left right ihLeft ihRight =>
      have hleft := ihLeft
        (fun name mem => constants name (List.mem_append_left _ mem))
        (fun symbol mem => predicates symbol (List.mem_append_left _ mem))
      have hright := ihRight
        (fun name mem => constants name (List.mem_append_right _ mem))
        (fun symbol mem => predicates symbol (List.mem_append_right _ mem))
      cases op with
      | and => exact value_binary .and rfl hleft hright
      | or => exact value_binary .or rfl hleft hright
      | implies => exact value_binary .implies rfl hleft hright
  | compare op left right =>
      exact value_compare signature
        (value_arith signature valuation interpretation divZero modZero
          fun name mem => constants name (List.mem_append_left _ mem))
        (value_arith signature valuation interpretation divZero modZero
          fun name mem => constants name (List.mem_append_right _ mem))

end Meaning


/-! ## Scripts -/

private theorem charsAfter_replicate (arity : Nat) (text : String) :
    charsAfter (List.replicate arity (.atom text)) =
      (List.replicate arity text).flatMap (' ' :: ·.toList) := by
  induction arity with
  | zero => rfl
  | succ arity ih => simp [List.replicate_succ, charsAfter, chars, ih]

private theorem chars_domain (arity : Nat) :
    (SExpr.list (List.replicate arity (.atom "Int"))).chars =
      '(' :: ((" ".intercalate (List.replicate arity "Int")).toList ++
        [')']) := by
  cases arity with
  | zero => rfl
  | succ arity =>
      rw [List.replicate_succ, List.replicate_succ, chars, toList_intercalate,
        charsAfter_replicate, List.append_assoc]
      rfl

private theorem toList_declaration (name : Name) :
    name.declaration.toList = (declareConst name.text).chars ++ ['\n'] := by
  unfold Name.declaration
  simp only [toString_string, String.toList_append, declareConst, chars,
    charsAfter, List.append_assoc, List.cons_append, List.nil_append]
  rfl

private theorem toList_predicateDeclaration (symbol : PredicateSymbol) :
    symbol.declaration.toList =
      (declareFun symbol.name.text symbol.arity).chars ++ ['\n'] := by
  unfold PredicateSymbol.declaration
  simp only [toString_string, String.toList_append, declareFun, chars,
    charsAfter, chars_domain, List.append_assoc, List.cons_append,
    List.nil_append]
  rfl

theorem worded_atom {text : String} (isWord : IsWord text) :
    (SExpr.atom text).Worded :=
  isWord

private theorem worded_declareConst (name : Name) :
    (declareConst name.text).Worded :=
  ⟨worded_atom (by decide), name.isWord_text, worded_atom (by decide), trivial⟩

private theorem worded_declareFun (symbol : PredicateSymbol) :
    (declareFun symbol.name.text symbol.arity).Worded := by
  have domain (arity : Nat) :
      AllWorded (List.replicate arity (.atom "Int")) := by
    induction arity with
    | zero => trivial
    | succ arity ih => exact ⟨worded_atom (by decide), ih⟩
  exact ⟨worded_atom (by decide), symbol.name.isWord_text, domain _,
    worded_atom (by decide), trivial⟩

@[simp] theorem allWorded_iff (exprs : List SExpr) :
    AllWorded exprs ↔ ∀ expr ∈ exprs, expr.Worded := by
  induction exprs with
  | nil => simp [AllWorded]
  | cons expr exprs ih => simp [AllWorded, ih]

def commands (formula : Formula) : List SExpr :=
  (formula.freeVars.map fun name => declareConst name.text) ++
    (formula.predicateSymbols.map fun symbol =>
      declareFun symbol.name.text symbol.arity) ++
    [SExpr.assert formula.term, checkSat]

private theorem allWorded_commands (formula : Formula) :
    AllWorded (commands formula) := by
  have asserted : (SExpr.assert formula.term).Worded :=
    ⟨worded_atom (by decide), formula.spells.worded, trivial⟩
  have asked : checkSat.Worded := ⟨worded_atom (by decide), trivial⟩
  rw [allWorded_iff]
  intro expr mem
  simp only [commands, List.mem_append, List.mem_map, List.mem_cons,
    List.not_mem_nil, or_false] at mem
  rcases mem with (⟨name, -, rfl⟩ | ⟨symbol, -, rfl⟩) | rfl | rfl
  · exact worded_declareConst name
  · exact worded_declareFun symbol
  · exact asserted
  · exact asked

private theorem toList_toScript (formula : Formula) :
    formula.toScript.toList = lines (commands formula) := by
  have ending : s!"(assert {formula.toSmtLib})\n(check-sat)\n".toList =
      lines [SExpr.assert formula.term, checkSat] := by
    simp only [toString_string, String.toList_append, formula.spells.chars,
      lines, SExpr.assert, checkSat, chars, charsAfter, List.flatMap_cons,
      List.flatMap_nil, List.append_assoc, List.cons_append, List.nil_append]
    rfl
  have joined : lines (commands formula) =
      (formula.freeVars.flatMap fun name => name.declaration.toList) ++
        ((formula.predicateSymbols.flatMap fun symbol =>
          symbol.declaration.toList) ++
        lines [SExpr.assert formula.term, checkSat]) := by
    simp [lines, commands, List.flatMap_append, List.flatMap_map,
      toList_declaration, toList_predicateDeclaration]
  rw [joined, ← ending, Formula.toScript]
  simp only [String.toList_append, String.toList_join, List.flatMap_map,
    List.append_assoc]

@[simp] theorem read_toScript (formula : Formula) :
    read formula.toScript = some (commands formula) :=
  read_of_lines (allWorded_commands formula) (toList_toScript formula)

end SmtLib

/--
The formula uses no symbol of the language, and no name both for a variable and
for a predicate symbol without arguments.
-/
structure Formula.Translatable (formula : Formula) : Prop where
  names : ∀ name ∈ formula.occurrences, ¬ Fixed name.text
  symbols : ∀ symbol ∈ formula.predicates, ¬ Fixed symbol.name.text
  apart : ∀ name ∈ formula.occurrences, ⟨name, 0⟩ ∉ formula.predicates

namespace SmtLib

def Signature.ofNames (constants : List Name)
    (predicates : List PredicateSymbol) : Signature where
  constants := constants.map Name.text
  predicates := predicates.map fun symbol => (symbol.name.text, symbol.arity)

@[simp] theorem Signature.mem_constants {constants : List Name}
    {predicates : List PredicateSymbol} {name : Name} :
    name.text ∈ (ofNames constants predicates).constants ↔
      name ∈ constants :=
  List.mem_map_of_injective fun _ _ => Name.eq_of_text

@[simp] theorem Signature.mem_predicates {constants : List Name}
    {predicates : List PredicateSymbol} {symbol : PredicateSymbol} :
    (symbol.name.text, symbol.arity) ∈
        (ofNames constants predicates).predicates ↔
      symbol ∈ predicates := by
  refine List.mem_map_of_injective (f := fun symbol : PredicateSymbol =>
    (symbol.name.text, symbol.arity)) ?_
  intro first second same
  obtain ⟨texts, arities⟩ := Prod.mk.inj same
  cases first
  cases second
  cases Name.eq_of_text texts
  cases arities
  rfl

private theorem isConstant_of_translatable {formula : Formula}
    (translatable : formula.Translatable) {name : Name}
    (mem : name ∈ formula.occurrences) :
    (Signature.ofNames formula.freeVars
      formula.predicateSymbols).IsConstant name.text where
  free := translatable.names name mem
  declared := Signature.mem_constants.mpr (Formula.mem_freeVars.mpr mem)
  unambiguous declared :=
    translatable.apart name mem (Formula.mem_predicateSymbols.mp
      (Signature.mem_predicates.mp declared))

private theorem isPredicate_of_translatable {formula : Formula}
    (translatable : formula.Translatable) {symbol : PredicateSymbol}
    (mem : symbol ∈ formula.predicates) :
    (Signature.ofNames formula.freeVars formula.predicateSymbols).IsPredicate
      symbol.name.text symbol.arity where
  free := translatable.symbols symbol mem
  declared :=
    Signature.mem_predicates.mpr (Formula.mem_predicateSymbols.mpr mem)
  unambiguous := by
    intro nullary declared
    have isVariable :=
      Formula.mem_freeVars.mp (Signature.mem_constants.mp declared)
    apply translatable.apart symbol.name isVariable
    rw [← nullary]
    exact mem

private theorem nodup_freeVars (formula : Formula) : formula.freeVars.Nodup :=
  OrderedSet.nodup_ofList (fun _ _ => Name.eq_of_not_lt) Name.lt_trans
    Name.lt_irrefl formula.occurrences

private theorem nodup_predicateSymbols (formula : Formula) :
    formula.predicateSymbols.Nodup :=
  OrderedSet.nodup_ofList (fun _ _ => PredicateSymbol.eq_of_not_lt)
    PredicateSymbol.lt_trans PredicateSymbol.lt_irrefl formula.predicates

/--
Expressions and formulas are written as terms that have their values, as long as
they use no symbol of the language and no name for two things.  A script
declares each variable and each predicate symbol of its formula once and nothing
else.
-/
theorem translation_preserves_meaning :
    (∀ expr : Arith, ∃ term, SExpr.read expr.toSmtLib = some [term] ∧
      ∀ (signature : Signature) (valuation : Valuation)
        (interpretation : Interpretation) (divZero modZero : Int → Int),
        (∀ name ∈ expr.occurrences, signature.IsConstant name.text) →
        term.value signature
            (.ofNames valuation interpretation divZero modZero) =
          some (.int (expr.value valuation))) ∧
    ∀ formula : Formula, ∃ term constants predicates,
      SExpr.read formula.toSmtLib = some [term] ∧
      SExpr.read formula.toScript =
        some ((constants.map fun name => SExpr.declareConst name.text) ++
          (predicates.map fun symbol =>
            SExpr.declareFun symbol.name.text symbol.arity) ++
          [SExpr.assert term, SExpr.checkSat]) ∧
      (constants.Nodup ∧
        ∀ name, name ∈ constants ↔ name ∈ formula.occurrences) ∧
      (predicates.Nodup ∧
        ∀ symbol, symbol ∈ predicates ↔ symbol ∈ formula.predicates) ∧
      (formula.Translatable →
        ∀ (valuation : Valuation) (interpretation : Interpretation)
          (divZero modZero : Int → Int),
          term.value (.ofNames constants predicates)
              (.ofNames valuation interpretation divZero modZero) =
            some (.bool (formula.holds interpretation valuation))) := by
  refine ⟨fun expr => ⟨expr.term, read_of_spells expr.spells, ?_⟩,
    fun formula => ⟨formula.term, formula.freeVars, formula.predicateSymbols,
      read_of_spells formula.spells, read_toScript formula,
      ⟨nodup_freeVars formula, fun _ => Formula.mem_freeVars⟩,
      ⟨nodup_predicateSymbols formula,
        fun _ => Formula.mem_predicateSymbols⟩, ?_⟩⟩
  · intro signature valuation interpretation divZero modZero constants
    exact value_arith signature valuation interpretation divZero modZero
      constants
  · intro translatable valuation interpretation divZero modZero
    exact value_formula _ valuation interpretation divZero modZero
      (fun _ => isConstant_of_translatable translatable)
      (fun _ => isPredicate_of_translatable translatable)

namespace Division

def m : Name := ⟨"m", by decide⟩

def q : Name := ⟨"q", by decide⟩

def quotient : Formula :=
  .predicate q [.binary .divide (.var m) (.lit (-2))]

private theorem translatable_quotient : quotient.Translatable where
  names := by decide +kernel
  symbols := by decide +kernel
  apart := by decide +kernel

/-- Minus seven by minus two is three, and Euclidean division says four. -/
theorem translation_preserves_meaning_quotient :
    quotient.Translatable ∧ ∃ term constants predicates,
      SExpr.read quotient.toSmtLib = some [term] ∧
      SExpr.read quotient.toScript =
        some ((constants.map fun name : Name => SExpr.declareConst name.text) ++
          (predicates.map fun symbol : PredicateSymbol =>
            SExpr.declareFun symbol.name.text symbol.arity) ++
          [SExpr.assert term, SExpr.checkSat]) ∧
      ∀ (interpretation : Interpretation) (divZero modZero : Int → Int),
        term.value (.ofNames constants predicates)
            (.ofNames (fun _ => -7) interpretation divZero modZero) =
          some (.bool (interpretation q [3])) := by
  obtain ⟨term, constants, predicates, read, script, -, -, meaning⟩ :=
    translation_preserves_meaning.2 quotient
  refine ⟨translatable_quotient, term, constants, predicates, read, script,
    fun interpretation divZero modZero => ?_⟩
  rw [meaning translatable_quotient]
  simp [quotient, Formula.holds, Arith.value, ArithOp.exact]

def distinct : Name := ⟨"distinct", by decide⟩

def unlike : Formula := .predicate distinct [.var m, .var q]

def doubled : Formula :=
  .connect .and (.compare .eq (.var m) (.lit 1)) (.predicate m [])

/--
The operator keeps its own meaning when a formula uses its name, and a doubled
name has none.
-/
theorem translation_of_fixed_symbols :
    (∃ term, SExpr.read unlike.toSmtLib = some [term] ∧
      ∀ interpretation divZero modZero,
        term.value (.ofNames unlike.freeVars unlike.predicateSymbols)
            (.ofNames (fun _ => 0) interpretation divZero modZero) =
          some (.bool false)) ∧
    unlike.holds (fun _ _ => true) (fun _ => 0) = true ∧
    ∃ term, SExpr.read doubled.toSmtLib = some [term] ∧
      ∀ model, term.value
        (.ofNames doubled.freeVars doubled.predicateSymbols) model = none := by
  refine ⟨⟨_, read_of_spells unlike.spells, fun _ _ _ => ?_⟩, rfl,
    _, read_of_spells doubled.spells, fun _ => ?_⟩
  · rfl
  · rfl

end Division

end SmtLib

end ProofOutline
