import ProofOutline.Proofs.Desugaring
import ProofOutline.Proofs.Meaning

/-!
# Syntax that can be read back

Printing loses something of syntax in general: a literal below zero is printed
as a sign and a numeral, and a name may spell a keyword.  Syntax that was read
from tokens is printable, which rules both out, and expanding interpreted
predicates keeps it so.
-/

namespace ProofOutline

/-! ## Numerals -/

namespace Text

@[simp] theorem readDigits?_toDigits (value : Nat) :
    readDigits? (Nat.toDigits 10 value) = some value := by
  have same : digitsValue (Nat.toDigits 10 value) = value :=
    Nat.ofDigitChars_ten_toDigits
  have all : (Nat.toDigits 10 value).all Char.isDigit = true :=
    List.all_eq_true.mpr fun _ =>
      Nat.isDigit_of_mem_toDigits (by decide) (by decide)
  simp [readDigits?, Nat.toDigits_ne_nil, all, same]

theorem readInteger?_digits {digits : List Char} (nonempty : digits ≠ [])
    (all : digits.all Char.isDigit = true) :
    readInteger? digits = some (digitsValue digits : Int) := by
  have natural : readDigits? digits = some (digitsValue digits) := by
    rw [readDigits?, if_pos]
    simpa using ⟨nonempty, by simpa using all⟩
  cases digits with
  | nil => exact absurd rfl nonempty
  | cons c rest =>
      have isDigit : c.isDigit = true := by
        rw [List.all_cons, Bool.and_eq_true] at all
        exact all.1
      rw [readInteger?, readNatural?, natural]
      · rfl
      · rintro _ ⟨rfl, -⟩
        cases isDigit
      · rintro _ ⟨rfl, -⟩
        cases isDigit

end Text

/-! ## Printable syntax -/

/-- The name does not spell a keyword. -/
def Name.IsPlain (name : Name) : Prop :=
  name.text ≠ "true" ∧ name.text ≠ "false" ∧ name.text ≠ "skip"

/-- No literal is negative but the `-1` of a unary minus. -/
def Arith.Printable : Arith → Prop
  | lit value => 0 ≤ value.toInt
  | var name => name.IsPlain
  | binary op left right =>
      (left.Printable ∨ (op = .times ∧ left = .lit (-1))) ∧ right.Printable

def Formula.Printable : Formula → Prop
  | truth _ => True
  | predicate name args => name.IsPlain ∧ ∀ arg ∈ args, arg.Printable
  | neg body => body.Printable
  | connect _ left right => left.Printable ∧ right.Printable
  | compare _ left right => left.Printable ∧ right.Printable

def Primitive.Printable : Primitive → Prop
  | assign target value => target.IsPlain ∧ value.Printable
  | skip => True

def Decl.Printable : Decl → Prop
  | assertion a => a.formula.Printable
  | program p => ∀ primitive ∈ p.command.primitives, primitive.Printable

private theorem Arith.printable_negate {expr : Arith} (h : expr.Printable) :
    expr.negate.Printable :=
  ⟨.inr ⟨rfl, rfl⟩, h⟩

/-! ## Reading gives printable syntax -/

namespace TokenKind

theorem isPlain_of_name? {kind : TokenKind} (proper : kind.Proper)
    {name : Name} (h : kind.name? = some name) : name.IsPlain := by
  cases kind with
  | ident text =>
      rw [name?, Name.ofString?] at h
      split at h
      · cases h
        exact proper.2
      · cases h
  | _ => cases h

private theorem printable_of_literal? {kind : TokenKind} (proper : kind.Proper)
    {value : Word} (h : kind.literal? = some value) :
    (Arith.lit value).Printable := by
  cases kind with
  | int digits =>
      rw [literal?, Text.readInteger?_digits proper.1 proper.2,
        Option.bind_some, Word.ofInt?_eq_some_iff] at h
      rw [Arith.Printable, h]
      exact Int.natCast_nonneg _
  | _ => cases h

end TokenKind

mutual

theorem Phrase.printable_of_arith? :
    ∀ {phrase : Phrase} {expr : Arith},
      (∀ token ∈ phrase.yield, token.kind.Proper) →
      phrase.arith? = some expr → expr.Printable
  | .atom token, expr, proper, h => by
      have proper := proper token List.mem_cons_self
      rcases Option.or_eq_some_iff.mp h with h | ⟨-, h⟩
      · obtain ⟨value, found, rfl⟩ := Option.map_eq_some_iff.mp h
        exact TokenKind.printable_of_literal? proper found
      · obtain ⟨name, found, rfl⟩ := Option.map_eq_some_iff.mp h
        exact TokenKind.isPlain_of_name? proper found
  | .prefixed op body, expr, proper, h => by
      obtain ⟨value, found, h⟩ := Option.bind_eq_some_iff.mp h
      have printable := Phrase.printable_of_arith?
        (Phrase.forall_yield_prefixed.mp proper).2 found
      split at h
      · cases h
        exact printable
      · cases h
        exact Arith.printable_negate printable
      · cases h
  | .infixed left op right, expr, proper, h => by
      obtain ⟨properLeft, -, properRight⟩ :=
        Phrase.forall_yield_infixed.mp proper
      obtain ⟨operation, first, second, -, inLeft, inRight, rfl⟩ :=
        Phrase.arith?_infixed_eq_some_iff.mp h
      exact ⟨.inl (Phrase.printable_of_arith? properLeft inLeft),
        Phrase.printable_of_arith? properRight inRight⟩
  | .bracketed opening inner closing, expr, proper, h =>
      Phrase.printable_of_arith?
        (Phrase.forall_yield_bracketed.mp proper).2.1 h
  | .emptyCall _ _ _, _, _, h => nomatch h
  | .call _ _ _, _, _, h => nomatch h

private theorem Arguments.printable_of_values? :
    ∀ {args : Arguments} {values : List Arith},
      (∀ token ∈ args.yield, token.kind.Proper) →
      args.values? = some values → ∀ value ∈ values, value.Printable
  | .last arg closing, values, proper, h => by
      obtain ⟨value, found, h⟩ := Option.bind_eq_some_iff.mp h
      cases h
      rw [List.forall_mem_singleton]
      exact Phrase.printable_of_arith?
        (Arguments.forall_yield_last.mp proper).1 found
  | .more arg comma rest, values, proper, h => by
      obtain ⟨properArg, -, properRest⟩ :=
        Arguments.forall_yield_more.mp proper
      obtain ⟨first, others, inArg, inRest, rfl⟩ :=
        Arguments.values?_more_eq_some_iff.mp h
      rw [List.forall_mem_cons]
      exact ⟨Phrase.printable_of_arith? properArg inArg,
        Arguments.printable_of_values? properRest inRest⟩

end

theorem Phrase.printable_of_formula? :
    ∀ {phrase : Phrase} {formula : Formula},
      (∀ token ∈ phrase.yield, token.kind.Proper) →
      phrase.formula? = some formula → formula.Printable
  | .atom token, formula, _, h => by
      rw [Phrase.formula?] at h
      split at h <;> cases h <;> trivial
  | .prefixed op body, formula, proper, h => by
      rw [Phrase.formula?] at h
      split at h
      · obtain ⟨value, found, rfl⟩ := Option.map_eq_some_iff.mp h
        have printable : value.Printable := body.printable_of_formula?
          (Phrase.forall_yield_prefixed.mp proper).2 found
        exact printable
      · cases h
  | .infixed left op right, formula, proper, h => by
      obtain ⟨properLeft, -, properRight⟩ :=
        Phrase.forall_yield_infixed.mp proper
      cases isConnective : op.kind.connective? with
      | some connective =>
          obtain ⟨first, second, inLeft, inRight, rfl⟩ :=
            (Phrase.formula?_connect_eq_some_iff isConnective).mp h
          exact ⟨left.printable_of_formula? properLeft inLeft,
            right.printable_of_formula? properRight inRight⟩
      | none =>
          cases isCompare : op.kind.compareOp? with
          | some compare =>
              obtain ⟨first, second, inLeft, inRight, rfl⟩ :=
                (Phrase.formula?_compare_eq_some_iff isCompare).mp h
              exact ⟨Phrase.printable_of_arith? properLeft inLeft,
                Phrase.printable_of_arith? properRight inRight⟩
          | none =>
              rw [Phrase.formula?, isConnective, isCompare] at h
              cases h
  | .bracketed opening inner closing, formula, proper, h =>
      inner.printable_of_formula?
        (Phrase.forall_yield_bracketed.mp proper).2.1 h
  | .emptyCall name opening closing, formula, proper, h => by
      obtain ⟨symbol, found, rfl⟩ := Option.map_eq_some_iff.mp h
      exact ⟨TokenKind.isPlain_of_name? (proper name List.mem_cons_self)
        found, fun _ mem => absurd mem List.not_mem_nil⟩
  | .call name opening args, formula, proper, h => by
      obtain ⟨properName, -, properArgs⟩ :=
        Phrase.forall_yield_call.mp proper
      obtain ⟨symbol, values, found, inArgs, rfl⟩ :=
        Phrase.formula?_call_eq_some_iff.mp h
      exact ⟨TokenKind.isPlain_of_name? properName found,
        Arguments.printable_of_values? properArgs inArgs⟩

theorem Formula.conjoin?_cons_cases {first formula : Formula}
    {others : List Formula} (h : conjoin? (first :: others) = some formula) :
    formula = first ∨ ∃ tail, conjoin? others = some tail ∧
      formula = .connect .and first tail := by
  rw [conjoin?] at h
  split at h
  case h_1 =>
    cases h
    exact .inl rfl
  case h_2 tail found =>
    cases h
    exact .inr ⟨tail, found, rfl⟩

private theorem Formula.printable_of_conjoin? {formulas : List Formula}
    {formula : Formula} (printable : ∀ part ∈ formulas, part.Printable)
    (h : conjoin? formulas = some formula) : formula.Printable := by
  induction formulas generalizing formula with
  | nil => cases h
  | cons first rest ih =>
      obtain ⟨printableFirst, printableRest⟩ :=
        List.forall_mem_cons.mp printable
      rcases conjoin?_cons_cases h with rfl | ⟨tail, found, rfl⟩
      · exact printableFirst
      · exact ⟨printableFirst, ih printableRest found⟩

theorem exists_of_mapM_cons {α β : Type} {f : α → Option β} {first : α}
    {rest : List α} {values : List β}
    (h : (first :: rest).mapM f = some values) :
    ∃ value others, f first = some value ∧ rest.mapM f = some others ∧
      values = value :: others := by
  rw [List.mapM_cons] at h
  obtain ⟨value, found, h⟩ := Option.bind_eq_some_iff.mp h
  obtain ⟨others, foundRest, h⟩ := Option.bind_eq_some_iff.mp h
  cases h
  exact ⟨value, others, found, foundRest, rfl⟩

theorem forall_mem_of_mapM {α β : Type} {f : α → Option β}
    {holds : β → Prop} {items : List α} {values : List β}
    (h : items.mapM f = some values)
    (each : ∀ item ∈ items, ∀ value, f item = some value → holds value) :
    ∀ value ∈ values, holds value := by
  induction items generalizing values with
  | nil =>
      cases h
      exact fun _ mem => absurd mem List.not_mem_nil
  | cons first rest ih =>
      obtain ⟨eachFirst, eachRest⟩ := List.forall_mem_cons.mp each
      obtain ⟨value, others, found, foundRest, rfl⟩ := exists_of_mapM_cons h
      rw [List.forall_mem_cons]
      exact ⟨eachFirst value found, ih foundRest eachRest⟩

private theorem Statement.printable_of_primitive? {statement : Statement}
    {primitive : Primitive}
    (proper : ∀ token ∈ statement.yield, token.kind.Proper)
    (h : statement.primitive? = some primitive) : primitive.Printable := by
  cases statement with
  | skip token semi =>
      cases h
      trivial
  | assign name op value semi =>
      obtain ⟨target, isName, h⟩ := Option.bind_eq_some_iff.mp h
      obtain ⟨expr, isValue, h⟩ := Option.bind_eq_some_iff.mp h
      cases h
      simp only [Statement.yield, List.cons_append, List.forall_mem_cons,
        List.forall_mem_append] at proper
      exact ⟨TokenKind.isPlain_of_name? proper.1 isName,
        Phrase.printable_of_arith? proper.2.2.1 isValue⟩

theorem Sentence.printable_of_decl? {sentence : Sentence} {source : String}
    {decl : Decl} (proper : ∀ token ∈ sentence.yield, token.kind.Proper)
    (h : sentence.decl? source = some decl) : decl.Printable := by
  cases sentence with
  | assertion opening first further closing =>
      obtain ⟨formulas, read, h⟩ := Option.bind_eq_some_iff.mp h
      obtain ⟨formula, joined, h⟩ := Option.bind_eq_some_iff.mp h
      cases h
      refine Formula.printable_of_conjoin? (forall_mem_of_mapM read ?_) joined
      rw [List.forall_mem_cons, List.forall_mem_map]
      simp only [Sentence.yield, List.cons_append, List.forall_mem_cons,
        List.forall_mem_append] at proper
      refine ⟨fun _ => Phrase.printable_of_formula? proper.2.1.1,
        fun formula mem _ => Phrase.printable_of_formula? ?_⟩
      intro token inside
      exact proper.2.1.2 token (List.mem_flatMap.mpr
        ⟨formula, mem, List.mem_cons_of_mem _ inside⟩)
  | command first others =>
      obtain ⟨primitives, read, h⟩ := Option.bind_eq_some_iff.mp h
      have printable : ∀ primitive ∈ primitives, primitive.Printable := by
        refine forall_mem_of_mapM read fun statement mem primitive => ?_
        refine Statement.printable_of_primitive? fun token inside => ?_
        exact proper token (List.mem_flatMap.mpr ⟨statement, mem, inside⟩)
      cases primitives with
      | nil => cases h
      | cons primitive rest =>
          cases h
          exact printable

/-! ## Expanding interpreted predicates -/

namespace Formula

theorem desugar_predicate (name : Name) (args : List Arith) :
    (predicate name args).desugar = .predicate name args ∨
      ∃ (arg : Arith) (remainder : Word), args = [arg] ∧
        0 ≤ remainder.toInt ∧
        (predicate name args).desugar =
          Interpreted.remainderByTwo remainder [arg] := by
  by_cases test : IsParityTest name args
  · right
    obtain ⟨arg, rfl⟩ := List.length_eq_one_iff.mp test.2
    refine ⟨arg, _, rfl, ?_, by rw [desugar_predicate_eq, if_pos test]⟩
    split <;> decide
  · left
    rw [desugar_predicate_eq, if_neg test]

private theorem printable_remainderByTwo {remainder : Word}
    (nonnegative : 0 ≤ remainder.toInt) {arg : Arith}
    (printable : arg.Printable) :
    (Interpreted.remainderByTwo remainder [arg]).Printable := by
  have two : (Arith.lit 2).Printable := by
    rw [Arith.Printable]
    decide
  exact ⟨⟨.inl printable, two⟩, nonnegative⟩

theorem Printable.desugar {formula : Formula} (h : formula.Printable) :
    formula.desugar.Printable := by
  induction formula with
  | truth value => exact h
  | predicate name args =>
      rcases desugar_predicate name args with
        same | ⟨arg, _, rfl, nonnegative, eq⟩
      · rwa [same]
      · rw [eq]
        exact printable_remainderByTwo nonnegative
          (h.2 arg List.mem_cons_self)
  | neg body ih => exact ih h
  | connect op left right ihLeft ihRight =>
      exact ⟨ihLeft h.1, ihRight h.2⟩
  | compare op left right => exact h

end Formula

namespace Decl

theorem Printable.desugar {decl : Decl} (h : decl.Printable) :
    decl.desugar.Printable := by
  cases decl with
  | assertion a => exact Formula.Printable.desugar h
  | program p => exact h

@[simp] theorem desugar_desugar (decl : Decl) :
    decl.desugar.desugar = decl.desugar := by
  cases decl with
  | assertion a => simp only [desugar, Formula.desugar_desugar]
  | program p => rfl

end Decl

end ProofOutline
