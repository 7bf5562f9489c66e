import ProofOutline.Proofs.Height
import ProofOutline.Proofs.Printing

/-!
# The limit on nesting and the height of parsed syntax

The limit on nesting bounds the height of what is parsed by its square, and no
better bound holds.  For any room there is a text that fills it: a tower of
brackets, each of which starts a chain of products and then one of sums on top
of what is below.
-/

namespace ProofOutline

open Text

/-! ## Phrases of known size -/

def Phrase.ArithTall (height : Nat) (phrase : Phrase) : Prop :=
  ∃ expr, phrase.arith? = some expr ∧ expr.height = height

def Phrase.FormulaTall (height : Nat) (phrase : Phrase) : Prop :=
  ∃ formula, phrase.formula? = some formula ∧ formula.desugar.height = height

structure Phrase.Sized (tall : Nat → Phrase → Prop) (stratum : Stratum)
    (cost height : Nat) (phrase : Phrase) : Prop where
  derived : Derives stratum phrase
  tall : tall height phrase
  cost : phrase.cost = cost

namespace Phrase

variable {left right : Phrase} {op : Token} {height other : Nat}

theorem ArithTall.operation {operation : ArithOp}
    (isOp : op.kind.arithOp? = some operation) (first : left.ArithTall height)
    (second : right.ArithTall other) :
    (infixed left op right).ArithTall (max height other + 1) := by
  obtain ⟨leftExpr, isLeft, rfl⟩ := first
  obtain ⟨rightExpr, isRight, rfl⟩ := second
  exact ⟨_, arith?_infixed_eq_some_iff.mpr
    ⟨operation, leftExpr, rightExpr, isOp, isLeft, isRight, rfl⟩, rfl⟩

theorem FormulaTall.connective {connective : Connective}
    (isOp : op.kind.connective? = some connective)
    (first : left.FormulaTall height) (second : right.FormulaTall other) :
    (infixed left op right).FormulaTall (max height other + 1) := by
  obtain ⟨leftFormula, isLeft, rfl⟩ := first
  obtain ⟨rightFormula, isRight, rfl⟩ := second
  exact ⟨_, (formula?_connect_eq_some_iff isOp).mpr
    ⟨leftFormula, rightFormula, isLeft, isRight, rfl⟩, rfl⟩

theorem FormulaTall.compare {compare : CompareOp}
    (isOp : op.kind.compareOp? = some compare)
    (first : left.ArithTall height) (second : right.ArithTall other) :
    (infixed left op right).FormulaTall (max height other + 1) := by
  obtain ⟨leftExpr, isLeft, rfl⟩ := first
  obtain ⟨rightExpr, isRight, rfl⟩ := second
  exact ⟨_, (formula?_compare_eq_some_iff isOp).mpr
    ⟨leftExpr, rightExpr, isLeft, isRight, rfl⟩, rfl⟩

theorem Sized.mono {tall : Nat → Phrase → Prop} {tight loose : Stratum}
    {cost : Nat} {phrase : Phrase}
    (sized : phrase.Sized tall tight cost height)
    (le : tight.rank ≤ loose.rank) : phrase.Sized tall loose cost height :=
  ⟨sized.derived.mono le, sized.tall, sized.cost⟩

end Phrase

/-! ## Chains in texts -/

def joined (left op right : String) : String :=
  left ++ " " ++ op ++ " " ++ right

def linked (op operand text : String) : Nat → String
  | 0 => text
  | more + 1 => joined (linked op operand text more) op operand

section Linked

variable (chain : Chain) (kind : TokenKind) (proper : kind.Proper)
  (link : chain.isLink kind = true) {tall : Nat → Phrase → Prop}
  (grows : ∀ {left right : Phrase} {op : Token} {height other : Nat},
    op.kind = kind → tall height left → tall other right →
    tall (max height other + 1) (.infixed left op right))
  {text operand : String} {cost height : Nat}
  (first : Writes (Phrase.Sized tall chain.operand cost height) text)
  (unit : Writes (Phrase.Sized tall chain.operand 0 0) operand)

include proper link grows first unit

private theorem Writes.links_linked (count : Nat) :
    Writes
      (fun phrase =>
        phrase.Sized tall chain.stratum (max cost count) (height + count) ∧
        phrase.links chain.stratum = count)
      (ProofOutline.linked kind.spelling operand text count) := by
  induction count with
  | zero =>
      refine first.mono fun phrase sized => ?_
      refine ⟨⟨chain.ofOperand sized.derived, sized.tall, ?_⟩,
        sized.derived.links_eq_zero chain.tighter⟩
      simp [sized.cost]
  | succ count ih =>
      refine (ih.joined proper unit).mono ?_
      rintro _ ⟨op, left, right, rfl, isOp, ⟨sized, links⟩, one⟩
      have isLink : chain.isLink op.kind = true := by
        rw [isOp]
        exact link
      have grown := grows isOp sized.tall one.tall
      rw [Nat.max_zero] at grown
      refine ⟨⟨chain.derives sized.derived isLink one.derived, grown, ?_⟩,
        ?_⟩
      · rw [chain.cost_infixed isLink, sized.cost, links, one.cost]
        omega
      · rw [chain.links_infixed isLink, links]

theorem Writes.linked (count : Nat) :
    Writes
      (Phrase.Sized tall chain.stratum (max cost count) (height + count))
      (ProofOutline.linked kind.spelling operand text count) :=
  (first.links_linked chain kind proper link grows unit count).mono
    fun _ sized => sized.1

end Linked

/-! ## Towers -/

def arithChains (text : String) (room : Nat) : String :=
  linked "+" "1" (linked "*" "1" text room) room

/-- Brackets with as much in them as there is room for. -/
def tower : Nat → String
  | 0 => "1"
  | 1 => "-1"
  | room + 2 => "(" ++ arithChains (tower (room + 1)) (room + 1) ++ ")"

private theorem Arith.printable_one : (lit 1).Printable := by
  rw [Printable]
  decide

theorem writes_one :
    Writes (Phrase.Sized Phrase.ArithTall .unary 0 0) "1" := by
  refine (Arith.writes_lit Arith.printable_one).mono fun phrase stands => ?_
  exact ⟨stands.derived, ⟨_, stands.denotes, rfl⟩, stands.cost⟩

private theorem writes_minusOne :
    Writes (Phrase.Sized Phrase.ArithTall .unary 1 1) "-1" := by
  have one := Arith.writes_lit Arith.printable_one
  refine (Arith.writes_negate one).mono fun phrase stands => ?_
  exact ⟨stands.derived, ⟨_, stands.denotes, rfl⟩, stands.cost⟩

theorem writes_true :
    Writes (Phrase.Sized Phrase.FormulaTall .negation 0 0) "true" := by
  refine (Formula.writes_truth true).mono fun phrase stands => ?_
  exact ⟨stands.derived, ⟨_, stands.denotes, rfl⟩, stands.cost⟩

theorem writes_arithChains {text : String} {cost height : Nat}
    (writes : Writes (Phrase.Sized Phrase.ArithTall .unary cost height) text)
    (room : Nat) :
    Writes (Phrase.Sized Phrase.ArithTall .sum (max cost room)
      (height + 2 * room)) (arithChains text room) := by
  have products := writes.linked .factors .star trivial rfl
    (fun isOp => .operation (congrArg TokenKind.arithOp? isOp))
    writes_one room
  have one : Writes (Phrase.Sized Phrase.ArithTall .product 0 0) "1" :=
    writes_one.mono fun _ sized => sized.mono (by decide)
  have sums := products.linked .terms .plus trivial rfl
    (fun isOp => .operation (congrArg TokenKind.arithOp? isOp)) one room
  have size : max (max cost room) room = max cost room ∧
      height + room + room = height + 2 * room := by omega
  rw [size.1, size.2] at sums
  exact sums

private theorem writes_tower (room : Nat) :
    Writes (Phrase.Sized Phrase.ArithTall .unary room (Tallest.unary room))
      (tower room) := by
  fun_induction tower room with
  | case1 => exact writes_one
  | case2 => exact writes_minusOne
  | case3 room ih =>
      refine (writes_arithChains ih (room + 1)).bracketed.mono ?_
      rintro _ ⟨opening, inner, closing, rfl, isOpening, isClosing, sized⟩
      have derived : Derives .primary (.bracketed opening inner closing) :=
        .bracketed isOpening (sized.derived.mono (by decide)) isClosing
      refine ⟨.primary derived, sized.tall, ?_⟩
      rw [Phrase.cost, sized.cost, Nat.max_self]

def tallFormula (room : Nat) : String :=
  joined
    (linked "||" "true"
      (linked "&&" "true"
        (joined (arithChains (tower room) room) "=" "1") room) room)
    "=>" "true"

private theorem writes_comparison {text : String} {cost height : Nat}
    (writes : Writes (Phrase.Sized Phrase.ArithTall .sum cost height) text) :
    Writes (Phrase.Sized Phrase.FormulaTall .comparison cost (height + 1))
      (joined text "=" "1") := by
  have one : Writes (Phrase.Sized Phrase.ArithTall .sum 0 0) "1" :=
    writes_one.mono fun _ sized => sized.mono (by decide)
  have proper : TokenKind.eq.Proper := trivial
  refine (writes.joined proper one).mono ?_
  rintro _ ⟨op, left, right, rfl, isOp, first, second⟩
  have isComparison : op.kind.isComparison = true := by
    rw [isOp]
    rfl
  have tall := Phrase.FormulaTall.compare
    (congrArg TokenKind.compareOp? isOp) first.tall second.tall
  rw [Nat.max_zero] at tall
  refine ⟨.compare first.derived isComparison second.derived, tall, ?_⟩
  rw [Phrase.cost_comparison isComparison, first.cost, second.cost,
    Nat.max_zero]

private theorem writes_connectives {text : String} {cost height : Nat}
    (writes : Writes
      (Phrase.Sized Phrase.FormulaTall .negation cost height) text)
    (room : Nat) :
    Writes (Phrase.Sized Phrase.FormulaTall .disjunction (max cost room)
      (height + 2 * room))
      (linked "||" "true" (linked "&&" "true" text room) room) := by
  have conjuncts := writes.linked .conjuncts .and trivial rfl
    (fun isOp => .connective (congrArg TokenKind.connective? isOp))
    writes_true room
  have unit : Writes
      (Phrase.Sized Phrase.FormulaTall .conjunction 0 0) "true" :=
    writes_true.mono fun _ sized => sized.mono (by decide)
  have disjuncts := conjuncts.linked .disjuncts .or trivial rfl
    (fun isOp => .connective (congrArg TokenKind.connective? isOp)) unit room
  have size : max (max cost room) room = max cost room ∧
      height + room + room = height + 2 * room := by omega
  rw [size.1, size.2] at disjuncts
  exact disjuncts

private theorem writes_tallFormula (room : Nat) :
    Writes (Phrase.Sized Phrase.FormulaTall .implication (max room 1)
      (Tallest.implication room)) (tallFormula room) := by
  have compared := writes_comparison
    (writes_arithChains (writes_tower room) room)
  have premise := writes_connectives
    (compared.mono fun _ sized => sized.mono (by decide)) room
  have proper : TokenKind.implies.Proper := trivial
  refine (premise.joined proper writes_true).mono ?_
  rintro _ ⟨op, left, right, rfl, isOp, first, second⟩
  have tall := Phrase.FormulaTall.connective
    (congrArg TokenKind.connective? isOp) first.tall second.tall
  rw [Nat.max_zero] at tall
  refine ⟨.implies first.derived isOp (second.derived.mono (by decide)), tall,
    ?_⟩
  rw [Phrase.cost_implication isOp, first.cost, second.cost]
  omega

/-! ## Declarations of known height -/

namespace Source

def assigned (value : String) : String := "n := " ++ value ++ ";"

def pairedWithTrue (formula : String) : String :=
  "\x7b " ++ formula ++ " , true \x7d"

private theorem exists_writtenIn_assigned {text : String} {cost height : Nat}
    (writes : Writes
      (Phrase.Sized Phrase.ArithTall .implication cost height) text) :
    ∃ (sentence : Sentence) (target : Name) (value : Arith),
      sentence.WrittenIn (trimChars (assigned text).toList) ∧
      sentence.cost = cost + 1 ∧ value.height = height ∧
      ∀ source, sentence.decl? source =
        some (.program ⟨source, ⟨.assign target value, []⟩⟩) := by
  have chars : (assigned text).toList =
      'n' :: ' ' :: ':' :: '=' :: ' ' :: text.toList ++ [';'] := by
    simp [assigned, String.toList_append]
  have solid : Solid (assigned text).toList := by
    rw [chars]
    exact ⟨⟨'n', _, rfl, rfl⟩, ⟨_, ';', rfl, rfl⟩⟩
  have proper : (TokenKind.ident "n").Proper := by
    constructor <;> decide
  obtain ⟨target, isTarget⟩ :
      ∃ target, (TokenKind.ident "n").name? = some target :=
    Option.isSome_iff_exists.mp (by decide)
  have ended := Splits.nil.token .semi trivial fun _ _ => rfl
  have breaks : Breaks [';'] := breaks_cons (by decide) _
  have valued := writes breaks ended
  have stored := valued.blank.token .assign trivial fun _ _ => rfl
  obtain ⟨_, lexed, ⟨name, _, isName, ⟨op, _, isAssign, ⟨phrase, _, sized,
    ⟨semi, _, isSemi, ⟨eof, isEof, rfl⟩, rfl⟩, rfl⟩, rfl⟩, rfl⟩⟩ :=
    (stored.blank.token (.ident "n") proper (breaks_cons (by decide) _ _)) 0
  obtain ⟨value, isValue, height⟩ := sized.tall
  have derived :
      (Sentence.command (.assign name op phrase semi) []).Derived :=
    .command (.assign isName isAssign sized.derived isSemi)
      (fun _ mem => absurd mem List.not_mem_nil)
  refine ⟨.command (.assign name op phrase semi) [], target, value,
    ⟨derived, eof, isEof, ?_⟩, ?_, height, fun source => ?_⟩
  · rw [solid.trimChars, chars]
    simpa [Sentence.yield, Statement.yield, TokenKind.spelling] using lexed
  · simp [Sentence.cost, Statement.cost, sized.cost]
  · simp [Sentence.decl?, Statement.primitive?, isName, isTarget, isValue]

private theorem parse_assigned {text : String} {cost height : Nat}
    (writes : Writes
      (Phrase.Sized Phrase.ArithTall .implication cost height) text)
    (fits : cost < maxNesting) :
    ∃ p, parse (assigned text) = .ok (.program p) ∧
      (Decl.program p).height = height := by
  obtain ⟨sentence, target, value, written, takes, rfl, denotes⟩ :=
    exists_writtenIn_assigned writes
  have parsed := (parseChars_outcome written (denotes _)).1 (takes ▸ fits)
  refine ⟨_, parsed, ?_⟩
  simp [Decl.height, Command.primitives, Primitive.height]

private theorem exists_writtenIn_pairedWithTrue {text : String}
    {cost height : Nat} (writes : Writes
      (Phrase.Sized Phrase.FormulaTall .implication cost height) text) :
    ∃ (sentence : Sentence) (formula truth : Formula),
      sentence.WrittenIn (trimChars (pairedWithTrue text).toList) ∧
      sentence.cost = max (cost + 1) 2 ∧
      formula.desugar.height = height ∧ truth.desugar.height = 0 ∧
      ∀ source, sentence.decl? source =
        some (.assertion ⟨source, .connect .and formula truth⟩) := by
  have chars : (pairedWithTrue text).toList =
      '\x7b' :: ' ' :: text.toList ++ " , true ".toList ++ ['\x7d'] := by
    simp [pairedWithTrue, String.toList_append]
  have solid : Solid (pairedWithTrue text).toList := by
    rw [chars]
    exact ⟨⟨'\x7b', _, rfl, rfl⟩, ⟨_, '\x7d', rfl, rfl⟩⟩
  have closed := Splits.nil.token .rbrace trivial fun _ _ => rfl
  have last := writes_true (breaks_cons (by decide) _) closed.blank
  have parted := last.blank.token .comma trivial fun _ _ => rfl
  have stated := writes (breaks_cons (by decide) _) parted.blank
  obtain ⟨_, lexed, ⟨opening, _, isOpening, ⟨phrase, _, sized, ⟨comma, _,
    isComma, ⟨second, _, short, ⟨closing, _, isClosing, ⟨eof, isEof, rfl⟩,
    rfl⟩, rfl⟩, rfl⟩, rfl⟩, rfl⟩⟩ :=
    (stated.blank.token .lbrace trivial fun _ _ => rfl) 0
  obtain ⟨formula, isFormula, height⟩ := sized.tall
  obtain ⟨truth, isTruth, flat⟩ := short.tall
  have further : (FurtherFormula.mk comma second).Derived :=
    ⟨isComma, short.derived.mono (by decide)⟩
  have derived : (Sentence.assertion opening phrase [⟨comma, second⟩]
      closing).Derived :=
    .assertion isOpening sized.derived
      (List.forall_mem_singleton.mpr further) isClosing
  refine ⟨.assertion opening phrase [⟨comma, second⟩] closing, formula, truth,
    ⟨derived, eof, isEof, ?_⟩, ?_, height, flat, fun source => ?_⟩
  · rw [solid.trimChars, chars]
    simpa [Sentence.yield, FurtherFormula.yield, TokenKind.spelling]
      using lexed
  · simp [Sentence.cost, FurtherFormula.costs, sized.cost, short.cost]
  · simp [Sentence.decl?, isFormula, isTruth, Formula.conjoin?]

private theorem parse_pairedWithTrue {text : String} {cost height : Nat}
    (writes : Writes
      (Phrase.Sized Phrase.FormulaTall .implication cost height) text)
    (fits : cost < maxNesting) :
    ∃ a, parse (pairedWithTrue text) = .ok (.assertion a) ∧
      (Decl.assertion a).height = height + 1 := by
  obtain ⟨sentence, formula, truth, written, takes, rfl, flat, denotes⟩ :=
    exists_writtenIn_pairedWithTrue writes
  have enough : max (cost + 1) 2 ≤ maxNesting :=
    Nat.max_le.mpr ⟨fits, by decide⟩
  have parsed := (parseChars_outcome written (denotes _)).1 (takes ▸ enough)
  refine ⟨_, parsed, ?_⟩
  simp [Decl.height, Formula.desugar, Formula.height, flat]

/-! ## The bound -/

/--
Nesting is limited, and with it the height of what is parsed, but by the square
of the limit and not by the limit.
-/
theorem height_le_of_parse {source : String} {decl : Decl}
    (h : parse source = .ok decl) :
    decl.height ≤ decl.maxHeight maxNesting := by
  obtain ⟨sentence, read, written, fits, denotes, rfl⟩ :=
    exists_of_parseChars h
  exact Sentence.height_le written.derived denotes fits

/-- An assertion and a command that are as tall as this. -/
theorem height_le_of_parse_tallest :
    (∃ a, parse (pairedWithTrue (tallFormula 255)) = .ok (.assertion a) ∧
      a.formula.height = maxNesting * (maxNesting + 1) + 2 ∧
      a.formula.height ≤ (Decl.assertion a).maxHeight maxNesting) ∧
    (∃ p, parse (assigned (arithChains (tower 255) 255)) =
        .ok (.program p) ∧
      (Decl.program p).height = maxNesting * (maxNesting - 1) + 1 ∧
      (Decl.program p).height ≤ (Decl.program p).maxHeight maxNesting) := by
  have filled : Tallest.unary 255 = 255 * 254 + 1 := Tallest.unary_eq 254
  constructor
  · obtain ⟨a, parsed, height⟩ :=
      parse_pairedWithTrue (writes_tallFormula 255) (by decide)
    refine ⟨a, parsed, ?_, height_le_of_parse parsed⟩
    rw [Tallest.implication, Tallest.negation, Tallest.sum, filled] at height
    exact height
  · obtain ⟨p, parsed, height⟩ := parse_assigned
      ((writes_arithChains (writes_tower 255) 255).mono
        fun _ sized => sized.mono (by decide)) (by decide)
    refine ⟨p, parsed, ?_, height_le_of_parse parsed⟩
    rw [filled] at height
    exact height

/-- One chain on top of another is accepted, and taller than the limit. -/
theorem height_exceeds_maxNesting :
    ∃ decl, parse (assigned (arithChains "1" 255)) = .ok decl ∧
      decl.height = 510 ∧ maxNesting < 510 := by
  obtain ⟨p, parsed, height⟩ := parse_assigned
    ((writes_arithChains writes_one 255).mono
      fun _ sized => sized.mono (by decide)) (by decide)
  exact ⟨_, parsed, height, by decide⟩

end Source

end ProofOutline
