import ProofOutline.Proofs.Forms
import ProofOutline.Proofs.Printable

/-!
# Sorts

The grammar does not tell formulas from arithmetic.  A tree is well sorted if
every node has operands of the sort that it asks for.  A derivation denotes
something exactly if its tree is well sorted and no literal in it is too large
for a word.
-/

namespace ProofOutline

/-! ## Sorts of trees -/

def NodeKind.isConnective : NodeKind → Bool
  | .implication | .disjunction | .conjunction => true
  | _ => false

inductive TermSort where
  | formula
  | arith
  deriving DecidableEq, Repr

/--
The tree is well sorted and of this sort.  Bare names are arithmetic and
applications are formulas.
-/
inductive Tree.OfSort : TermSort → Tree → Prop
  | connective {kind : NodeKind} {span : Span} {left op right : Tree} :
      kind.isConnective = true → OfSort .formula left →
      OfSort .formula right → OfSort .formula (.node kind span [left, op, right])
  | negation {span : Span} {bang body : Tree} :
      OfSort .formula body →
      OfSort .formula (.node .negation span [bang, body])
  | comparison {span : Span} {left op right : Tree} :
      OfSort .arith left → OfSort .arith right →
      OfSort .formula (.node .comparison span [left, op, right])
  | application {span inner : Span} {name opening : Tree}
      {items : List Tree} :
      (∀ item ∈ items, item.kind.separates = false → OfSort .arith item) →
      OfSort .formula
        (.node .application span [name, .node .arguments inner
          (opening :: items)])
  | boolean {span : Span} : OfSort .formula (.leaf .boolean span)
  | formulaParens {span : Span} {opening inner closing : Tree} :
      OfSort .formula inner →
      OfSort .formula (.node .formulaParens span [opening, inner, closing])
  | operation {span : Span} {left op right : Tree} :
      OfSort .arith left → OfSort .arith right →
      OfSort .arith (.node .operation span [left, op, right])
  | signed {span : Span} {sign body : Tree} :
      OfSort .arith body → OfSort .arith (.node .signed span [sign, body])
  | number {span : Span} : OfSort .arith (.leaf .number span)
  | name {span : Span} : OfSort .arith (.leaf .name span)
  | arithParens {span : Span} {opening inner closing : Tree} :
      OfSort .arith inner →
      OfSort .arith (.node .arithParens span [opening, inner, closing])

inductive Tree.StatementSorted : Tree → Prop
  | skip {span : Span} : StatementSorted (.leaf .skip span)
  | assignment {span : Span} {name op value : Tree} :
      value.OfSort .arith →
      StatementSorted (.node .assignment span [name, op, value])

inductive Tree.WellSorted : Tree → Prop
  | assertion {span inner : Span} {formulas : List Tree} :
      (∀ formula ∈ formulas, formula.OfSort .formula) →
      WellSorted (.node .declaration span [.node .assertion inner formulas])
  | command {span inner : Span} {statements : List Tree} :
      (∀ statement ∈ statements, statement.StatementSorted) →
      WellSorted (.node .declaration span [.node .command inner statements])

theorem Tree.OfSort.isFormula {sort : TermSort} {tree : Tree}
    (h : tree.OfSort sort) :
    tree.kind.isFormula = decide (sort = .formula) := by
  cases h with
  | connective isConnective =>
      rename_i kind _ _ _ _ _ _
      cases kind <;> cases isConnective <;> rfl
  | _ => rfl

/-- An integer literal is at most `2 ^ 63 - 1`, the largest word. -/
def TokenKind.Fits : TokenKind → Prop
  | .int digits => Text.digitsValue digits.toList ≤ 9223372036854775807
  | _ => True

/-! ## Sorts of derivations -/

namespace TokenKind

theorem isSome_literal?_int {digits : String}
    (proper : (TokenKind.int digits).Proper) :
    (TokenKind.int digits).literal?.isSome = true ↔
      (TokenKind.int digits).Fits := by
  have bounds : Word.InRange (Text.digitsValue digits.toList : Int) ↔
      Text.digitsValue digits.toList ≤ 9223372036854775807 := by
    have least : Int64.minValue.toInt = -9223372036854775808 := by decide
    have greatest : Int64.maxValue.toInt = 9223372036854775807 := by decide
    rw [Word.InRange, least, greatest]
    omega
  rw [literal?, Text.readInteger?_digits proper.1 proper.2,
    Option.bind_some, Word.ofInt?, Fits, ← bounds]
  split <;> simp_all

theorem isSome_name?_ident {text : String}
    (proper : (TokenKind.ident text).Proper) :
    (TokenKind.ident text).name?.isSome = true := by
  simp [name?, Name.ofString?, proper.1]

end TokenKind

def Phrase.Means (phrase : Phrase) : TermSort → Prop
  | .formula => phrase.formula?.isSome = true
  | .arith => phrase.arith?.isSome = true

structure Phrase.Sorted (phrase : Phrase) : Prop where
  means (sort : TermSort) : phrase.Means sort ↔
    phrase.tree.OfSort sort ∧ ∀ token ∈ phrase.yield, token.kind.Fits
  argument : phrase.tree.kind.separates = false

def Arguments.Sorted (args : Arguments) : Prop :=
  args.values?.isSome = true ↔
    (∀ item ∈ args.items, item.kind.separates = false →
      item.OfSort .arith) ∧
    ∀ token ∈ args.yield, token.kind.Fits

namespace Phrase

variable {left right body : Phrase} {op opening closing : Token}

theorem sorted_infixed (asks gives : TermSort)
    (means : ∀ sort, (infixed left op right).Means sort ↔
      sort = gives ∧ left.Means asks ∧ right.Means asks)
    (sorts : ∀ sort, (infixed left op right).tree.OfSort sort ↔
      sort = gives ∧ left.tree.OfSort asks ∧ right.tree.OfSort asks)
    (argument : (infixed left op right).tree.kind.separates = false)
    (fits : op.kind.Fits) (hleft : left.Sorted) (hright : right.Sorted) :
    (infixed left op right).Sorted := by
  refine ⟨fun sort => ?_, argument⟩
  rw [means, sorts, hleft.means, hright.means, forall_yield_infixed]
  simp [fits, and_assoc, and_left_comm]

theorem isSome_iff_of_eq_some_iff {α β γ : Type} {whole : Option γ}
    {first : Option α} {second : Option β} (combine : α → β → γ)
    (h : ∀ value, whole = some value ↔ ∃ a b, first = some a ∧
      second = some b ∧ combine a b = value) :
    whole.isSome = true ↔ first.isSome = true ∧ second.isSome = true := by
  simp only [Option.isSome_iff_exists, h]
  constructor
  · rintro ⟨_, a, b, isFirst, isSecond, -⟩
    exact ⟨⟨a, isFirst⟩, ⟨b, isSecond⟩⟩
  · rintro ⟨⟨a, isFirst⟩, ⟨b, isSecond⟩⟩
    exact ⟨combine a b, a, b, isFirst, isSecond, rfl⟩

private theorem sorted_connective {connective : Connective}
    (isOp : op.kind.connective? = some connective) (hleft : left.Sorted)
    (hright : right.Sorted) : (infixed left op right).Sorted := by
  have formula : (infixed left op right).formula?.isSome = true ↔
      left.formula?.isSome = true ∧ right.formula?.isSome = true :=
    isSome_iff_of_eq_some_iff (Formula.connect connective) fun _ =>
      formula?_connect_eq_some_iff isOp
  obtain ⟨kind, span⟩ := op
  cases kind <;> cases isOp
  all_goals
    refine sorted_infixed .formula .formula (fun sort => ?_)
      (fun sort => ?_) rfl trivial hleft hright
    · cases sort <;> simp [Means, formula, Phrase.arith?, TokenKind.arithOp?]
    · constructor
      · intro h
        cases h with
        | connective _ first second => exact ⟨rfl, first, second⟩
      · rintro ⟨rfl, first, second⟩
        exact .connective rfl first second

private theorem sorted_compare {compare : CompareOp}
    (isOp : op.kind.compareOp? = some compare) (hleft : left.Sorted)
    (hright : right.Sorted) : (infixed left op right).Sorted := by
  have formula : (infixed left op right).formula?.isSome = true ↔
      left.arith?.isSome = true ∧ right.arith?.isSome = true :=
    isSome_iff_of_eq_some_iff (Formula.compare compare) fun _ =>
      formula?_compare_eq_some_iff isOp
  obtain ⟨kind, span⟩ := op
  cases kind <;> cases isOp
  all_goals
    refine sorted_infixed .arith .formula (fun sort => ?_)
      (fun sort => ?_) rfl trivial hleft hright
    · cases sort <;> simp [Means, formula, Phrase.arith?, TokenKind.arithOp?]
    · constructor
      · intro h
        cases h with
        | connective isConnective => cases isConnective
        | comparison first second => exact ⟨rfl, first, second⟩
      · rintro ⟨rfl, first, second⟩
        exact .comparison first second

private theorem sorted_operation {operation : ArithOp}
    (isOp : op.kind.arithOp? = some operation) (hleft : left.Sorted)
    (hright : right.Sorted) : (infixed left op right).Sorted := by
  have arith : (infixed left op right).arith?.isSome = true ↔
      left.arith?.isSome = true ∧ right.arith?.isSome = true :=
    isSome_iff_of_eq_some_iff (Arith.binary operation) fun _ => by
      simp [isOp]
  obtain ⟨kind, span⟩ := op
  cases kind <;> cases isOp
  all_goals
    refine sorted_infixed .arith .arith (fun sort => ?_)
      (fun sort => ?_) rfl trivial hleft hright
    · cases sort <;> simp [Means, arith, Phrase.formula?,
        TokenKind.connective?, TokenKind.compareOp?]
    · constructor
      · intro h
        cases h with
        | connective isConnective => cases isConnective
        | operation first second => exact ⟨rfl, first, second⟩
      · rintro ⟨rfl, first, second⟩
        exact .operation first second

private theorem sorted_prefixed (gives : TermSort)
    (means : ∀ sort, (prefixed op body).Means sort ↔
      sort = gives ∧ body.Means gives)
    (sorts : ∀ sort, (prefixed op body).tree.OfSort sort ↔
      sort = gives ∧ body.tree.OfSort gives)
    (argument : (prefixed op body).tree.kind.separates = false)
    (fits : op.kind.Fits) (h : body.Sorted) : (prefixed op body).Sorted := by
  refine ⟨fun sort => ?_, argument⟩
  rw [means, sorts, h.means, forall_yield_prefixed]
  simp [fits, and_assoc]

private theorem sorted_not (isOp : op.kind = .bang) (h : body.Sorted) :
    (prefixed op body).Sorted := by
  obtain ⟨kind, span⟩ := op
  cases isOp
  refine sorted_prefixed .formula (fun sort => ?_) (fun sort => ?_) rfl
    trivial h
  · cases sort <;> simp [Means, Phrase.arith?, Phrase.formula?]
  · constructor
    · intro h
      cases h with
      | negation inner => exact ⟨rfl, inner⟩
    · rintro ⟨rfl, inner⟩
      exact .negation inner

private theorem sorted_sign (isOp : op.kind.isSum = true) (h : body.Sorted) :
    (prefixed op body).Sorted := by
  obtain ⟨kind, span⟩ := op
  cases kind <;> cases isOp
  all_goals
    refine sorted_prefixed .arith (fun sort => ?_) (fun sort => ?_) rfl
      trivial h
    · cases sort <;> cases found : body.arith? <;>
        simp [Means, Phrase.arith?, Phrase.formula?, found]
    · constructor
      · intro h
        cases h with
        | signed inner => exact ⟨rfl, inner⟩
      · rintro ⟨rfl, inner⟩
        exact .signed inner

theorem sorted_atom {token : Token} (gives : TermSort)
    (means : ∀ sort, (atom token).Means sort ↔
      sort = gives ∧ token.kind.Fits)
    (sorts : ∀ sort, (atom token).tree.OfSort sort ↔ sort = gives)
    (argument : (atom token).tree.kind.separates = false) :
    (atom token).Sorted := by
  refine ⟨fun sort => ?_, argument⟩
  rw [means, sorts]
  simp [yield]

private theorem sorted_number {token : Token} {digits : String}
    (isNumber : token.kind = .int digits) (proper : token.kind.Proper) :
    (atom token).Sorted := by
  obtain ⟨kind, span⟩ := token
  cases isNumber
  have literal := TokenKind.isSome_literal?_int proper
  refine sorted_atom .arith (fun sort => ?_) (fun sort => ?_) rfl
  · cases sort <;> simp [Means, Phrase.arith?, Phrase.formula?, literal,
      TokenKind.name?]
  · constructor
    · intro h
      cases h
      rfl
    · rintro rfl
      exact .number

private theorem sorted_truth {token : Token}
    (isTruth : token.kind = .kwTrue ∨ token.kind = .kwFalse) :
    (atom token).Sorted := by
  obtain ⟨kind, span⟩ := token
  rcases isTruth with isTruth | isTruth
  all_goals
    cases isTruth
    refine sorted_atom .formula (fun sort => ?_) (fun sort => ?_) rfl
    · cases sort <;> simp [Means, Phrase.arith?, Phrase.formula?,
        TokenKind.name?, TokenKind.literal?, TokenKind.Fits]
    · constructor
      · intro h
        cases h
        rfl
      · rintro rfl
        exact .boolean

private theorem sorted_name {token : Token} {text : String}
    (isName : token.kind = .ident text) (proper : token.kind.Proper) :
    (atom token).Sorted := by
  obtain ⟨kind, span⟩ := token
  cases isName
  have name := TokenKind.isSome_name?_ident proper
  refine sorted_atom .arith (fun sort => ?_) (fun sort => ?_) rfl
  · cases sort <;> simp [Means, Phrase.arith?, Phrase.formula?, name,
      TokenKind.literal?, TokenKind.Fits]
  · constructor
    · intro h
      cases h
      rfl
    · rintro rfl
      exact .name

private theorem sorted_bracketed (isOpening : opening.kind = .lparen)
    (isClosing : closing.kind = .rparen) (h : body.Sorted) :
    (bracketed opening body closing).Sorted := by
  have means (sort : TermSort) :
      (bracketed opening body closing).Means sort ↔ body.Means sort := by
    cases sort <;> rfl
  have sorts (sort : TermSort) :
      (bracketed opening body closing).tree.OfSort sort ↔
        body.tree.OfSort sort := by
    rw [Phrase.tree]
    constructor
    · intro h
      split at h
      · cases h with
        | connective isConnective => cases isConnective
        | formulaParens inner => exact inner
      · cases h with
        | connective isConnective => cases isConnective
        | arithParens inner => exact inner
    · intro inner
      rw [inner.isFormula]
      cases sort with
      | formula => exact .formulaParens inner
      | arith => exact .arithParens inner
  have argument :
      (bracketed opening body closing).tree.kind.separates = false := by
    rw [Phrase.tree]
    split <;> rfl
  refine ⟨fun sort => ?_, argument⟩
  rw [means, sorts, h.means, forall_yield_bracketed]
  simp [isOpening, isClosing, TokenKind.Fits]

@[simp] theorem ofSort_application {sort : TermSort} {span inner : Span}
    {name opening : Tree} {items : List Tree} :
    (Tree.node .application span
      [name, .node .arguments inner (opening :: items)]).OfSort sort ↔
      sort = .formula ∧ ∀ item ∈ items, item.kind.separates = false →
        item.OfSort .arith := by
  constructor
  · intro h
    cases h with
    | application arguments => exact ⟨rfl, arguments⟩
  · rintro ⟨rfl, arguments⟩
    exact .application arguments

theorem separates_leaf {token : Token}
    (h : token.kind = .comma ∨ token.kind = .rparen) :
    token.leaf.kind.separates = true := by
  rcases h with h | h <;> simp [Token.leaf, Tree.leaf, Tree.kind, h,
    TokenKind.leafKind, NodeKind.separates]

private theorem sorted_emptyCall {name : Token} {text : String}
    (isName : name.kind = .ident text) (isOpening : opening.kind = .lparen)
    (isClosing : closing.kind = .rparen) (proper : name.kind.Proper) :
    (emptyCall name opening closing).Sorted := by
  rw [isName] at proper
  have symbol := TokenKind.isSome_name?_ident proper
  refine ⟨fun sort => ?_, rfl⟩
  rw [Phrase.tree, ofSort_application]
  cases sort <;> simp [Means, Phrase.arith?, Phrase.formula?, yield, isName,
    isOpening, isClosing, symbol, separates_leaf, TokenKind.Fits]

private theorem sorted_call {name : Token} {text : String} {args : Arguments}
    (isName : name.kind = .ident text) (isOpening : opening.kind = .lparen)
    (proper : name.kind.Proper) (h : args.Sorted) :
    (call name opening args).Sorted := by
  rw [isName] at proper
  have symbol := TokenKind.isSome_name?_ident proper
  have formula : (call name opening args).formula?.isSome = true ↔
      name.kind.name?.isSome = true ∧ args.values?.isSome = true :=
    isSome_iff_of_eq_some_iff Formula.predicate fun _ =>
      formula?_call_eq_some_iff
  rw [Arguments.Sorted] at h
  rw [isName, h] at formula
  refine ⟨fun sort => ?_, rfl⟩
  rw [Phrase.tree, ofSort_application, forall_yield_call]
  cases sort <;> simp [Means, Phrase.arith?, formula, isName, isOpening,
    symbol, TokenKind.Fits]

end Phrase

namespace Arguments

variable {arg : Phrase} {args : Arguments}

private theorem sorted_last {closing : Token}
    (isClosing : closing.kind = .rparen)
    (h : arg.Sorted) : (last arg closing).Sorted := by
  have arith : arg.arith?.isSome = true ↔ _ := h.means .arith
  have values : (last arg closing).values?.isSome = arg.arith?.isSome := by
    cases found : arg.arith? <;> simp [values?, found]
  rw [Sorted, values, arith, forall_yield_last]
  simp [items, h.argument, Phrase.separates_leaf, isClosing, TokenKind.Fits]

private theorem sorted_more {comma : Token} (isComma : comma.kind = .comma)
    (h : arg.Sorted) (hrest : args.Sorted) :
    (more arg comma args).Sorted := by
  have arith : arg.arith?.isSome = true ↔ _ := h.means .arith
  have values : (more arg comma args).values?.isSome = true ↔
      arg.arith?.isSome = true ∧ args.values?.isSome = true :=
    Phrase.isSome_iff_of_eq_some_iff List.cons fun _ =>
      values?_more_eq_some_iff
  rw [Sorted] at hrest ⊢
  rw [values, arith, hrest, forall_yield_more]
  simp [items, h.argument, Phrase.separates_leaf, isComma, TokenKind.Fits,
    and_assoc, and_left_comm]

end Arguments

private theorem Phrase.inherited_sorted :
    Phrase.Inherited (·.kind.Proper) Phrase.Sorted Arguments.Sorted where
  connective isOp _ := Phrase.sorted_connective isOp
  compare isOp _ := Phrase.sorted_compare isOp
  operation isOp _ := Phrase.sorted_operation isOp
  not isOp _ := Phrase.sorted_not isOp
  sign isOp _ := Phrase.sorted_sign isOp
  number := Phrase.sorted_number
  truth isTruth _ := Phrase.sorted_truth isTruth
  name := Phrase.sorted_name
  bracketed := Phrase.sorted_bracketed
  emptyCall := Phrase.sorted_emptyCall
  call := Phrase.sorted_call
  last := Arguments.sorted_last
  more := Arguments.sorted_more

theorem Derives.sorted {stratum : Stratum} {phrase : Phrase}
    (derived : Derives stratum phrase)
    (proper : ∀ token ∈ phrase.yield, token.kind.Proper) : phrase.Sorted :=
  derived.inherit Phrase.inherited_sorted proper

/-! ## Sorts of declarations -/

@[simp] theorem isSome_mapM {α β : Type} (f : α → Option β) (items : List α) :
    (items.mapM f).isSome = true ↔ ∀ item ∈ items, (f item).isSome = true := by
  induction items with
  | nil => simp
  | cons first rest ih =>
      rw [List.forall_mem_cons, ← ih, List.mapM_cons]
      cases f first <;> cases rest.mapM f <;> simp

private theorem isSome_mapM_bind {α β γ : Type} (f : α → Option β)
    {g : List β → Option γ}
    (total : ∀ first rest, (g (first :: rest)).isSome = true) (first : α)
    (rest : List α) :
    (((first :: rest).mapM f).bind g).isSome = true ↔
      ∀ item ∈ first :: rest, (f item).isSome = true := by
  rw [← isSome_mapM, List.mapM_cons]
  cases f first <;> cases rest.mapM f <;> simp [total]

@[simp] theorem Formula.isSome_conjoin? (first : Formula)
    (rest : List Formula) :
    (conjoin? (first :: rest)).isSome = true := by
  rw [conjoin?]
  split <;> rfl

theorem Statement.Derived.sorted {statement : Statement}
    (derived : statement.Derived)
    (proper : ∀ token ∈ statement.yield, token.kind.Proper) :
    statement.primitive?.isSome = true ↔
      statement.tree.StatementSorted ∧
        ∀ token ∈ statement.yield, token.kind.Fits := by
  cases derived with
  | @skip token semi isSkip isSemi =>
      have sorted : (Statement.skip token semi).tree.StatementSorted := .skip
      simp [Statement.primitive?, Statement.yield, isSkip, isSemi,
        TokenKind.Fits, sorted]
  | @assign name op semi text value isName isAssign derived isSemi =>
      simp only [Statement.yield, List.cons_append, List.forall_mem_cons,
        List.forall_mem_append, isName] at proper
      have symbol := TokenKind.isSome_name?_ident proper.1
      have arith : value.arith?.isSome = true ↔ _ :=
        (derived.sorted proper.2.2.1).means .arith
      have primitive : (Statement.assign name op value
          semi).primitive?.isSome = true ↔
            name.kind.name?.isSome = true ∧ value.arith?.isSome = true :=
        Phrase.isSome_iff_of_eq_some_iff Primitive.assign fun primitive => by
          simp [Statement.primitive?, Option.bind_eq_some_iff]
      have sort : (Statement.assign name op value
          semi).tree.StatementSorted ↔ value.tree.OfSort .arith := by
        constructor
        · intro h
          cases h with
          | assignment sorted => exact sorted
        · exact .assignment
      rw [primitive, sort, arith]
      simp [Statement.yield, isName, isAssign, isSemi, symbol,
        TokenKind.Fits, or_imp, forall_and]

@[simp] theorem Tree.wellSorted_assertion {span inner : Span}
    {formulas : List Tree} :
    (Tree.node .declaration span
      [.node .assertion inner formulas]).WellSorted ↔
      ∀ formula ∈ formulas, formula.OfSort .formula := by
  constructor
  · intro h
    cases h with
    | assertion sorted => exact sorted
  · exact .assertion

@[simp] theorem Tree.wellSorted_command {span inner : Span}
    {statements : List Tree} :
    (Tree.node .declaration span
      [.node .command inner statements]).WellSorted ↔
      ∀ statement ∈ statements, statement.StatementSorted := by
  constructor
  · intro h
    cases h with
    | command sorted => exact sorted
  · exact .command

theorem Sentence.forall_yield_assertion {holds : Token → Prop}
    {opening closing : Token} {first : Phrase}
    {further : List FurtherFormula} :
    (∀ token ∈ (Sentence.assertion opening first further closing).yield,
      holds token) ↔
      holds opening ∧ (∀ token ∈ first.yield, holds token) ∧
        (∀ formula ∈ further, holds formula.comma ∧
          ∀ token ∈ formula.formula.yield, holds token) ∧
        holds closing := by
  rw [Sentence.yield, List.forall_mem_append, List.forall_mem_append,
    List.forall_mem_cons, List.forall_mem_flatMap, List.forall_mem_singleton]
  simp only [FurtherFormula.yield, List.forall_mem_cons, and_assoc]

theorem forall_mem_iff_and {α : Type} {items : List α} {p q r : α → Prop}
    (each : ∀ item ∈ items, p item ↔ q item ∧ r item) :
    (∀ item ∈ items, p item) ↔
      (∀ item ∈ items, q item) ∧ ∀ item ∈ items, r item := by
  constructor
  · intro all
    exact ⟨fun item mem => ((each item mem).mp (all item mem)).1,
      fun item mem => ((each item mem).mp (all item mem)).2⟩
  · rintro ⟨first, second⟩ item mem
    exact (each item mem).mpr ⟨first item mem, second item mem⟩

theorem Sentence.sorted_assertion {opening closing : Token}
    {first : Phrase} {further : List FurtherFormula}
    (isOpening : opening.kind = .lbrace) (derived : Derives .implication first)
    (allDerived : ∀ formula ∈ further, formula.Derived)
    (isClosing : closing.kind = .rbrace)
    (proper : ∀ token ∈ (Sentence.assertion opening first further
      closing).yield, token.kind.Proper) (source : String) :
    ((Sentence.assertion opening first further closing).decl?
        source).isSome = true ↔
      (Sentence.assertion opening first further closing).tree.WellSorted ∧
        ∀ token ∈ (Sentence.assertion opening first further closing).yield,
          token.kind.Fits := by
  have denotes : ((Sentence.assertion opening first further
      closing).decl? source).isSome = true ↔
        ∀ phrase ∈ first :: further.map (·.formula),
          phrase.formula?.isSome = true := by
    refine isSome_mapM_bind Phrase.formula? (fun formula others => ?_)
      first (further.map (·.formula))
    have joined := formula.isSome_conjoin? others
    cases found : Formula.conjoin? (formula :: others) with
    | none => simp [found] at joined
    | some formula => rfl
  have sort : (Sentence.assertion opening first further
      closing).tree.WellSorted ↔
        ∀ phrase ∈ first :: further.map (·.formula),
          phrase.tree.OfSort .formula := by
    rw [Sentence.tree, Sentence.body, Tree.wellSorted_assertion]
    simp
  have opens : opening.kind.Fits := isOpening ▸ trivial
  have closes : closing.kind.Fits := isClosing ▸ trivial
  have commas : ∀ formula ∈ further, formula.comma.kind.Fits :=
    fun formula mem => (allDerived formula mem).comma ▸ trivial
  have fits : (∀ token ∈ (Sentence.assertion opening first further
      closing).yield, token.kind.Fits) ↔
        ∀ phrase ∈ first :: further.map (·.formula),
          ∀ token ∈ phrase.yield, token.kind.Fits := by
    rw [Sentence.forall_yield_assertion, List.forall_mem_cons,
      List.forall_mem_map]
    simp +contextual [opens, closes, commas]
  rw [Sentence.forall_yield_assertion] at proper
  have each : ∀ phrase ∈ first :: further.map (·.formula),
      phrase.formula?.isSome = true ↔ phrase.tree.OfSort .formula ∧
        ∀ token ∈ phrase.yield, token.kind.Fits := by
    rw [List.forall_mem_cons, List.forall_mem_map]
    refine ⟨(derived.sorted proper.2.1).means .formula,
      fun formula mem => ?_⟩
    exact ((allDerived formula mem).formula.sorted
      (proper.2.2.1 formula mem).2).means .formula
  rw [denotes, sort, fits, forall_mem_iff_and each]

theorem Sentence.sorted_command {first : Statement}
    {others : List Statement} (derived : first.Derived)
    (allDerived : ∀ statement ∈ others, statement.Derived)
    (proper : ∀ token ∈ (Sentence.command first others).yield,
      token.kind.Proper) (source : String) :
    ((Sentence.command first others).decl? source).isSome = true ↔
      (Sentence.command first others).tree.WellSorted ∧
        ∀ token ∈ (Sentence.command first others).yield,
          token.kind.Fits := by
  have denotes : ((Sentence.command first others).decl? source).isSome =
      true ↔ ∀ statement ∈ first :: others,
        statement.primitive?.isSome = true :=
    isSome_mapM_bind Statement.primitive? (fun _ _ => rfl) first others
  have sort : (Sentence.command first others).tree.WellSorted ↔
      ∀ statement ∈ first :: others, statement.tree.StatementSorted := by
    rw [Sentence.tree, Sentence.body, Tree.wellSorted_command]
    simp
  have each : ∀ statement ∈ first :: others,
      statement.primitive?.isSome = true ↔
        statement.tree.StatementSorted ∧
          ∀ token ∈ statement.yield, token.kind.Fits := by
    intro statement mem
    have derived :=
      List.forall_mem_cons.mpr ⟨derived, allDerived⟩ statement mem
    refine derived.sorted fun token inside => ?_
    exact proper token (List.mem_flatMap.mpr ⟨statement, mem, inside⟩)
  rw [denotes, sort, Sentence.yield, List.forall_mem_flatMap,
    forall_mem_iff_and each]

theorem Sentence.Derived.sorted {sentence : Sentence}
    (derived : sentence.Derived)
    (proper : ∀ token ∈ sentence.yield, token.kind.Proper)
    (source : String) :
    (sentence.decl? source).isSome = true ↔
      sentence.tree.WellSorted ∧
        ∀ token ∈ sentence.yield, token.kind.Fits := by
  cases derived with
  | assertion isOpening derived allDerived isClosing =>
      exact Sentence.sorted_assertion isOpening derived allDerived isClosing
        proper source
  | command derived allDerived =>
      exact Sentence.sorted_command derived allDerived proper source

end ProofOutline
