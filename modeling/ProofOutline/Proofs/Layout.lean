import Mathlib.Data.List.Forall2
import ProofOutline.Proofs.Printing

/-!
# Layout

Derivations whose tokens are of the same kinds, wherever the tokens stand,
take the same room and denote the same syntax.  So blanks and comments between
the tokens of a source change neither what it denotes nor the stage at which
it is refused.
-/

namespace ProofOutline

/-! ## Tokens of the same kinds -/

/-- Token for token of the same kind, wherever the tokens stand. -/
def SameKinds (tokens others : List Token) : Prop :=
  tokens.map Token.kind = others.map Token.kind

namespace SameKinds

variable {token : Token} {tokens rest others : List Token}

theorem symm (h : SameKinds tokens others) : SameKinds others tokens :=
  Eq.symm h

theorem nil (h : SameKinds [] others) : others = [] := by
  simpa [SameKinds] using h

theorem cons (h : SameKinds (token :: tokens) others) :
    ∃ other more, others = other :: more ∧ token.kind = other.kind ∧
      SameKinds tokens more := by
  obtain ⟨other, more, eq, kind, kinds⟩ := List.map_eq_cons_iff.mp h.symm
  exact ⟨other, more, eq, kind.symm, kinds.symm⟩

theorem singleton (h : SameKinds [token] others) :
    ∃ other, others = [other] ∧ token.kind = other.kind := by
  obtain ⟨other, more, rfl, kind, kinds⟩ := h.cons
  cases kinds.nil
  exact ⟨other, rfl, kind⟩

theorem append (h : SameKinds (tokens ++ rest) others) :
    ∃ first second, others = first ++ second ∧ SameKinds tokens first ∧
      SameKinds rest second := by
  rw [SameKinds, List.map_append] at h
  obtain ⟨first, second, eq, kinds, more⟩ := List.map_eq_append_iff.mp h.symm
  exact ⟨first, second, eq, kinds.symm, more.symm⟩

end SameKinds

/-! ## Phrases -/

mutual

inductive Phrase.Alike : Phrase → Phrase → Prop
  | atom {token token' : Token} :
      token.kind = token'.kind → Phrase.Alike (.atom token) (.atom token')
  | prefixed {op op' : Token} {body body' : Phrase} :
      op.kind = op'.kind → Phrase.Alike body body' →
      Phrase.Alike (.prefixed op body) (.prefixed op' body')
  | infixed {left left' right right' : Phrase} {op op' : Token} :
      Phrase.Alike left left' → op.kind = op'.kind →
      Phrase.Alike right right' →
      Phrase.Alike (.infixed left op right) (.infixed left' op' right')
  | bracketed {opening opening' closing closing' : Token}
      {inner inner' : Phrase} :
      opening.kind = opening'.kind → Phrase.Alike inner inner' →
      closing.kind = closing'.kind →
      Phrase.Alike (.bracketed opening inner closing)
        (.bracketed opening' inner' closing')
  | emptyCall {name name' opening opening' closing closing' : Token} :
      name.kind = name'.kind → opening.kind = opening'.kind →
      closing.kind = closing'.kind →
      Phrase.Alike (.emptyCall name opening closing)
        (.emptyCall name' opening' closing')
  | call {name name' opening opening' : Token} {args args' : Arguments} :
      name.kind = name'.kind → opening.kind = opening'.kind →
      Arguments.Alike args args' →
      Phrase.Alike (.call name opening args) (.call name' opening' args')

inductive Arguments.Alike : Arguments → Arguments → Prop
  | last {arg arg' : Phrase} {closing closing' : Token} :
      Phrase.Alike arg arg' → closing.kind = closing'.kind →
      Arguments.Alike (.last arg closing) (.last arg' closing')
  | more {arg arg' : Phrase} {comma comma' : Token}
      {rest rest' : Arguments} :
      Phrase.Alike arg arg' → comma.kind = comma'.kind →
      Arguments.Alike rest rest' →
      Arguments.Alike (.more arg comma rest) (.more arg' comma' rest')

end

mutual

theorem Phrase.exists_alike : ∀ (phrase : Phrase) {tokens : List Token},
    SameKinds phrase.yield tokens →
    ∃ other : Phrase, phrase.Alike other ∧ other.yield = tokens
  | .atom token, tokens, same => by
      obtain ⟨other, rfl, kind⟩ := same.singleton
      exact ⟨.atom other, .atom kind, rfl⟩
  | .prefixed op body, tokens, same => by
      obtain ⟨op', rest, rfl, kind, same⟩ := same.cons
      obtain ⟨body', alike, rfl⟩ := body.exists_alike same
      exact ⟨.prefixed op' body', .prefixed kind alike, rfl⟩
  | .infixed left op right, tokens, same => by
      obtain ⟨_, rest, rfl, same, more⟩ := same.append
      obtain ⟨left', first, rfl⟩ := left.exists_alike same
      obtain ⟨op', rest, rfl, kind, same⟩ := more.cons
      obtain ⟨right', second, rfl⟩ := right.exists_alike same
      exact ⟨.infixed left' op' right', .infixed first kind second, rfl⟩
  | .bracketed opening inner closing, tokens, same => by
      obtain ⟨_, rest, rfl, same, more⟩ := same.append
      obtain ⟨opening', _, rfl, opens, same⟩ := same.cons
      obtain ⟨inner', alike, rfl⟩ := inner.exists_alike same
      obtain ⟨closing', rfl, closes⟩ := more.singleton
      exact ⟨.bracketed opening' inner' closing',
        .bracketed opens alike closes, rfl⟩
  | .emptyCall name opening closing, tokens, same => by
      obtain ⟨name', _, rfl, named, same⟩ := same.cons
      obtain ⟨opening', _, rfl, opens, same⟩ := same.cons
      obtain ⟨closing', rfl, closes⟩ := same.singleton
      exact ⟨.emptyCall name' opening' closing',
        .emptyCall named opens closes, rfl⟩
  | .call name opening args, tokens, same => by
      obtain ⟨name', _, rfl, named, same⟩ := same.cons
      obtain ⟨opening', _, rfl, opens, same⟩ := same.cons
      obtain ⟨args', alike, rfl⟩ := args.exists_alike same
      exact ⟨.call name' opening' args', .call named opens alike, rfl⟩

theorem Arguments.exists_alike : ∀ (args : Arguments) {tokens : List Token},
    SameKinds args.yield tokens →
    ∃ others : Arguments, args.Alike others ∧ others.yield = tokens
  | .last arg closing, tokens, same => by
      obtain ⟨_, rest, rfl, same, more⟩ := same.append
      obtain ⟨arg', alike, rfl⟩ := arg.exists_alike same
      obtain ⟨closing', rfl, closes⟩ := more.singleton
      exact ⟨.last arg' closing', .last alike closes, rfl⟩
  | .more arg comma rest, tokens, same => by
      obtain ⟨_, _, rfl, same, more⟩ := same.append
      obtain ⟨arg', first, rfl⟩ := arg.exists_alike same
      obtain ⟨comma', _, rfl, separates, same⟩ := more.cons
      obtain ⟨rest', second, rfl⟩ := rest.exists_alike same
      exact ⟨.more arg' comma' rest', .more first separates second, rfl⟩

end

mutual

theorem Derives.of_alike : ∀ {stratum : Stratum} {phrase other : Phrase},
    Derives stratum phrase → phrase.Alike other → Derives stratum other
  | _, _, _, .implies left isOp right, .infixed first kind second =>
      .implies (left.of_alike first) (kind ▸ isOp) (right.of_alike second)
  | _, _, _, .disjunction derived, alike =>
      .disjunction (derived.of_alike alike)
  | _, _, _, .or left isOp right, .infixed first kind second =>
      .or (left.of_alike first) (kind ▸ isOp) (right.of_alike second)
  | _, _, _, .conjunction derived, alike =>
      .conjunction (derived.of_alike alike)
  | _, _, _, .and left isOp right, .infixed first kind second =>
      .and (left.of_alike first) (kind ▸ isOp) (right.of_alike second)
  | _, _, _, .negation derived, alike => .negation (derived.of_alike alike)
  | _, _, _, .not isOp body, .prefixed kind alike =>
      .not (kind ▸ isOp) (body.of_alike alike)
  | _, _, _, .comparison derived, alike =>
      .comparison (derived.of_alike alike)
  | _, _, _, .compare left isOp right, .infixed first kind second =>
      .compare (left.of_alike first) (kind ▸ isOp) (right.of_alike second)
  | _, _, _, .sum derived, alike => .sum (derived.of_alike alike)
  | _, _, _, .add left isOp right, .infixed first kind second =>
      .add (left.of_alike first) (kind ▸ isOp) (right.of_alike second)
  | _, _, _, .product derived, alike => .product (derived.of_alike alike)
  | _, _, _, .multiply left isOp right, .infixed first kind second =>
      .multiply (left.of_alike first) (kind ▸ isOp) (right.of_alike second)
  | _, _, _, .unary derived, alike => .unary (derived.of_alike alike)
  | _, _, _, .sign isOp body, .prefixed kind alike =>
      .sign (kind ▸ isOp) (body.of_alike alike)
  | _, _, _, .primary derived, alike => .primary (derived.of_alike alike)
  | _, _, _, .number isNumber, .atom kind => .number (kind ▸ isNumber)
  | _, _, _, .truth isTruth, .atom kind => .truth (kind ▸ isTruth)
  | _, _, _, .name isName, .atom kind => .name (kind ▸ isName)
  | _, _, _, .bracketed opening inner closing, .bracketed opens alike closes =>
      .bracketed (opens ▸ opening) (inner.of_alike alike) (closes ▸ closing)
  | _, _, _, .emptyCall isName opening closing, .emptyCall named opens closes =>
      .emptyCall (named ▸ isName) (opens ▸ opening) (closes ▸ closing)
  | _, _, _, .call isName opening args, .call named opens alike =>
      .call (named ▸ isName) (opens ▸ opening) (args.of_alike alike)

theorem DerivesArguments.of_alike : ∀ {args others : Arguments},
    DerivesArguments args → args.Alike others → DerivesArguments others
  | _, _, .last arg closing, .last alike closes =>
      .last (arg.of_alike alike) (closes ▸ closing)
  | _, _, .more arg comma rest, .more first separates second =>
      .more (arg.of_alike first) (separates ▸ comma) (rest.of_alike second)

end

private theorem Phrase.Alike.links_eq (stratum : Stratum)
    {phrase other : Phrase} (alike : phrase.Alike other) :
    phrase.links stratum = other.links stratum := by
  cases alike with
  | infixed left kind right =>
      simp only [Phrase.links, kind, left.links_eq stratum]
  | _ => rfl

mutual

theorem Phrase.Alike.cost_eq : ∀ {phrase other : Phrase},
    phrase.Alike other → phrase.cost = other.cost
  | _, _, .atom _ => rfl
  | _, _, .prefixed _ body => by simp only [Phrase.cost, body.cost_eq]
  | _, _, .infixed left kind right => by
      simp only [Phrase.cost, kind, left.cost_eq, right.cost_eq,
        left.links_eq]
  | _, _, .bracketed _ inner _ => by simp only [Phrase.cost, inner.cost_eq]
  | _, _, .emptyCall _ _ _ => rfl
  | _, _, .call _ _ args => by simp only [Phrase.cost, args.cost_eq]

theorem Arguments.Alike.cost_eq : ∀ {args others : Arguments},
    args.Alike others → args.cost = others.cost
  | _, _, .last arg _ => by simp only [Arguments.cost, arg.cost_eq]
  | _, _, .more arg _ rest => by
      simp only [Arguments.cost, arg.cost_eq, rest.cost_eq]

end

mutual

theorem Phrase.Alike.arith?_eq : ∀ {phrase other : Phrase},
    phrase.Alike other → phrase.arith? = other.arith?
  | _, _, .atom kind => by simp only [Phrase.arith?, kind]
  | _, _, .prefixed kind body => by
      simp only [Phrase.arith?, kind, body.arith?_eq]
  | _, _, .infixed left kind right => by
      simp only [Phrase.arith?, kind, left.arith?_eq, right.arith?_eq]
  | _, _, .bracketed _ inner _ => by
      simp only [Phrase.arith?, inner.arith?_eq]
  | _, _, .emptyCall _ _ _ => rfl
  | _, _, .call _ _ _ => rfl

private theorem Arguments.Alike.values?_eq : ∀ {args others : Arguments},
    args.Alike others → args.values? = others.values?
  | _, _, .last arg _ => by simp only [Arguments.values?, arg.arith?_eq]
  | _, _, .more arg _ rest => by
      simp only [Arguments.values?, arg.arith?_eq, rest.values?_eq]

end

theorem Phrase.Alike.formula?_eq : ∀ {phrase other : Phrase},
    phrase.Alike other → phrase.formula? = other.formula?
  | _, _, .atom kind => by simp only [Phrase.formula?, kind]
  | _, _, .prefixed kind body => by
      simp only [Phrase.formula?, kind, body.formula?_eq]
  | _, _, .infixed left kind right => by
      simp only [Phrase.formula?, kind, left.formula?_eq, right.formula?_eq,
        left.arith?_eq, right.arith?_eq]
  | _, _, .bracketed _ inner _ => by
      simp only [Phrase.formula?, inner.formula?_eq]
  | _, _, .emptyCall kind _ _ => by simp only [Phrase.formula?, kind]
  | _, _, .call kind _ args => by
      simp only [Phrase.formula?, kind, args.values?_eq]

/-! ## Declarations -/

inductive Statement.Alike : Statement → Statement → Prop
  | skip {token token' semi semi' : Token} :
      token.kind = token'.kind → semi.kind = semi'.kind →
      Alike (.skip token semi) (.skip token' semi')
  | assign {name name' op op' semi semi' : Token} {value value' : Phrase} :
      name.kind = name'.kind → op.kind = op'.kind → value.Alike value' →
      semi.kind = semi'.kind →
      Alike (.assign name op value semi) (.assign name' op' value' semi')

structure FurtherFormula.Alike (further other : FurtherFormula) : Prop where
  comma : further.comma.kind = other.comma.kind
  formula : further.formula.Alike other.formula

inductive Sentence.Alike : Sentence → Sentence → Prop
  | assertion {opening opening' closing closing' : Token}
      {first first' : Phrase} {rest rest' : List FurtherFormula} :
      opening.kind = opening'.kind → first.Alike first' →
      List.Forall₂ FurtherFormula.Alike rest rest' →
      closing.kind = closing'.kind →
      Alike (.assertion opening first rest closing)
        (.assertion opening' first' rest' closing')
  | command {first first' : Statement} {rest rest' : List Statement} :
      first.Alike first' → List.Forall₂ Statement.Alike rest rest' →
      Alike (.command first rest) (.command first' rest')

theorem Statement.exists_alike (statement : Statement) {tokens : List Token}
    (same : SameKinds statement.yield tokens) :
    ∃ other : Statement, statement.Alike other ∧ other.yield = tokens := by
  cases statement with
  | skip token semi =>
      obtain ⟨token', _, rfl, kind, same⟩ := same.cons
      obtain ⟨semi', rfl, ends⟩ := same.singleton
      exact ⟨.skip token' semi', .skip kind ends, rfl⟩
  | assign name op value semi =>
      obtain ⟨_, _, rfl, same, more⟩ := same.append
      obtain ⟨name', _, rfl, named, same⟩ := same.cons
      obtain ⟨op', _, rfl, assigns, same⟩ := same.cons
      obtain ⟨value', alike, rfl⟩ := value.exists_alike same
      obtain ⟨semi', rfl, ends⟩ := more.singleton
      exact ⟨.assign name' op' value' semi',
        .assign named assigns alike ends, rfl⟩

theorem FurtherFormula.exists_alike (further : FurtherFormula)
    {tokens : List Token} (same : SameKinds further.yield tokens) :
    ∃ other : FurtherFormula, further.Alike other ∧ other.yield = tokens := by
  obtain ⟨comma, _, rfl, separates, same⟩ := same.cons
  obtain ⟨formula, alike, rfl⟩ := further.formula.exists_alike same
  exact ⟨⟨comma, formula⟩, ⟨separates, alike⟩, rfl⟩

private theorem exists_forall₂_alike {α : Type} {yield : α → List Token}
    {alike : α → α → Prop} (each : ∀ (item : α) {tokens : List Token},
      SameKinds (yield item) tokens →
      ∃ other, alike item other ∧ yield other = tokens)
    (items : List α) {tokens : List Token}
    (same : SameKinds (items.flatMap yield) tokens) :
    ∃ others, List.Forall₂ alike items others ∧
      others.flatMap yield = tokens := by
  induction items generalizing tokens with
  | nil =>
      cases same.nil
      exact ⟨[], .nil, rfl⟩
  | cons item items ih =>
      obtain ⟨_, _, rfl, same, more⟩ := same.append
      obtain ⟨other, alike, rfl⟩ := each item same
      obtain ⟨others, allAlike, rfl⟩ := ih more
      exact ⟨other :: others, .cons alike allAlike, rfl⟩

theorem Sentence.exists_alike (sentence : Sentence) {tokens : List Token}
    (same : SameKinds sentence.yield tokens) :
    ∃ other : Sentence, sentence.Alike other ∧ other.yield = tokens := by
  cases sentence with
  | assertion opening first rest closing =>
      obtain ⟨_, _, rfl, same, last⟩ := same.append
      obtain ⟨_, _, rfl, same, more⟩ := same.append
      obtain ⟨opening', _, rfl, opens, same⟩ := same.cons
      obtain ⟨first', alike, rfl⟩ := first.exists_alike same
      obtain ⟨rest', allAlike, rfl⟩ :=
        exists_forall₂_alike FurtherFormula.exists_alike rest more
      obtain ⟨closing', rfl, closes⟩ := last.singleton
      exact ⟨.assertion opening' first' rest' closing',
        .assertion opens alike allAlike closes, rfl⟩
  | command first rest =>
      obtain ⟨statements, allAlike, rfl⟩ :=
        exists_forall₂_alike Statement.exists_alike (first :: rest) same
      cases allAlike with
      | cons alike others => exact ⟨.command _ _, .command alike others, rfl⟩

theorem Statement.Derived.of_alike {statement other : Statement}
    (derived : statement.Derived) (alike : statement.Alike other) :
    other.Derived := by
  cases derived with
  | skip isSkip isSemi =>
      cases alike with
      | skip kind ends => exact .skip (kind ▸ isSkip) (ends ▸ isSemi)
  | assign isName isAssign value isSemi =>
      cases alike with
      | assign named assigns alike ends =>
          exact .assign (named ▸ isName) (assigns ▸ isAssign)
            (value.of_alike alike) (ends ▸ isSemi)

theorem FurtherFormula.Derived.of_alike {further other : FurtherFormula}
    (derived : further.Derived) (alike : further.Alike other) :
    other.Derived :=
  ⟨alike.comma ▸ derived.comma, derived.formula.of_alike alike.formula⟩

section Forall₂

variable {α β : Type} {alike : α → α → Prop} {items others : List α}

private theorem forall_mem_of_forall₂ {holds : α → Prop}
    (h : List.Forall₂ alike items others) (all : ∀ item ∈ items, holds item)
    (step : ∀ item other, holds item → alike item other → holds other) :
    ∀ other ∈ others, holds other := by
  induction h with
  | nil => simp
  | cons alike _ ih =>
      rw [List.forall_mem_cons] at all ⊢
      exact ⟨step _ _ all.1 alike, ih all.2⟩

private theorem map_eq_of_forall₂ {f : α → β}
    (h : List.Forall₂ alike items others)
    (step : ∀ item other, alike item other → f item = f other) :
    items.map f = others.map f := by
  induction h with
  | nil => rfl
  | cons alike _ ih => rw [List.map_cons, List.map_cons, step _ _ alike, ih]

private theorem mapM_eq_of_forall₂ {f : α → Option β}
    (h : List.Forall₂ alike items others)
    (step : ∀ item other, alike item other → f item = f other) :
    items.mapM f = others.mapM f := by
  induction h with
  | nil => rfl
  | cons alike _ ih =>
      rw [List.mapM_cons, List.mapM_cons, step _ _ alike, ih]

end Forall₂

theorem Sentence.Derived.of_alike {sentence other : Sentence}
    (derived : sentence.Derived) (alike : sentence.Alike other) :
    other.Derived := by
  cases derived with
  | assertion isOpening first further isClosing =>
      cases alike with
      | assertion opens alike allAlike closes =>
          have rest := forall_mem_of_forall₂ allAlike further
            fun _ _ => FurtherFormula.Derived.of_alike
          exact .assertion (opens ▸ isOpening) (first.of_alike alike) rest
            (closes ▸ isClosing)
  | command first others =>
      cases alike with
      | command alike allAlike =>
          have rest := forall_mem_of_forall₂ allAlike others
            fun _ _ => Statement.Derived.of_alike
          exact .command (first.of_alike alike) rest

private theorem FurtherFormula.costs_eq {further others : List FurtherFormula}
    (h : List.Forall₂ FurtherFormula.Alike further others) :
    costs further = costs others := by
  induction h with
  | nil => rfl
  | cons alike _ ih => simp only [costs, alike.formula.cost_eq, ih]

namespace Statement.Alike

variable {statement other : Statement}

theorem cost_eq (alike : statement.Alike other) :
    statement.cost = other.cost := by
  cases alike with
  | skip _ _ => rfl
  | assign _ _ value _ => simp only [Statement.cost, value.cost_eq]

private theorem primitive?_eq (alike : statement.Alike other) :
    statement.primitive? = other.primitive? := by
  cases alike with
  | skip _ _ => rfl
  | assign named _ value _ =>
      simp only [Statement.primitive?, named, value.arith?_eq]

end Statement.Alike

namespace Sentence.Alike

variable {sentence other : Sentence}

theorem cost_eq (alike : sentence.Alike other) :
    sentence.cost = other.cost := by
  cases alike with
  | assertion _ first rest _ =>
      simp only [Sentence.cost, first.cost_eq, FurtherFormula.costs_eq rest]
  | command first rest =>
      have costs := map_eq_of_forall₂ (.cons first rest)
        fun _ _ => Statement.Alike.cost_eq
      simp only [Sentence.cost, costs]

theorem decl?_eq (alike : sentence.Alike other) (source : String) :
    sentence.decl? source = other.decl? source := by
  cases alike with
  | assertion _ first rest _ =>
      have formulas := mapM_eq_of_forall₂
        (.cons first (List.forall₂_map_left_iff.mpr
          (List.forall₂_map_right_iff.mpr (rest.imp fun _ _ => (·.formula)))))
        fun _ _ => Phrase.Alike.formula?_eq
      simp only [Sentence.decl?, formulas]
  | command first rest =>
      have primitives := mapM_eq_of_forall₂ (.cons first rest)
        fun _ _ => Statement.Alike.primitive?_eq
      simp only [Sentence.decl?, primitives]

end Sentence.Alike

/-! ## Sources -/

private theorem Sentence.decl?_sameSyntax {sentence : Sentence}
    {source : String}
    {read : Decl} (h : sentence.decl? source = some read) (other : String) :
    ∃ again, sentence.decl? other = some again ∧
      read.sameSyntax again = true := by
  cases sentence with
  | assertion opening first rest closing =>
      obtain ⟨formulas, found, h⟩ := Option.bind_eq_some_iff.mp h
      obtain ⟨formula, joined, h⟩ := Option.bind_eq_some_iff.mp h
      cases h
      refine ⟨.assertion ⟨other, formula⟩, ?_, by simp [Decl.sameSyntax]⟩
      simp [Sentence.decl?, found, joined]
  | command first rest =>
      obtain ⟨primitives, found, h⟩ := Option.bind_eq_some_iff.mp h
      cases primitives with
      | nil => cases h
      | cons primitive primitives =>
          cases h
          refine ⟨.program ⟨other, ⟨primitive, primitives⟩⟩, ?_,
            by simp [Decl.sameSyntax]⟩
          simp [Sentence.decl?, found]

private theorem Sentence.decl?_eq_none {sentence : Sentence} {source : String}
    (h : sentence.decl? source = none) (other : String) :
    sentence.decl? other = none := by
  cases found : sentence.decl? other with
  | none => rfl
  | some read =>
      obtain ⟨again, denotes, -⟩ := decl?_sameSyntax found source
      rw [h] at denotes
      cases denotes

theorem Sentence.WrittenIn.exists_alike {text text' : List Char}
    {sentence : Sentence} (h : sentence.WrittenIn text)
    {tokens tokens' : List Token} (lexed : Token.lexChars text = .ok tokens)
    (lexed' : Token.lexChars text' = .ok tokens')
    (same : SameKinds tokens tokens') :
    ∃ other : Sentence, other.WrittenIn text' ∧ sentence.Alike other := by
  obtain ⟨eof, isEof, lexes⟩ := h.lexed
  have split := lexes.lexFrom.symm.trans lexed
  cases split
  obtain ⟨_, _, rfl, same, last⟩ := same.append
  obtain ⟨other, alike, rfl⟩ := sentence.exists_alike same
  obtain ⟨eof', rfl, ends⟩ := last.singleton
  exact ⟨other, ⟨h.derived.of_alike alike, eof', ends ▸ isEof,
    lexes_iff.mp lexed'⟩, alike⟩

namespace Source

variable {text text' : List Char} {tokens tokens' : List Token}

private theorem ofTokens_of_sameKinds (lexed : Token.lexChars text = .ok tokens)
    (lexed' : Token.lexChars text' = .ok tokens')
    (same : SameKinds tokens tokens') {tree : Tree}
    (parsed : Tree.ofTokens tokens = .ok tree) :
    ∃ tree', Tree.ofTokens tokens' = .ok tree' := by
  obtain ⟨sentence, written, fits, -⟩ :=
    exists_of_ofTokens lexed parsed
  obtain ⟨other, written', alike⟩ := written.exists_alike lexed lexed' same
  rw [alike.cost_eq] at fits
  obtain ⟨_, again, parsed'⟩ := written'.parsed fits
  cases lexed'.symm.trans again
  exact ⟨other.tree, parsed'⟩

private theorem ofTokens_error_of_sameKinds
    (lexed : Token.lexChars text = .ok tokens)
    (lexed' : Token.lexChars text' = .ok tokens')
    (same : SameKinds tokens tokens') {error : SyntaxError}
    (failed : Tree.ofTokens tokens = .error error) :
    ∃ error', Tree.ofTokens tokens' = .error error' := by
  cases parsed : Tree.ofTokens tokens' with
  | error error' => exact ⟨error', rfl⟩
  | ok tree' =>
      obtain ⟨tree, found⟩ :=
        ofTokens_of_sameKinds lexed' lexed same.symm parsed
      rw [failed] at found
      cases found

/--
Sources with tokens of the same kinds denote the same syntax, or neither is a
declaration, or both are declarations that denote nothing.
-/
theorem parse_layout {source source' : String} {tokens tokens' : List Token}
    (lexed : Token.lexChars (Text.trimChars source.toList) = .ok tokens)
    (lexed' : Token.lexChars (Text.trimChars source'.toList) = .ok tokens')
    (same : tokens.map Token.kind = tokens'.map Token.kind) :
    (∃ decl decl', parse source = .ok decl ∧ parse source' = .ok decl' ∧
      decl.sameSyntax decl' = true) ∨
    (∃ error error', parse source = .error (.grammar error) ∧
      parse source' = .error (.grammar error')) ∨
    ∃ error error', parse source = .error (.reading error) ∧
      parse source' = .error (.reading error') := by
  cases parsed : Tree.ofTokens tokens with
  | error error =>
      obtain ⟨error', failed⟩ :=
        ofTokens_error_of_sameKinds lexed lexed' same parsed
      exact .inr (.inl ⟨error, error',
        parseChars_eq_grammar_iff.mpr ⟨tokens, lexed, parsed⟩,
        parseChars_eq_grammar_iff.mpr ⟨tokens', lexed', failed⟩⟩)
  | ok tree =>
      obtain ⟨sentence, written, fits, -⟩ :=
        exists_of_ofTokens lexed parsed
      obtain ⟨other, written', alike⟩ :=
        written.exists_alike lexed lexed' same
      have fits' : other.cost ≤ maxNesting := alike.cost_eq ▸ fits
      cases denotes : sentence.decl?
          (String.ofList (Text.trimChars source.toList)) with
      | some read =>
          obtain ⟨again, denotes', sameSyntax⟩ :=
            sentence.decl?_sameSyntax denotes
              (String.ofList (Text.trimChars source'.toList))
          rw [alike.decl?_eq] at denotes'
          exact .inl ⟨read.desugar, again.desugar,
            (parseChars_outcome written denotes).1 fits,
            (parseChars_outcome written' denotes').1 fits',
            Decl.sameSyntax_desugar sameSyntax⟩
      | none =>
          have denotes' := sentence.decl?_eq_none denotes
            (String.ofList (Text.trimChars source'.toList))
          rw [alike.decl?_eq] at denotes'
          obtain ⟨error, refused⟩ := parseChars_refused written fits denotes
          obtain ⟨error', refused'⟩ :=
            parseChars_refused written' fits' denotes'
          exact .inr (.inr ⟨error, error', refused, refused'⟩)

namespace Layouts

def compact : String := "\x7bx+1<=y&&p(-x)\x7d"

def commented : String := " \x7b x + 1 <= y # für ≤\n && p( - x ) \x7d\n"

theorem parse_layout_commented :
    ∃ tokens tokens' decl decl',
      Token.lexChars (Text.trimChars compact.toList) = .ok tokens ∧
      Token.lexChars (Text.trimChars commented.toList) = .ok tokens' ∧
      tokens.map Token.kind = tokens'.map Token.kind ∧
      tokens.map Token.span ≠ tokens'.map Token.span ∧
      parse compact = .ok decl ∧ parse commented = .ok decl' ∧
      decl.sameSyntax decl' = true := by
  have lexes : (Token.lexChars
      (Text.trimChars compact.toList)).toOption.isSome = true := by
    decide +kernel
  have lexes' : (Token.lexChars
      (Text.trimChars commented.toList)).toOption.isSome = true := by
    decide +kernel
  have kinds : (Token.lexChars
        (Text.trimChars compact.toList)).toOption.map
          (·.map Token.kind) =
      (Token.lexChars (Text.trimChars commented.toList)).toOption.map
        (·.map Token.kind) := by
    decide +kernel
  have spans : (Token.lexChars
        (Text.trimChars compact.toList)).toOption.map
          (·.map Token.span) ≠
      (Token.lexChars (Text.trimChars commented.toList)).toOption.map
        (·.map Token.span) := by
    decide +kernel
  have accepted : (parse compact).toOption.isSome = true := by
    decide +kernel
  obtain ⟨tokens, lexed⟩ := exists_ok_of_isSome lexes
  obtain ⟨tokens', lexed'⟩ := exists_ok_of_isSome lexes'
  obtain ⟨decl, parsed⟩ := exists_ok_of_isSome accepted
  rw [lexed, lexed'] at kinds spans
  have same : tokens.map Token.kind = tokens'.map Token.kind :=
    Option.some.inj kinds
  have differ : tokens.map Token.span ≠ tokens'.map Token.span :=
    fun eq => spans (congrArg some eq)
  rcases parse_layout lexed lexed' same with
    ⟨found, decl', eq, parsed', sameSyntax⟩ | ⟨_, _, eq, _⟩ | ⟨_, _, eq, _⟩
  · exact ⟨tokens, tokens', found, decl', lexed, lexed', same, differ, eq,
      parsed', sameSyntax⟩
  · rw [parsed] at eq
    cases eq
  · rw [parsed] at eq
    cases eq

end Layouts

end Source

end ProofOutline
