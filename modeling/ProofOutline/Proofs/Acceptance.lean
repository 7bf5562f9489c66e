import ProofOutline.Proofs.Sorts
import ProofOutline.Proofs.Source

/-!
# Accepted sources

A source is accepted exactly if its tokens parse to a well-sorted tree with
literals that are words.  When a parsed tree is refused, then for a sort or a
literal: its operators and names are always legible.
-/

namespace ProofOutline

/-! ## Why a tree is refused -/

/-- What a node of the wrong sort or a literal out of range fails to be. -/
def Expectation.sorts : List Expectation :=
  [.formula, .expression, .argument, .literal]

def Legible {α : Type} (result : Except ReadError α) : Prop :=
  ∀ error, result = .error error → error.expectation ∈ Expectation.sorts

section Legible

variable {α β : Type}

theorem legible_ok (value : α) : Legible (.ok value) :=
  failsOnly_ok value

theorem legible_refusal {expectation : Expectation}
    (h : expectation ∈ Expectation.sorts) (source : List Char) (tree : Tree) :
    Legible (.error (tree.refusal source expectation) :
      Except ReadError α) :=
  failsOnly_error h

theorem Legible.bind {first : Except ReadError α}
    {next : α → Except ReadError β} (h : Legible first)
    (hnext : ∀ value, Legible (next value)) : Legible (first >>= next) :=
  FailsOnly.bind h hnext

private theorem legible_mapM {read : α → Except ReadError β} {items : List α}
    (h : ∀ item ∈ items, Legible (read item)) :
    Legible (items.mapM read) :=
  failsOnly_mapM h

theorem legible_expecting {source : List Char} {expectation : Expectation}
    {tree : Tree} {found : Option α}
    (h : found.isSome = true ∨ expectation ∈ Expectation.sorts) :
    Legible (tree.expecting source expectation found) :=
  failsOnly_expecting fun isNone => h.resolve_left (by simp [isNone])

end Legible

namespace Tree

variable {source : List Char} {tree : Tree}

theorem legible_readArith (h : tree.kind.isFormula = true) :
    Legible (tree.readArith source) := by
  obtain ⟨kind, span, children⟩ := tree
  cases kind <;> cases h <;> exact legible_refusal (by decide) _ _

theorem legible_readFormula (h : tree.kind.isFormula = false) :
    Legible (tree.readFormula source) := by
  obtain ⟨kind, span, children⟩ := tree
  cases kind <;> cases h <;> exact legible_refusal (by decide) _ _

end Tree

structure Phrase.LegibleIn (source : List Char) (phrase : Phrase) : Prop where
  arith : Legible (phrase.tree.readArith source)
  formula : Legible (phrase.tree.readFormula source)
  argument : phrase.tree.kind.separates = false

def Arguments.LegibleIn (source : List Char) (args : Arguments) : Prop :=
  Legible (Tree.readItems source args.items)

structure Token.FoundIn (source : List Char) (token : Token) : Prop where
  proper : token.kind.Proper
  spelled : token.SpelledIn source

namespace Phrase

variable {source : List Char} {left right body : Phrase}
  {op opening closing token : Token}

private theorem legibleIn_connective {connective : Connective}
    (isOp : op.kind.connective? = some connective)
    (found : op.FoundIn source) (hleft : left.LegibleIn source)
    (hright : right.LegibleIn source) :
    (infixed left op right).LegibleIn source := by
  have symbol := TokenKind.ofSymbol?_of_connective? isOp
  rw [← found.spelled.text_leaf] at symbol
  obtain ⟨kind, span⟩ := op
  cases kind <;> cases isOp
  all_goals
    refine ⟨Tree.legible_readArith rfl, ?_, rfl⟩
    rw [Phrase.tree, TokenKind.infixKind, Tree.readFormula_connective]
    case isConnective => simp
    refine hleft.formula.bind fun first => hright.formula.bind fun second => ?_
    exact legible_expecting (.inl (by rw [symbol]; rfl))

private theorem legibleIn_compare {compare : CompareOp}
    (isOp : op.kind.compareOp? = some compare)
    (found : op.FoundIn source) (hleft : left.LegibleIn source)
    (hright : right.LegibleIn source) :
    (infixed left op right).LegibleIn source := by
  have symbol := TokenKind.ofSymbol?_of_compareOp? isOp
  rw [← found.spelled.text_leaf] at symbol
  obtain ⟨kind, span⟩ := op
  cases kind <;> cases isOp
  all_goals
    refine ⟨Tree.legible_readArith rfl, ?_, rfl⟩
    rw [Phrase.tree, TokenKind.infixKind, Tree.readFormula_comparison]
    refine hleft.arith.bind fun first => hright.arith.bind fun second => ?_
    exact legible_expecting (.inl (by rw [symbol]; rfl))

private theorem legibleIn_operation {operation : ArithOp}
    (isOp : op.kind.arithOp? = some operation)
    (found : op.FoundIn source) (hleft : left.LegibleIn source)
    (hright : right.LegibleIn source) :
    (infixed left op right).LegibleIn source := by
  have symbol := TokenKind.ofSymbol?_of_arithOp? isOp
  rw [← found.spelled.text_leaf] at symbol
  obtain ⟨kind, span⟩ := op
  cases kind <;> cases isOp
  all_goals
    refine ⟨?_, Tree.legible_readFormula rfl, rfl⟩
    show Legible ((Tree.node .operation _ [left.tree, Token.leaf _,
      right.tree]).readArith source)
    rw [Tree.readArith_operation]
    refine hleft.arith.bind fun first => hright.arith.bind fun second => ?_
    exact legible_expecting (.inl (by rw [symbol]; rfl))

private theorem legibleIn_not (isOp : op.kind = .bang)
    (h : body.LegibleIn source) :
    (prefixed op body).LegibleIn source := by
  obtain ⟨kind, span⟩ := op
  cases isOp
  refine ⟨Tree.legible_readArith rfl, ?_, rfl⟩
  rw [Phrase.tree, TokenKind.prefixKind, Tree.readFormula_negation]
  exact h.formula.bind fun value => legible_ok (Formula.neg value)

private theorem legibleIn_sign (isOp : op.kind.isSum = true)
    (found : op.FoundIn source) (h : body.LegibleIn source) :
    (prefixed op body).LegibleIn source := by
  have symbol := found.spelled.text_leaf
  obtain ⟨kind, span⟩ := op
  cases kind <;> cases isOp
  all_goals
    refine ⟨?_, Tree.legible_readFormula rfl, rfl⟩
    show Legible ((Tree.node .signed _ [Token.leaf _, body.tree]).readArith
      source)
    rw [Tree.readArith_signed]
    refine h.arith.bind fun value => ?_
    exact legible_expecting (.inl (by rw [symbol]; rfl))

private theorem legibleIn_number {digits : String}
    (isNumber : token.kind = .int digits) :
    (atom token).LegibleIn source := by
  obtain ⟨kind, span⟩ := token
  cases isNumber
  refine ⟨?_, Tree.legible_readFormula rfl, rfl⟩
  exact legible_expecting (.inr (by decide))

private theorem legibleIn_truth
    (isTruth : token.kind = .kwTrue ∨ token.kind = .kwFalse) :
    (atom token).LegibleIn source := by
  obtain ⟨kind, span⟩ := token
  rcases isTruth with isTruth | isTruth
  all_goals
    cases isTruth
    exact ⟨Tree.legible_readArith rfl, legible_ok _, rfl⟩

theorem legible_readName {text : String} (isName : token.kind = .ident text)
    (found : token.FoundIn source) :
    Legible (token.leaf.readName source) := by
  have proper := found.proper
  rw [isName] at proper
  have name := TokenKind.isSome_name?_ident proper
  rw [← isName, ← readName_leaf isName found.spelled] at name
  intro error eq
  simp [eq, Except.toOption] at name

private theorem legibleIn_name {text : String}
    (isName : token.kind = .ident text)
    (found : token.FoundIn source) : (atom token).LegibleIn source := by
  have name := legible_readName isName found
  obtain ⟨kind, span⟩ := token
  cases isName
  refine ⟨?_, Tree.legible_readFormula rfl, rfl⟩
  exact name.bind fun name => legible_ok (Arith.var name)

private theorem legibleIn_bracketed (h : body.LegibleIn source) :
    (bracketed opening body closing).LegibleIn source := by
  cases isFormula : body.tree.kind.isFormula with
  | true =>
      have tree : (bracketed opening body closing).tree =
          .node .formulaParens (opening.span.through closing.span)
            [opening.leaf, body.tree, closing.leaf] := by
        simp [Phrase.tree, isFormula]
      constructor
      · rw [tree]
        exact Tree.legible_readArith rfl
      · rw [tree, Tree.readFormula_parens]
        exact h.formula
      · rw [tree]
        rfl
  | false =>
      have tree : (bracketed opening body closing).tree =
          .node .arithParens (opening.span.through closing.span)
            [opening.leaf, body.tree, closing.leaf] := by
        simp [Phrase.tree, isFormula]
      constructor
      · rw [tree, Tree.readArith_parens]
        exact h.arith
      · rw [tree]
        exact Tree.legible_readFormula rfl
      · rw [tree]
        rfl

private theorem legible_application {name : Token} {text : String}
    {span inner : Span} {items : List Tree}
    (isName : name.kind = .ident text) (found : name.FoundIn source)
    (h : Legible (Tree.readItems source items)) :
    Legible ((Tree.node .application span [name.leaf, .node .arguments inner
      (opening.leaf :: items)]).readFormula source) := by
  rw [Tree.readFormula_application]
  refine (legible_readName isName found).bind fun symbol => ?_
  exact h.bind fun values => legible_ok (Formula.predicate symbol values)

private theorem legibleIn_emptyCall {name : Token} {text : String}
    (isName : name.kind = .ident text) (isClosing : closing.kind = .rparen)
    (found : name.FoundIn source) :
    (emptyCall name opening closing).LegibleIn source := by
  refine ⟨Tree.legible_readArith rfl, ?_, rfl⟩
  apply legible_application isName found
  rw [Arguments.readItems_separator (.inr isClosing)]
  exact legible_ok []

private theorem legibleIn_call {name : Token} {text : String} {args : Arguments}
    (isName : name.kind = .ident text) (found : name.FoundIn source)
    (h : args.LegibleIn source) :
    (call name opening args).LegibleIn source :=
  ⟨Tree.legible_readArith rfl, legible_application isName found h, rfl⟩

end Phrase

namespace Arguments

variable {source : List Char} {arg : Phrase}

private theorem legible_readItems {rest : List Tree} (h : arg.LegibleIn source)
    (hrest : Legible (Tree.readItems source rest)) :
    Legible (Tree.readItems source (arg.tree :: rest)) := by
  rw [Tree.readItems, if_neg (NodeKind.not_separator h.argument)]
  have first : Legible ((arg.tree.readArith source).mapError
      fun _ => arg.tree.refusal source .argument) := by
    cases arg.tree.readArith source with
    | error error => exact legible_refusal (by decide) source arg.tree
    | ok value => exact legible_ok value
  refine first.bind fun value => ?_
  exact hrest.bind fun values => legible_ok (value :: values)

private theorem legibleIn_last {closing : Token}
    (isClosing : closing.kind = .rparen)
    (h : arg.LegibleIn source) : (last arg closing).LegibleIn source := by
  apply legible_readItems h
  rw [readItems_separator (.inr isClosing)]
  exact legible_ok []

private theorem legibleIn_more {comma : Token} {rest : Arguments}
    (isComma : comma.kind = .comma) (h : arg.LegibleIn source)
    (hrest : rest.LegibleIn source) :
    (more arg comma rest).LegibleIn source := by
  apply legible_readItems h
  rw [readItems_separator (.inl isComma)]
  exact hrest

end Arguments

theorem Phrase.inherited_legibleIn (source : List Char) :
    Phrase.Inherited (·.FoundIn source) (·.LegibleIn source)
      (·.LegibleIn source) where
  connective := Phrase.legibleIn_connective
  compare := Phrase.legibleIn_compare
  operation := Phrase.legibleIn_operation
  not isOp _ := Phrase.legibleIn_not isOp
  sign := Phrase.legibleIn_sign
  number isNumber _ := Phrase.legibleIn_number isNumber
  truth isTruth _ := Phrase.legibleIn_truth isTruth
  name := Phrase.legibleIn_name
  bracketed _ _ := Phrase.legibleIn_bracketed
  emptyCall isName _ isClosing := Phrase.legibleIn_emptyCall isName isClosing
  call isName _ := Phrase.legibleIn_call isName
  last := Arguments.legibleIn_last
  more := Arguments.legibleIn_more

theorem Statement.Derived.legible {source : List Char}
    {statement : Statement} (derived : statement.Derived)
    (found : ∀ token ∈ statement.yield, token.FoundIn source) :
    Legible (statement.tree.readStatement source) := by
  cases derived with
  | skip _ _ => exact legible_ok _
  | @assign name op semi text value isName isAssign derived isSemi =>
      simp only [Statement.yield, List.cons_append, List.forall_mem_cons,
        List.forall_mem_append] at found
      obtain ⟨inName, -, inValue, -⟩ := found
      have legible := derived.inherit (Phrase.inherited_legibleIn source)
        inValue
      rw [Statement.tree, Tree.readStatement]
      refine (Phrase.legible_readName isName inName).bind fun target => ?_
      exact legible.arith.bind fun value =>
        legible_ok (Primitive.assign target value)

namespace Tree

variable {source : List Char}

private theorem legible_readAssertion {kind : NodeKind} {span : Span}
    {children : List Tree}
    (h : ∀ child ∈ children, Legible (child.readFormula source)) :
    Legible ((Tree.node kind span children).readAssertion source) := by
  refine (legible_mapM h).bind fun formulas => ?_
  exact legible_expecting (.inr (by decide))

private theorem legible_readCommand {kind : NodeKind} {span : Span}
    {first : Tree} {others : List Tree}
    (h : ∀ child ∈ first :: others, Legible (child.readStatement source)) :
    Legible ((Tree.node kind span (first :: others)).readCommand source) := by
  rw [List.forall_mem_cons] at h
  show Legible ((first :: others).mapM (readStatement source) >>= _)
  rw [List.mapM_cons, bind_assoc]
  refine h.1.bind fun value => ?_
  rw [bind_assoc]
  exact (legible_mapM h.2).bind fun values => legible_ok (Command.mk value values)

end Tree

theorem Sentence.Derived.legible {source : List Char} {sentence : Sentence}
    (derived : sentence.Derived)
    (found : ∀ token ∈ sentence.yield, token.FoundIn source) :
    Legible (sentence.tree.readDecl source) := by
  cases derived with
  | @assertion opening closing first further isOpening derived allDerived
      isClosing =>
      rw [Sentence.forall_yield_assertion] at found
      have formulas : ∀ child ∈ first.tree :: further.map (·.formula.tree),
          Legible (child.readFormula source) := by
        rw [List.forall_mem_cons, List.forall_mem_map]
        constructor
        · exact (derived.inherit (Phrase.inherited_legibleIn source)
            found.2.1).formula
        · intro formula mem
          exact ((allDerived formula mem).formula.inherit
            (Phrase.inherited_legibleIn source)
            (found.2.2.1 formula mem).2).formula
      exact (Tree.legible_readAssertion formulas).bind fun formula =>
        legible_ok _
  | @command first others derived allDerived =>
      have statements : ∀ child ∈ first.tree :: others.map Statement.tree,
          Legible (child.readStatement source) := by
        rw [← List.map_cons, List.forall_mem_map]
        intro statement mem
        have derived :=
          List.forall_mem_cons.mpr ⟨derived, allDerived⟩ statement mem
        apply derived.legible
        intro token inside
        exact found token (List.mem_flatMap.mpr ⟨statement, mem, inside⟩)
      exact (Tree.legible_readCommand statements).bind fun command =>
        legible_ok _

/-! ## What is read -/

/--
An assertion is the conjunction of its formulas, nested to the right, and a
command is the sequence of its statements.
-/
inductive Sentence.Denotes (source : String) : Sentence → Decl → Prop
  | assertion {opening closing : Token} {first : Phrase}
      {further : List FurtherFormula} {formulas : List Formula}
      {last : Formula} :
      (first :: further.map (·.formula)).mapM Phrase.formula? =
        some (formulas ++ [last]) →
      Denotes source (.assertion opening first further closing)
        (.assertion ⟨source, formulas.foldr (.connect .and) last⟩)
  | command {first : Statement} {others : List Statement}
      {primitive : Primitive} {primitives : List Primitive} :
      (first :: others).mapM Statement.primitive? =
        some (primitive :: primitives) →
      Denotes source (.command first others)
        (.program ⟨source, ⟨primitive, primitives⟩⟩)

private theorem Formula.conjoin?_concat (formulas : List Formula)
    (last : Formula) :
    conjoin? (formulas ++ [last]) =
      some (formulas.foldr (.connect .and) last) := by
  induction formulas with
  | nil => rfl
  | cons first rest ih => simp [conjoin?, ih]

theorem Sentence.denotes_of_decl? {source : String} {sentence : Sentence}
    {decl : Decl} (h : sentence.decl? source = some decl) :
    sentence.Denotes source decl := by
  cases sentence with
  | assertion opening first further closing =>
      obtain ⟨formulas, read, h⟩ := Option.bind_eq_some_iff.mp h
      obtain ⟨formula, joined, h⟩ := Option.bind_eq_some_iff.mp h
      cases h
      rcases formulas.eq_nil_or_concat with rfl | ⟨init, last, rfl⟩
      · cases joined
      · rw [List.concat_eq_append] at read joined
        rw [Formula.conjoin?_concat] at joined
        cases joined
        exact .assertion read
  | command first others =>
      obtain ⟨primitives, read, h⟩ := Option.bind_eq_some_iff.mp h
      cases primitives with
      | nil => cases h
      | cons primitive primitives =>
          cases h
          exact .command read

/-! ## Exactness -/

namespace Sentence.WrittenIn

variable {text : List Char} {sentence : Sentence}

theorem found (h : sentence.WrittenIn text) :
    ∀ token ∈ sentence.yield, token.FoundIn text :=
  fun token mem => ⟨h.proper token mem, h.spelledIn token mem⟩

theorem legible (h : sentence.WrittenIn text) :
    Legible ((Cursor.ofTree sentence.tree).readDecl text) := by
  have legible := h.derived.legible h.found
  rw [Cursor.readDecl_ofTree text sentence.shaped_tree]
  intro error eq
  cases read : sentence.tree.readDecl text with
  | ok decl => simp [read, Except.map] at eq
  | error found =>
      simp [read, Except.map] at eq
      exact eq ▸ legible found read

theorem fits_iff (h : sentence.WrittenIn text) {tokens : List Token}
    (lexed : Token.lexChars text = .ok tokens) :
    (∀ token ∈ tokens, token.kind.Fits) ↔
      ∀ token ∈ sentence.yield, token.kind.Fits := by
  obtain ⟨eof, isEof, lexes⟩ := h.lexed
  have same := lexes.lexFrom.symm.trans lexed
  cases same
  simp [or_imp, forall_and, isEof, TokenKind.Fits]

end Sentence.WrittenIn

namespace Source

theorem parseChars_ok_iff (source : List Char) :
    (∃ decl, parseChars source = .ok decl) ↔
      ∃ tokens tree, Token.lexChars (Text.trimChars source) = .ok tokens ∧
        Tree.ofTokens tokens = .ok tree ∧ tree.WellSorted ∧
        ∀ token ∈ tokens, token.kind.Fits := by
  constructor
  · rintro ⟨decl, h⟩
    obtain ⟨sentence, read, written, fits, denotes, -⟩ :=
      exists_of_parseChars h
    obtain ⟨eof, lexed, parsed⟩ := written.parsed fits
    have sorted := (written.derived.sorted written.proper _).mp
      (Option.isSome_of_eq_some denotes)
    exact ⟨_, sentence.tree, lexed, parsed, sorted.1,
      (written.fits_iff lexed).mpr sorted.2⟩
  · rintro ⟨tokens, tree, lexed, parsed, sorted, inRange⟩
    obtain ⟨sentence, written, fits, rfl⟩ :=
      exists_of_ofTokens lexed parsed
    have denotes := (written.derived.sorted written.proper
      (String.ofList (Text.trimChars source))).mpr
        ⟨sorted, (written.fits_iff lexed).mp inRange⟩
    obtain ⟨read, denoted⟩ := Option.isSome_iff_exists.mp denotes
    exact ⟨read.desugar, (parseChars_outcome written denoted).1 fits⟩

end Source

private theorem SyntaxCause.detail_ne_empty {cause : SyntaxCause}
    (h : cause ≠ .emptyTree) : cause.detail ≠ "empty parse tree" := by
  have differs (start rest : String)
      (h : ¬start.toList.isPrefixOf "empty parse tree".toList = true) :
      start ++ rest ≠ "empty parse tree" := by
    intro eq
    apply h
    rw [← eq, String.toList_append, List.isPrefixOf_iff_prefix]
    exact List.prefix_append _ _
  cases cause with
  | trailing found =>
      show "unexpected " ++ _ ++ _ ≠ _
      rw [String.append_assoc]
      exact differs _ _ (by decide)
  | mismatch expected found =>
      show "expected " ++ _ ++ _ ++ _ ≠ _
      rw [String.append_assoc, String.append_assoc]
      exact differs _ _ (by decide)
  | notACommand found => exact differs _ _ (by decide)
  | notAnExpression found => exact differs _ _ (by decide)
  | argumentEnd found => exact differs _ _ (by decide)
  | emptyTree => exact absurd rfl h
  | _ => decide

end ProofOutline
