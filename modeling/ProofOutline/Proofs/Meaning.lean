import ProofOutline.Proofs.Forms
import ProofOutline.Proofs.Lexer
import ProofOutline.Proofs.Reading
import ProofOutline.Proofs.Results

/-!
# The meaning of derivations

What a derivation denotes, by recursion on the derivation and from the kinds
of its tokens alone.  It is what reading the tree of the derivation gives when
the tokens are spelled in the source under their spans.
-/

namespace ProofOutline

/-! ## From tokens to syntax -/

namespace TokenKind

def name? : TokenKind → Option Name
  | .ident text => Name.ofString? text
  | _ => none

def literal? : TokenKind → Option Word
  | .int digits => (Text.readInteger? digits.toList).bind Word.ofInt?
  | _ => none

end TokenKind

mutual

def Phrase.arith? : Phrase → Option Arith
  | .atom token =>
      (token.kind.literal?.map Arith.lit).or (token.kind.name?.map Arith.var)
  | .prefixed op body =>
      body.arith?.bind fun value =>
        match op.kind with
        | .plus => some value
        | .minus => some value.negate
        | _ => none
  | .infixed left op right => do
      let op ← op.kind.arithOp?
      let first ← left.arith?
      let second ← right.arith?
      return .binary op first second
  | .bracketed _ inner _ => inner.arith?
  | .emptyCall _ _ _ => none
  | .call _ _ _ => none

def Arguments.values? : Arguments → Option (List Arith)
  | .last arg _ => do
      let value ← arg.arith?
      return [value]
  | .more arg _ rest => do
      let first ← arg.arith?
      let others ← rest.values?
      return first :: others

end

def Phrase.formula? : Phrase → Option Formula
  | .atom token =>
      match token.kind with
      | .kwTrue => some (.truth true)
      | .kwFalse => some (.truth false)
      | _ => none
  | .prefixed op body =>
      if op.kind = .bang then body.formula?.map .neg else none
  | .infixed left op right =>
      match op.kind.connective?, op.kind.compareOp? with
      | some op, _ => do
          let first ← left.formula?
          let second ← right.formula?
          return .connect op first second
      | none, some op => do
          let first ← left.arith?
          let second ← right.arith?
          return .compare op first second
      | none, none => none
  | .bracketed _ inner _ => inner.formula?
  | .emptyCall name _ _ => name.kind.name?.map (.predicate · [])
  | .call name _ args => do
      let symbol ← name.kind.name?
      let values ← args.values?
      return .predicate symbol values

section Denotes

variable {left right body : Phrase} {op name opening : Token}
  {args : Arguments}

@[simp] theorem Phrase.arith?_infixed_eq_some_iff {expr : Arith} :
    (Phrase.infixed left op right).arith? = some expr ↔
      ∃ operation first second, op.kind.arithOp? = some operation ∧
        left.arith? = some first ∧ right.arith? = some second ∧
        Arith.binary operation first second = expr := by
  simp [Phrase.arith?, Option.bind_eq_some_iff]

@[simp] theorem Arguments.values?_more_eq_some_iff {values : List Arith} :
    (Arguments.more body op args).values? = some values ↔
      ∃ first others, body.arith? = some first ∧
        args.values? = some others ∧ first :: others = values := by
  simp [Arguments.values?, Option.bind_eq_some_iff]

theorem Phrase.formula?_connect_eq_some_iff {connective : Connective}
    (isOp : op.kind.connective? = some connective) {formula : Formula} :
    (Phrase.infixed left op right).formula? = some formula ↔
      ∃ first second, left.formula? = some first ∧
        right.formula? = some second ∧
        Formula.connect connective first second = formula := by
  simp [Phrase.formula?, isOp, Option.bind_eq_some_iff]

theorem Phrase.formula?_compare_eq_some_iff {compare : CompareOp}
    (isOp : op.kind.compareOp? = some compare) {formula : Formula} :
    (Phrase.infixed left op right).formula? = some formula ↔
      ∃ first second, left.arith? = some first ∧
        right.arith? = some second ∧
        Formula.compare compare first second = formula := by
  have notConnective : op.kind.connective? = none := by
    cases kind : op.kind <;> rw [kind] at isOp <;> cases isOp <;> rfl
  simp [Phrase.formula?, isOp, notConnective, Option.bind_eq_some_iff]

@[simp] theorem Phrase.formula?_call_eq_some_iff {formula : Formula} :
    (Phrase.call name opening args).formula? = some formula ↔
      ∃ symbol values, name.kind.name? = some symbol ∧
        args.values? = some values ∧
        Formula.predicate symbol values = formula := by
  simp [Phrase.formula?, Option.bind_eq_some_iff]

end Denotes

namespace Tree

variable {source : List Char}

@[simp] theorem toOption_expecting {α : Type} (expectation : Expectation)
    (tree : Tree) (found : Option α) :
    (tree.expecting source expectation found).toOption = found := by
  cases found with
  | none => rfl
  | some value => rfl

private theorem readArith_eq_none (source : List Char) {tree : Tree}
    (h : tree.kind.isFormula = true) :
    (tree.readArith source).toOption = none := by
  obtain ⟨kind, span, children⟩ := tree
  cases kind <;> cases h <;> rfl

private theorem readFormula_eq_none (source : List Char) {tree : Tree}
    (h : tree.kind.isFormula = false) :
    (tree.readFormula source).toOption = none := by
  obtain ⟨kind, span, children⟩ := tree
  cases kind <;> cases h <;> rfl

end Tree

/-! ## Reading the trees of derivations -/

theorem Token.SpelledIn.text_leaf {source : List Char} {token : Token}
    (h : token.SpelledIn source) :
    token.leaf.text source = token.kind.spelling := by
  rw [Tree.text, show token.leaf.span = token.span from rfl, h]
  exact String.ofList_toList

namespace TokenKind

theorem ofSymbol?_of_connective? {kind : TokenKind} {op : Connective}
    (h : kind.connective? = some op) :
    Connective.ofSymbol? kind.spelling = some op := by
  cases kind <;> cases h <;> rfl

theorem ofSymbol?_of_compareOp? {kind : TokenKind} {op : CompareOp}
    (h : kind.compareOp? = some op) :
    CompareOp.ofSymbol? kind.spelling = some op := by
  cases kind <;> cases h <;> rfl

theorem ofSymbol?_of_arithOp? {kind : TokenKind} {op : ArithOp}
    (h : kind.arithOp? = some op) :
    ArithOp.ofSymbol? kind.spelling = some op := by
  cases kind <;> cases h <;> rfl

end TokenKind

/-- Whether nodes of the kind only separate and close arguments. -/
def NodeKind.separates : NodeKind → Bool
  | .comma | .rparen => true
  | _ => false

theorem NodeKind.not_separator {kind : NodeKind}
    (h : kind.separates = false) : ¬(kind = .comma ∨ kind = .rparen) := by
  rintro (rfl | rfl)
  · cases h
  · cases h

structure Phrase.MeantIn (source : List Char) (phrase : Phrase) : Prop where
  arith : (phrase.tree.readArith source).toOption = phrase.arith?
  formula : (phrase.tree.readFormula source).toOption = phrase.formula?
  argument : phrase.tree.kind.separates = false

def Arguments.MeantIn (source : List Char) (args : Arguments) : Prop :=
  (Tree.readItems source args.items).toOption = args.values?

namespace Phrase

variable {source : List Char} {left right body : Phrase} {op : Token}

private theorem meantIn_connective {connective : Connective}
    (isOp : op.kind.connective? = some connective)
    (spelled : op.SpelledIn source) (hleft : left.MeantIn source)
    (hright : right.MeantIn source) :
    (infixed left op right).MeantIn source := by
  have symbol := TokenKind.ofSymbol?_of_connective? isOp
  rw [← spelled.text_leaf] at symbol
  obtain ⟨kind, span⟩ := op
  cases kind <;> cases isOp
  all_goals
    refine ⟨rfl, ?_, rfl⟩
    rw [Phrase.tree, TokenKind.infixKind, Tree.readFormula_connective,
      toOption_bind, hleft.formula]
    case isConnective => simp
    simp only [toOption_bind, hright.formula, Tree.connected,
      Tree.toOption_expecting, symbol, Option.map_some]
    rfl

private theorem meantIn_compare {compare : CompareOp}
    (isOp : op.kind.compareOp? = some compare)
    (spelled : op.SpelledIn source) (hleft : left.MeantIn source)
    (hright : right.MeantIn source) :
    (infixed left op right).MeantIn source := by
  have symbol := TokenKind.ofSymbol?_of_compareOp? isOp
  rw [← spelled.text_leaf] at symbol
  obtain ⟨kind, span⟩ := op
  cases kind <;> cases isOp
  all_goals
    refine ⟨rfl, ?_, rfl⟩
    rw [Phrase.tree, TokenKind.infixKind, Tree.readFormula_comparison,
      toOption_bind, hleft.arith]
    simp only [toOption_bind, hright.arith, Tree.toOption_expecting, symbol,
      Option.map_some]
    rfl

private theorem meantIn_operation {operation : ArithOp}
    (isOp : op.kind.arithOp? = some operation)
    (spelled : op.SpelledIn source) (hleft : left.MeantIn source)
    (hright : right.MeantIn source) :
    (infixed left op right).MeantIn source := by
  have symbol := TokenKind.ofSymbol?_of_arithOp? isOp
  rw [← spelled.text_leaf] at symbol
  obtain ⟨kind, span⟩ := op
  cases kind <;> cases isOp
  all_goals
    refine ⟨?_, rfl, rfl⟩
    show ((Tree.node .operation _ [left.tree, Token.leaf _,
      right.tree]).readArith source).toOption = _
    rw [Tree.readArith_operation, toOption_bind, hleft.arith]
    simp only [toOption_bind, hright.arith, Tree.toOption_expecting, symbol,
      Option.map_some]
    rfl

private theorem meantIn_sign (isOp : op.kind.isSum = true)
    (spelled : op.SpelledIn source) (h : body.MeantIn source) :
    (prefixed op body).MeantIn source := by
  have symbol := spelled.text_leaf
  obtain ⟨kind, span⟩ := op
  cases kind <;> cases isOp
  all_goals
    refine ⟨?_, rfl, rfl⟩
    show ((Tree.node .signed _ [Token.leaf _, body.tree]).readArith
      source).toOption = _
    rw [Tree.readArith_signed, toOption_bind, h.arith]
    simp only [Tree.toOption_expecting, symbol]
    rfl

private theorem meantIn_not (isOp : op.kind = .bang) (h : body.MeantIn source) :
    (prefixed op body).MeantIn source := by
  obtain ⟨kind, span⟩ := op
  cases isOp
  refine ⟨?_, ?_, rfl⟩
  · show none = body.arith?.bind fun _ => none
    cases body.arith? with
    | none => rfl
    | some value => rfl
  · rw [Phrase.tree, TokenKind.prefixKind, Tree.readFormula_negation,
      toOption_bind, h.formula]
    show body.formula?.bind _ = body.formula?.map _
    cases body.formula? with
    | none => rfl
    | some value => rfl

private theorem meantIn_number {token : Token} {digits : String}
    (isNumber : token.kind = .int digits) (spelled : token.SpelledIn source) :
    (atom token).MeantIn source := by
  have text := spelled.text_leaf
  obtain ⟨kind, span⟩ := token
  cases isNumber
  refine ⟨?_, rfl, rfl⟩
  show ((Tree.node .number span []).readArith source).toOption = _
  rw [Tree.readArith_number, Tree.toOption_expecting]
  show Option.map _ ((Text.readInteger?
    ((Token.leaf ⟨.int digits, span⟩).text source).toList).bind _) = _
  rw [text]
  show Option.map _ (TokenKind.literal? (.int digits)) =
    (Option.map _ (TokenKind.literal? (.int digits))).or none
  rw [Option.or_none]

private theorem meantIn_truth {token : Token}
    (isTruth : token.kind = .kwTrue ∨ token.kind = .kwFalse)
    (spelled : token.SpelledIn source) : (atom token).MeantIn source := by
  have text := spelled.text_leaf
  obtain ⟨kind, span⟩ := token
  rcases isTruth with isTruth | isTruth
  all_goals
    cases isTruth
    refine ⟨rfl, ?_, rfl⟩
    show some (Formula.truth ((Token.leaf ⟨_, span⟩).text source == "true")) =
      _
    rw [text]
    rfl

theorem readName_leaf {token : Token} {text : String}
    (isName : token.kind = .ident text) (spelled : token.SpelledIn source) :
    (token.leaf.readName source).toOption = token.kind.name? := by
  have text := spelled.text_leaf
  obtain ⟨kind, span⟩ := token
  cases isName
  rw [Tree.readName, Tree.toOption_expecting, text]
  rfl

private theorem meantIn_name {token : Token} {text : String}
    (isName : token.kind = .ident text) (spelled : token.SpelledIn source) :
    (atom token).MeantIn source := by
  have name := readName_leaf isName spelled
  obtain ⟨kind, span⟩ := token
  cases isName
  refine ⟨?_, rfl, rfl⟩
  show ((Tree.node .name span []).readArith source).toOption = _
  rw [Tree.readArith_name, toOption_bind]
  show Option.bind ((Token.leaf ⟨.ident text, span⟩).readName
    source).toOption _ = _
  rw [name]
  show Option.bind (TokenKind.name? (.ident text)) _ =
    Option.map _ (TokenKind.name? (.ident text))
  cases TokenKind.name? (.ident text) with
  | none => rfl
  | some name => rfl

private theorem meantIn_bracketed (opening closing : Token)
    (h : body.MeantIn source) :
    (bracketed opening body closing).MeantIn source := by
  cases isFormula : body.tree.kind.isFormula with
  | true =>
      have noArith := Tree.readArith_eq_none source isFormula
      have tree : (bracketed opening body closing).tree =
          .node .formulaParens (opening.span.through closing.span)
            [opening.leaf, body.tree, closing.leaf] := by
        simp [Phrase.tree, isFormula]
      rw [h.arith] at noArith
      refine ⟨?_, ?_, ?_⟩
      · rw [tree, Phrase.arith?, noArith]
        rfl
      · rw [tree, Tree.readFormula_parens, h.formula]
        rfl
      · rw [tree]
        rfl
  | false =>
      have noFormula := Tree.readFormula_eq_none source isFormula
      have tree : (bracketed opening body closing).tree =
          .node .arithParens (opening.span.through closing.span)
            [opening.leaf, body.tree, closing.leaf] := by
        simp [Phrase.tree, isFormula]
      rw [h.formula] at noFormula
      refine ⟨?_, ?_, ?_⟩
      · rw [tree, Tree.readArith_parens, h.arith]
        rfl
      · rw [tree, Phrase.formula?, noFormula]
        rfl
      · rw [tree]
        rfl

private theorem meantIn_emptyCall {name opening closing : Token} {text : String}
    (isName : name.kind = .ident text) (isClosing : closing.kind = .rparen)
    (spelled : name.SpelledIn source) :
    (emptyCall name opening closing).MeantIn source := by
  have symbol := readName_leaf isName spelled
  have items : Tree.readItems source [closing.leaf] = .ok [] := by
    obtain ⟨kind, span⟩ := closing
    cases isClosing
    rfl
  refine ⟨rfl, ?_, rfl⟩
  rw [Phrase.tree, Tree.readFormula_application, toOption_bind, symbol,
    items, Phrase.formula?]
  cases name.kind.name? with
  | none => rfl
  | some symbol => rfl

private theorem meantIn_call {name opening : Token} {text : String}
    {args : Arguments} (isName : name.kind = .ident text)
    (spelled : name.SpelledIn source) (h : args.MeantIn source) :
    (call name opening args).MeantIn source := by
  have symbol := readName_leaf isName spelled
  refine ⟨rfl, ?_, rfl⟩
  rw [Phrase.tree, Tree.readFormula_application, toOption_bind, symbol,
    Phrase.formula?]
  simp only [toOption_bind, show (Tree.readItems source args.items).toOption =
    args.values? from h]
  rfl

end Phrase

namespace Arguments

variable {source : List Char} {arg : Phrase}

private theorem readItems_argument (h : arg.MeantIn source) (rest : List Tree) :
    (Tree.readItems source (arg.tree :: rest)).toOption =
      arg.arith?.bind fun first =>
        (Tree.readItems source rest).toOption.map (first :: ·) := by
  rw [Tree.readItems, if_neg (NodeKind.not_separator h.argument),
    toOption_bind, toOption_mapError, h.arith]
  congr 1
  funext first
  rw [toOption_bind]
  cases (Tree.readItems source rest).toOption with
  | none => rfl
  | some values => rfl

theorem readItems_separator {token : Token}
    (h : token.kind = .comma ∨ token.kind = .rparen) (rest : List Tree) :
    Tree.readItems source (token.leaf :: rest) =
      Tree.readItems source rest := by
  obtain ⟨kind, span⟩ := token
  rcases h with h | h
  all_goals
    cases h
    rfl

private theorem meantIn_last {closing : Token} (h : arg.MeantIn source)
    (isClosing : closing.kind = .rparen) :
    (Arguments.last arg closing).MeantIn source := by
  rw [MeantIn, items, readItems_argument h,
    readItems_separator (.inr isClosing), values?]
  rfl

private theorem meantIn_more {comma : Token} {rest : Arguments}
    (h : arg.MeantIn source) (isComma : comma.kind = .comma)
    (hrest : rest.MeantIn source) :
    (Arguments.more arg comma rest).MeantIn source := by
  rw [MeantIn, items, readItems_argument h,
    readItems_separator (.inl isComma), hrest, values?]
  cases arg.arith? with
  | none => rfl
  | some first =>
      cases rest.values? with
      | none => rfl
      | some values => rfl

end Arguments

private theorem Phrase.inherited_meantIn (source : List Char) :
    Phrase.Inherited (·.SpelledIn source) (·.MeantIn source)
      (·.MeantIn source) where
  connective := Phrase.meantIn_connective
  compare := Phrase.meantIn_compare
  operation := Phrase.meantIn_operation
  not isOp _ := Phrase.meantIn_not isOp
  sign := Phrase.meantIn_sign
  number := Phrase.meantIn_number
  truth := Phrase.meantIn_truth
  name := Phrase.meantIn_name
  bracketed _ _ := Phrase.meantIn_bracketed _ _
  emptyCall isName _ := Phrase.meantIn_emptyCall isName
  call isName _ := Phrase.meantIn_call isName
  last isClosing h := Arguments.meantIn_last h isClosing
  more isComma h := Arguments.meantIn_more h isComma

theorem Derives.meantIn {source : List Char} {stratum : Stratum}
    {phrase : Phrase} (derived : Derives stratum phrase)
    (spelled : ∀ token ∈ phrase.yield, token.SpelledIn source) :
    phrase.MeantIn source :=
  derived.inherit (Phrase.inherited_meantIn source) spelled

/-! ## Declarations -/

def Statement.primitive? : Statement → Option Primitive
  | .skip _ _ => some .skip
  | .assign name _ value _ => do
      let target ← name.kind.name?
      let value ← value.arith?
      return .assign target value

def Sentence.decl? (source : String) : Sentence → Option Decl
  | .assertion _ first rest _ => do
      let formulas ← (first :: rest.map (·.formula)).mapM Phrase.formula?
      let formula ← Formula.conjoin? formulas
      return .assertion ⟨source, formula⟩
  | .command first rest => do
      match ← (first :: rest).mapM Statement.primitive? with
      | first :: rest => return .program ⟨source, ⟨first, rest⟩⟩
      | [] => none

section Declarations

variable {source : List Char}

private theorem Statement.Derived.readStatement_tree {statement : Statement}
    (derived : statement.Derived)
    (spelled : ∀ token ∈ statement.yield, token.SpelledIn source) :
    (statement.tree.readStatement source).toOption =
      statement.primitive? := by
  cases derived with
  | skip _ _ => rfl
  | @assign name op semi text value isName isAssign derived isSemi =>
      simp only [Statement.yield, List.cons_append, List.forall_mem_cons,
        List.forall_mem_append] at spelled
      obtain ⟨inName, -, inValue, -⟩ := spelled
      rw [Statement.tree, Tree.readStatement, toOption_bind,
        Phrase.readName_leaf isName inName, Statement.primitive?]
      simp only [toOption_bind, (derived.meantIn inValue).arith]
      rfl

private theorem Sentence.readAssertion_body (opening closing : Token)
    {first : Phrase} {further : List FurtherFormula}
    (meant : ∀ phrase ∈ first :: further.map (·.formula),
      (phrase.tree.readFormula source).toOption = phrase.formula?) :
    ((Sentence.assertion opening first further closing).body.readAssertion
        source).toOption =
      ((first :: further.map (·.formula)).mapM Phrase.formula?).bind
        Formula.conjoin? := by
  have read := toOption_mapM meant
  rw [List.map_cons, List.map_map] at read
  rw [Sentence.body, Tree.readAssertion, toOption_bind]
  simp only [Tree.toOption_expecting]
  exact congrArg (Option.bind · Formula.conjoin?) read

private theorem Sentence.readCommand_body {first : Statement}
    {others : List Statement} (meant : ∀ statement ∈ first :: others,
      (statement.tree.readStatement source).toOption =
        statement.primitive?) :
    ((Sentence.command first others).body.readCommand source).toOption =
      ((first :: others).mapM Statement.primitive?).bind fun primitives =>
        match primitives with
        | first :: rest => some ⟨first, rest⟩
        | [] => none := by
  have read := toOption_mapM meant
  rw [Sentence.body, Tree.readCommand, toOption_bind]
  refine (congrArg (Option.bind · _) read).trans ?_
  congr 1
  funext primitives
  cases primitives with
  | nil => rfl
  | cons first rest => rfl

theorem Sentence.Derived.readDecl_tree {sentence : Sentence}
    (derived : sentence.Derived)
    (spelled : ∀ token ∈ sentence.yield, token.SpelledIn source) :
    (sentence.tree.readDecl source).toOption =
      sentence.decl? (String.ofList source) := by
  cases derived with
  | @assertion opening closing first further isOpening derived allDerived
      isClosing =>
      have meant : ∀ phrase ∈ first :: further.map (·.formula),
          (phrase.tree.readFormula source).toOption = phrase.formula? := by
        rw [List.forall_mem_cons, List.forall_mem_map]
        refine ⟨(derived.meantIn ?_).formula, fun formula mem =>
          ((allDerived formula mem).formula.meantIn ?_).formula⟩
        · intro token mem
          exact spelled token (by simp [Sentence.yield, mem])
        · intro token inside
          have : token ∈ further.flatMap FurtherFormula.yield :=
            List.mem_flatMap.mpr
              ⟨formula, mem, List.mem_cons_of_mem _ inside⟩
          exact spelled token (by simp [Sentence.yield, this])
      show ((Sentence.assertion opening first further
        closing).body.readAssertion source >>= fun formula => _).toOption = _
      rw [toOption_bind, readAssertion_body opening closing meant,
        Option.bind_assoc]
      rfl
  | @command first others derived allDerived =>
      have meant : ∀ statement ∈ first :: others,
          (statement.tree.readStatement source).toOption =
            statement.primitive? := by
        intro statement mem
        have derived :=
          List.forall_mem_cons.mpr ⟨derived, allDerived⟩ statement mem
        refine derived.readStatement_tree fun token inside => ?_
        exact spelled token (List.mem_flatMap.mpr ⟨statement, mem, inside⟩)
      show ((Sentence.command first others).body.readCommand source >>=
        fun command => _).toOption = _
      rw [toOption_bind, readCommand_body meant, Option.bind_assoc]
      show Option.bind _ _ = Option.bind _ _
      congr 1
      funext primitives
      cases primitives with
      | nil => rfl
      | cons first rest => rfl

end Declarations

end ProofOutline
