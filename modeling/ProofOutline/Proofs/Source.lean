import ProofOutline.Proofs.Meaning
import ProofOutline.Proofs.Parser.Failing
import ProofOutline.Proofs.Parsing
import ProofOutline.Proofs.Walking
import ProofOutline.Source

/-!
# Source texts and their derivations

A source text is parsed exactly if its tokens have a derivation that there is
room for and that denotes something; the result is what it denotes, with
interpreted predicates expanded.
-/

namespace ProofOutline

/-! ## Shapes of derived trees -/

theorem Token.shaped_leaf (token : Token) : token.leaf.Shaped := by
  obtain ⟨kind, span⟩ := token
  cases kind <;> exact ⟨trivial, trivial⟩

mutual

theorem Phrase.shaped_tree : ∀ phrase : Phrase, phrase.tree.Shaped
  | .atom token => token.shaped_leaf
  | .prefixed op body => by
      have shape : op.kind.prefixKind.Shape [op.leaf, body.tree] := by
        cases op.kind <;> exact ⟨_, _, rfl⟩
      exact ⟨shape, op.shaped_leaf, body.shaped_tree, trivial⟩
  | .infixed left op right => by
      have shape : op.kind.infixKind.Shape
          [left.tree, op.leaf, right.tree] := by
        cases op.kind <;> exact ⟨_, _, _, rfl⟩
      exact ⟨shape, left.shaped_tree, op.shaped_leaf, right.shaped_tree,
        trivial⟩
  | .bracketed opening inner closing => by
      rw [Phrase.tree]
      split
      all_goals
        exact ⟨⟨_, _, _, rfl⟩, opening.shaped_leaf, inner.shaped_tree,
          closing.shaped_leaf, trivial⟩
  | .emptyCall name opening closing =>
      ⟨⟨_, _, _, _, _, rfl⟩, name.shaped_leaf,
        ⟨trivial, opening.shaped_leaf, closing.shaped_leaf, trivial⟩, trivial⟩
  | .call name opening args =>
      ⟨⟨_, _, _, _, _, rfl⟩, name.shaped_leaf,
        ⟨trivial, opening.shaped_leaf, args.shaped_items⟩, trivial⟩

private theorem Arguments.shaped_items :
    ∀ args : Arguments, Tree.AllShaped args.items
  | .last arg closing => ⟨arg.shaped_tree, closing.shaped_leaf, trivial⟩
  | .more arg comma rest =>
      ⟨arg.shaped_tree, comma.shaped_leaf, rest.shaped_items⟩

end

theorem Statement.shaped_tree (statement : Statement) :
    statement.tree.Shaped := by
  cases statement with
  | skip token semi => exact ⟨trivial, trivial⟩
  | assign name op value semi =>
      exact ⟨⟨_, _, _, rfl⟩, name.shaped_leaf, op.shaped_leaf,
        value.shaped_tree, trivial⟩

theorem Sentence.shaped_tree (sentence : Sentence) :
    sentence.tree.Shaped := by
  have body : sentence.body.Shaped := by
    cases sentence with
    | assertion opening first further closing =>
        refine ⟨trivial, first.shaped_tree, Tree.allShaped_iff.mpr ?_⟩
        rw [List.forall_mem_map]
        exact fun formula _ => formula.formula.shaped_tree
    | command first others =>
        refine ⟨trivial, first.shaped_tree, Tree.allShaped_iff.mpr ?_⟩
        rw [List.forall_mem_map]
        exact fun statement _ => statement.shaped_tree
  exact ⟨⟨_, rfl⟩, body, trivial⟩

/-! ## Parsing a source -/

/-- The tokens of the text are those of the sentence and the end of input. -/
structure Sentence.WrittenIn (text : List Char) (sentence : Sentence) :
    Prop where
  derived : sentence.Derived
  lexed : ∃ eof, eof.kind = .eof ∧ Lexes 0 text (sentence.yield ++ [eof])

namespace Sentence.WrittenIn

variable {text : List Char} {sentence : Sentence}

theorem spelledIn (h : sentence.WrittenIn text) :
    ∀ token ∈ sentence.yield, token.SpelledIn text := by
  obtain ⟨eof, -, lexed⟩ := h.lexed
  intro token mem
  exact lexed.spelledIn [] rfl token (List.mem_append_left _ mem)

theorem proper (h : sentence.WrittenIn text) :
    ∀ token ∈ sentence.yield, token.kind.Proper := by
  obtain ⟨eof, -, lexed⟩ := h.lexed
  obtain ⟨before, last, split, proper, -⟩ := lexed.proper
  obtain ⟨rfl, -⟩ := List.append_inj' split rfl
  exact proper

theorem readDecl (h : sentence.WrittenIn text) :
    ((Cursor.ofTree sentence.tree).readDecl text).toOption.map Prod.fst =
      sentence.decl? (String.ofList text) := by
  rw [Cursor.readDecl_ofTree text sentence.shaped_tree,
    ← h.derived.readDecl_tree h.spelledIn]
  cases sentence.tree.readDecl text with
  | error error => rfl
  | ok decl => rfl

theorem parsed (h : sentence.WrittenIn text)
    (fits : sentence.cost ≤ maxNesting) :
    ∃ eof, Token.lexChars text = .ok (sentence.yield ++ [eof]) ∧
      Tree.ofTokens (sentence.yield ++ [eof]) = .ok sentence.tree := by
  obtain ⟨eof, isEof, lexed⟩ := h.lexed
  exact ⟨eof, lexed.lexFrom, Tree.ofTokens_eq_ok_iff.mpr
    ⟨sentence, [eof], h.derived, rfl, decide_eq_true isEof, fits, rfl⟩⟩

theorem outcome (h : sentence.WrittenIn text) :
    (sentence.cost ≤ maxNesting →
      Source.parseTree text = .ok (.ofTree sentence.tree)) ∧
    (¬sentence.cost ≤ maxNesting →
      ∃ span, Source.parseTree text = .error (.grammar ⟨.tooDeep, span⟩)) := by
  obtain ⟨eof, isEof, lexed⟩ := h.lexed
  have parsed : IfRoom (sentence.cost ≤ maxNesting)
      (Parser.declaration (sentence.yield ++ [eof]))
      (.ok (sentence.tree, [eof])) :=
    ifRoom_declaration h.derived (decide_eq_true isEof)
  have tokens : Token.lexChars text = .ok (sentence.yield ++ [eof]) :=
    lexed.lexFrom
  rw [Source.parseTree, tokens]
  constructor
  · intro fits
    show (((Parser.declaration (sentence.yield ++ [eof])).map
      Prod.fst).map SyntaxTree.ofTree).mapError _ = _
    rw [parsed.1 fits]
    rfl
  · intro tooDeep
    obtain ⟨span, failed⟩ := parsed.2 tooDeep
    refine ⟨span, ?_⟩
    show (((Parser.declaration (sentence.yield ++ [eof])).map
      Prod.fst).map SyntaxTree.ofTree).mapError _ = _
    rw [failed]
    rfl

end Sentence.WrittenIn

theorem Lexes.endsWithEof {text : List Char} {tokens : List Token}
    (h : Lexes 0 text tokens) :
    EndsWithEof tokens := by
  obtain ⟨before, eof, rfl, ended⟩ := h.terminated
  exact ⟨eof, by simp, ended.last⟩

namespace Source

theorem parseTree_eq_ok_iff {text : List Char} {arena : SyntaxTree} :
    parseTree text = .ok arena ↔
      ∃ tokens tree, Token.lexChars text = .ok tokens ∧
        Tree.ofTokens tokens = .ok tree ∧ SyntaxTree.ofTree tree = arena := by
  rw [parseTree, bind_eq_ok_iff]
  simp only [mapError_eq_ok_iff, SyntaxTree.ofTokens, map_eq_ok_iff,
    exists_and_left]

theorem exists_of_ofTokens {text : List Char} {tokens : List Token}
    {tree : Tree} (lexed : Token.lexChars text = .ok tokens)
    (parsed : Tree.ofTokens tokens = .ok tree) :
    ∃ sentence : Sentence, sentence.WrittenIn text ∧
      sentence.cost ≤ maxNesting ∧ sentence.tree = tree := by
  have lexes := lexes_iff.mp lexed
  obtain ⟨before, eof, rfl, ended⟩ := lexes.terminated
  obtain ⟨sentence, rest, derived, split, isEnd, fits, eq⟩ :=
    Tree.ofTokens_eq_ok_iff.mp parsed
  obtain ⟨rfl, rfl⟩ := ended.eq_of_append split isEnd
  exact ⟨sentence, ⟨derived, eof, ended.last, lexes⟩, fits, eq⟩

theorem exists_of_parseTree {text : List Char} {arena : SyntaxTree}
    (h : parseTree text = .ok arena) :
    ∃ sentence : Sentence, sentence.WrittenIn text ∧
      sentence.cost ≤ maxNesting ∧ SyntaxTree.ofTree sentence.tree = arena := by
  obtain ⟨tokens, tree, lexed, parsed, rfl⟩ := parseTree_eq_ok_iff.mp h
  obtain ⟨sentence, written, fits, rfl⟩ := exists_of_ofTokens lexed parsed
  exact ⟨sentence, written, fits, rfl⟩

theorem parseChars_of_parseTree {source : List Char} {tree : Tree}
    (parsed : parseTree (Text.trimChars source) = .ok (.ofTree tree)) :
    parseChars source =
      ((Cursor.ofTree tree).readDecl (Text.trimChars source)).mapError
        .reading >>= fun read => .ok read.1.desugar := by
  rw [parseChars, parsed]
  rfl

theorem exists_of_parseChars {source : List Char} {decl : Decl}
    (h : parseChars source = .ok decl) :
    ∃ (sentence : Sentence) (read : Decl),
      sentence.WrittenIn (Text.trimChars source) ∧
      sentence.cost ≤ maxNesting ∧
      sentence.decl? (String.ofList (Text.trimChars source)) = some read ∧
      read.desugar = decl := by
  obtain ⟨tree, parsed, -⟩ := bind_eq_ok_iff.mp h
  obtain ⟨sentence, written, fits, rfl⟩ := exists_of_parseTree parsed
  rw [parseChars_of_parseTree parsed] at h
  obtain ⟨⟨read, cursor⟩, walked, h⟩ := bind_eq_ok_iff.mp h
  cases h
  have denoted := written.readDecl
  rw [mapError_eq_ok_iff.mp walked] at denoted
  exact ⟨sentence, read, written, fits, denoted.symm, rfl⟩

/-- A source with a derivation that denotes something, by the room it takes. -/
theorem parseChars_outcome {source : List Char} {sentence : Sentence}
    {read : Decl} (written : sentence.WrittenIn (Text.trimChars source))
    (denotes : sentence.decl? (String.ofList (Text.trimChars source)) =
      some read) :
    (sentence.cost ≤ maxNesting → parseChars source = .ok read.desugar) ∧
    (¬sentence.cost ≤ maxNesting →
      ∃ span, parseChars source = .error (.grammar ⟨.tooDeep, span⟩)) := by
  constructor
  · intro fits
    have walked := written.readDecl
    rw [denotes] at walked
    rw [parseChars_of_parseTree (written.outcome.1 fits)]
    cases found : (Cursor.ofTree sentence.tree).readDecl
        (Text.trimChars source) with
    | error error =>
        rw [found] at walked
        cases walked
    | ok result =>
        rw [found] at walked
        cases walked
        rfl
  · intro tooDeep
    obtain ⟨span, failed⟩ := written.outcome.2 tooDeep
    refine ⟨span, ?_⟩
    rw [parseChars, failed]
    rfl

theorem parseChars_refused {source : List Char} {sentence : Sentence}
    (written : sentence.WrittenIn (Text.trimChars source))
    (fits : sentence.cost ≤ maxNesting)
    (denotes : sentence.decl? (String.ofList (Text.trimChars source)) =
      none) :
    ∃ error, parseChars source = .error (.reading error) := by
  have walked := written.readDecl
  rw [denotes] at walked
  cases found : (Cursor.ofTree sentence.tree).readDecl
      (Text.trimChars source) with
  | ok result =>
      rw [found] at walked
      cases walked
  | error error =>
      refine ⟨error, ?_⟩
      rw [parseChars_of_parseTree (written.outcome.1 fits), found]
      rfl

theorem parseChars_eq_grammar_iff {source : List Char}
    {error : SyntaxError} :
    parseChars source = .error (.grammar error) ↔
      ∃ tokens, Token.lexChars (Text.trimChars source) = .ok tokens ∧
        Tree.ofTokens tokens = .error error := by
  constructor
  · intro h
    rcases bind_eq_error_iff.mp h with failed | ⟨arena, parsed, -⟩
    · rcases bind_eq_error_iff.mp failed with failed | ⟨tokens, lexed, failed⟩
      · obtain ⟨_, -, failed⟩ := mapError_eq_error_iff.mp failed
        cases failed
      · obtain ⟨failure, failed, same⟩ := mapError_eq_error_iff.mp failed
        cases same
        exact ⟨tokens, mapError_eq_ok_iff.mp lexed,
          map_eq_error_iff.mp failed⟩
    · obtain ⟨sentence, -, -, rfl⟩ := exists_of_parseTree parsed
      rw [parseChars_of_parseTree parsed] at h
      rcases bind_eq_error_iff.mp h with h | ⟨_, -, h⟩
      · obtain ⟨_, -, h⟩ := mapError_eq_error_iff.mp h
        cases h
      · cases h
  · rintro ⟨tokens, lexed, failed⟩
    have unparsed : parseTree (Text.trimChars source) =
        .error (.grammar error) :=
      bind_eq_error_iff.mpr (.inr ⟨tokens, mapError_eq_ok_iff.mpr lexed,
        mapError_eq_error_iff.mpr
          ⟨error, map_eq_error_iff.mpr failed, rfl⟩⟩)
    exact bind_eq_error_iff.mpr (.inl unparsed)

theorem cause_of_ofTokens {text : List Char} {tokens : List Token}
    {error : SyntaxError} (lexed : Token.lexChars text = .ok tokens)
    (failed : Tree.ofTokens tokens = .error error) :
    error.cause ≠ .emptyTree :=
  (Tree.pointsInto_of_ofTokens (lexes_iff.mp lexed).endsWithEof
    failed).cause.2

end Source

end ProofOutline
