import ProofOutline.Proofs.Lexer
import ProofOutline.Proofs.Parser.Declaration

/-!
# The parser and its grammar

The parser accepts the tokens before the end of input exactly if they have a
derivation with room for its cost, and gives the tree of that derivation.
There is no other derivation, and the leaves of the tree are the tokens in
their order, less the braces, the commas between formulas and the semicolons.
-/

namespace ProofOutline

open ProofOutline.Parser

/-! ## Leaves -/

namespace Tree

mutual

def leaves : Tree → List Tree
  | node kind span [] => [.node kind span []]
  | node _ _ (first :: rest) => first.leaves ++ leavesList rest

def leavesList : List Tree → List Tree
  | [] => []
  | tree :: rest => tree.leaves ++ leavesList rest

end

@[simp] theorem leaves_leaf (kind : NodeKind) (span : Span) :
    (leaf kind span).leaves = [leaf kind span] := by
  rw [leaf, leaves]

@[simp] theorem leavesList_eq_flatMap (trees : List Tree) :
    leavesList trees = trees.flatMap leaves := by
  induction trees with
  | nil => rw [leavesList, List.flatMap_nil]
  | cons first rest ih => rw [leavesList, ih, List.flatMap_cons]

@[simp] theorem leaves_node (kind : NodeKind) (span : Span) (first : Tree)
    (rest : List Tree) :
    (node kind span (first :: rest)).leaves =
      first.leaves ++ rest.flatMap leaves := by
  rw [leaves, leavesList_eq_flatMap]

end Tree

@[simp] theorem Token.leaves_leaf (token : Token) :
    token.leaf.leaves = [token.leaf] :=
  Tree.leaves_leaf _ _

mutual

theorem Phrase.leaves_tree :
    ∀ phrase : Phrase, phrase.tree.leaves = phrase.yield.map Token.leaf
  | .atom token => token.leaves_leaf
  | .prefixed op body => by
      simp [Phrase.tree, Phrase.yield, body.leaves_tree]
  | .infixed left op right => by
      simp [Phrase.tree, Phrase.yield, left.leaves_tree, right.leaves_tree]
  | .bracketed opening inner closing => by
      simp [Phrase.tree, Phrase.yield, inner.leaves_tree]
  | .emptyCall name opening closing => by simp [Phrase.tree, Phrase.yield]
  | .call name opening args => by
      simp [Phrase.tree, Phrase.yield, args.leaves_items]

private theorem Arguments.leaves_items :
    ∀ args : Arguments,
      args.items.flatMap Tree.leaves = args.yield.map Token.leaf
  | .last arg closing => by
      simp [Arguments.items, Arguments.yield, arg.leaves_tree]
  | .more arg comma rest => by
      simp [Arguments.items, Arguments.yield, arg.leaves_tree,
        rest.leaves_items]

end

/-- The semicolon of `skip` is in its leaf, that of an assignment in none. -/
def Statement.leaves : Statement → List Tree
  | .skip token semi => [.leaf .skip (token.span.through semi.span)]
  | .assign name op value _ =>
      name.leaf :: op.leaf :: value.yield.map Token.leaf

def Sentence.leaves : Sentence → List Tree
  | .assertion _ first rest _ =>
      first.yield.map Token.leaf ++
        rest.flatMap fun further => further.formula.yield.map Token.leaf
  | .command first rest => (first :: rest).flatMap Statement.leaves

@[simp] theorem Statement.leaves_tree (statement : Statement) :
    statement.tree.leaves = statement.leaves := by
  cases statement with
  | skip token semi => exact Tree.leaves_leaf _ _
  | assign name op value semi =>
      simp [Statement.tree, Statement.leaves, value.leaves_tree]

@[simp] theorem Sentence.leaves_tree (sentence : Sentence) :
    sentence.tree.leaves = sentence.leaves := by
  cases sentence with
  | assertion opening first rest closing =>
      simp [Sentence.tree, Sentence.body, Sentence.leaves, first.leaves_tree,
        List.flatMap_map, Phrase.leaves_tree]
  | command first rest =>
      simp [Sentence.tree, Sentence.body, Sentence.leaves,
        List.flatMap_map, Statement.leaves_tree]

/-! ## Exactness -/

theorem Tree.ofTokens_eq_ok_iff {tokens : List Token} {tree : Tree} :
    Tree.ofTokens tokens = .ok tree ↔
      ∃ (sentence : Sentence) (rest : List Token), sentence.Derived ∧
        sentence.yield ++ rest = tokens ∧
        startsWith (· = .eof) rest = true ∧
        sentence.cost ≤ maxNesting ∧ sentence.tree = tree := by
  constructor
  · intro h
    cases parsed : declaration tokens with
    | error error =>
        rw [Tree.ofTokens, StateT.run, parsed] at h
        cases h
    | ok result =>
        obtain ⟨found, rest⟩ := result
        rw [Tree.ofTokens, StateT.run, parsed] at h
        cases h
        obtain ⟨sentence, derived, yield, eq, fits, ended⟩ :=
          sound_declaration parsed
        exact ⟨sentence, rest, derived, yield, ended, fits, eq⟩
  · rintro ⟨sentence, rest, derived, rfl, ended, fits, rfl⟩
    have parsed := (ifRoom_declaration derived ended).1 fits
    rw [Tree.ofTokens, StateT.run, parsed]
    rfl

theorem Terminated.eq_of_append {before : List Token} {eof : Token}
    (h : Terminated before eof) {yield rest : List Token}
    (split : yield ++ rest = before ++ [eof])
    (ended : startsWith (· = .eof) rest = true) :
    yield = before ∧ rest = [eof] := by
  obtain ⟨token, after, rfl, isEof⟩ := exists_of_startsWith ended
  rcases List.append_eq_append_iff.mp split with
    ⟨between, rfl, eq⟩ | ⟨between, rfl, eq⟩
  · cases between with
    | nil => exact ⟨(List.append_nil _).symm, eq⟩
    | cons first others =>
        injection eq with same _
        subst same
        exact absurd (of_decide_eq_true isEof) (h.inside token (by simp))
  · cases between with
    | nil => exact ⟨List.append_nil _, eq.symm⟩
    | cons first others => simp at eq

private theorem Tree.ofTokens_eq_error {tokens : List Token}
    (noEof : ∀ token ∈ tokens, token.kind ≠ .eof) :
    ∃ error, Tree.ofTokens tokens = .error error := by
  cases parsed : Tree.ofTokens tokens with
  | error error => exact ⟨error, rfl⟩
  | ok tree =>
      obtain ⟨sentence, rest, -, rfl, ended, -⟩ :=
        Tree.ofTokens_eq_ok_iff.mp parsed
      obtain ⟨token, after, rfl, isEof⟩ := exists_of_startsWith ended
      exact absurd (of_decide_eq_true isEof) (noEof token (by simp))

/--
Lexed sources end with their only end-of-input token.  The tokens before it
are accepted with a tree exactly if they have a derivation with that tree and
there is room for its cost.  A list of tokens has at most one derivation, and
the leaves of its tree are its tokens in order.  A list without end of input
is never accepted.
-/
theorem parser_exact :
    (∀ (source : List Char) (tokens : List Token),
      Token.lexChars source = .ok tokens →
        ∃ before eof, tokens = before ++ [eof] ∧ Terminated before eof) ∧
    (∀ (before : List Token) (eof : Token), Terminated before eof →
      ∀ tree : Tree, Tree.ofTokens (before ++ [eof]) = .ok tree ↔
        ∃ sentence : Sentence, sentence.Derived ∧ sentence.yield = before ∧
          sentence.cost ≤ maxNesting ∧ sentence.tree = tree) ∧
    (∀ sentence other : Sentence, sentence.Derived → other.Derived →
      sentence.yield = other.yield → sentence = other) ∧
    (∀ sentence : Sentence, sentence.Derived →
      sentence.tree.leaves = sentence.leaves) ∧
    (∀ tokens : List Token, (∀ token ∈ tokens, token.kind ≠ .eof) →
      ∃ error, Tree.ofTokens tokens = .error error) := by
  refine ⟨fun source tokens lexed => ?_, fun before eof ended tree => ?_,
    fun sentence other derived otherDerived => derived.unique otherDerived,
    fun sentence _ => sentence.leaves_tree,
    fun tokens => Tree.ofTokens_eq_error⟩
  · exact (lexes_iff.mp lexed).terminated
  · rw [Tree.ofTokens_eq_ok_iff]
    constructor
    · rintro ⟨sentence, rest, derived, split, isEnd, fits, eq⟩
      obtain ⟨yield, -⟩ := ended.eq_of_append split isEnd
      exact ⟨sentence, derived, yield, fits, eq⟩
    · rintro ⟨sentence, derived, rfl, fits, eq⟩
      exact ⟨sentence, [eof], derived, rfl, decide_eq_true ended.last, fits,
        eq⟩

/-- The assertion `{x < -1 => p(x, y), true}`. -/
def Sentence.twoFormulas : Sentence :=
  .assertion ⟨.lbrace, ⟨0, 1⟩⟩
    (.infixed
      (.infixed (.atom ⟨.ident "x", ⟨1, 2⟩⟩) ⟨.lt, ⟨3, 4⟩⟩
        (.prefixed ⟨.minus, ⟨5, 6⟩⟩ (.atom ⟨.int "1", ⟨6, 7⟩⟩)))
      ⟨.implies, ⟨8, 10⟩⟩
      (.call ⟨.ident "p", ⟨11, 12⟩⟩ ⟨.lparen, ⟨12, 13⟩⟩
        (.more (.atom ⟨.ident "x", ⟨13, 14⟩⟩) ⟨.comma, ⟨14, 15⟩⟩
          (.last (.atom ⟨.ident "y", ⟨16, 17⟩⟩) ⟨.rparen, ⟨17, 18⟩⟩))))
    [⟨⟨.comma, ⟨18, 19⟩⟩, .atom ⟨.kwTrue, ⟨20, 24⟩⟩⟩]
    ⟨.rbrace, ⟨24, 25⟩⟩

theorem Sentence.derived_twoFormulas : twoFormulas.Derived := by
  have name (text : String) (span : Span) :
      Derives .primary (.atom ⟨.ident text, span⟩) := .name rfl
  have one : Derives .primary (.atom ⟨.int "1", ⟨6, 7⟩⟩) := .number rfl
  have minusOne : Derives .unary
      (.prefixed ⟨.minus, ⟨5, 6⟩⟩ (.atom ⟨.int "1", ⟨6, 7⟩⟩)) :=
    .sign rfl (one.mono (by decide))
  have below : Derives .comparison
      (.infixed (.atom ⟨.ident "x", ⟨1, 2⟩⟩) ⟨.lt, ⟨3, 4⟩⟩
        (.prefixed ⟨.minus, ⟨5, 6⟩⟩ (.atom ⟨.int "1", ⟨6, 7⟩⟩))) :=
    .compare ((name _ _).mono (by decide)) rfl (minusOne.mono (by decide))
  have args : DerivesArguments
      (.more (.atom ⟨.ident "x", ⟨13, 14⟩⟩) ⟨.comma, ⟨14, 15⟩⟩
        (.last (.atom ⟨.ident "y", ⟨16, 17⟩⟩) ⟨.rparen, ⟨17, 18⟩⟩)) :=
    .more ((name _ _).mono (by decide)) rfl
      (.last ((name _ _).mono (by decide)) rfl)
  have call : Derives .primary (.call ⟨.ident "p", ⟨11, 12⟩⟩
      ⟨.lparen, ⟨12, 13⟩⟩ _) := .call rfl rfl args
  have truth : Derives .primary (.atom ⟨.kwTrue, ⟨20, 24⟩⟩) :=
    .truth (.inl rfl)
  refine .assertion rfl ?_ ?_ rfl
  · exact .implies (below.mono (by decide)) rfl (call.mono (by decide))
  · simpa using ⟨rfl, truth.mono (by decide)⟩

theorem parser_exact_twoFormulas :
    Terminated Sentence.twoFormulas.yield ⟨.eof, ⟨25, 25⟩⟩ ∧
    Tree.ofTokens (Sentence.twoFormulas.yield ++ [⟨.eof, ⟨25, 25⟩⟩]) =
      .ok Sentence.twoFormulas.tree ∧
    (∃ error, Tree.ofTokens Sentence.twoFormulas.yield = .error error) ∧
    Sentence.twoFormulas.tree.leaves = Sentence.twoFormulas.leaves := by
  have ended : Terminated Sentence.twoFormulas.yield ⟨.eof, ⟨25, 25⟩⟩ :=
    ⟨by decide, rfl⟩
  obtain ⟨-, accepts, -, leaves, fails⟩ := parser_exact
  refine ⟨ended, ?_, fails _ ended.inside, ?_⟩
  · exact (accepts _ _ ended _).mpr
      ⟨_, Sentence.derived_twoFormulas, rfl, by decide, rfl⟩
  · exact leaves _ Sentence.derived_twoFormulas

end ProofOutline
