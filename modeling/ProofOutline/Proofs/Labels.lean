import ProofOutline.Proofs.Delimiting
import ProofOutline.Proofs.Diagnostics

/-!
# Labels on commands

A command is parsed with its last semicolon supplied, so an error of it has a
place in a text that is one character longer than what was typed.  The place
lies in the typed text, unless the parser stops at the supplied semicolon or at
the end of input behind it: these two places are not in the typed text.
-/

namespace ProofOutline

open Text

/-! ## Behind the typed text -/

/-- The span of a semicolon behind the text, or of the end behind that. -/
def Span.Behind (text : List Char) (span : Span) : Prop :=
  span = ⟨byteLength text, byteLength text + 1⟩ ∨
    span = ⟨byteLength text + 1, byteLength text + 1⟩

@[simp] theorem Text.byteLength_concat_semi (text : List Char) :
    byteLength (text ++ [';']) = byteLength text + 1 :=
  byteLength_append text [';']

section Typed

variable {text : List Char} {tokens : List Token} {token : Token}

private theorem byteLength_le_of_concat {front rest : List Char}
    (split : front ++ rest = text ++ [';']) (more : rest ≠ []) :
    byteLength front ≤ byteLength text := by
  obtain ⟨init, last, rfl⟩ := List.eq_nil_or_concat rest |>.resolve_left more
  rw [List.concat_eq_append, ← List.append_assoc] at split
  rw [← (List.append_inj' split rfl).1, byteLength_append]
  exact Nat.le_add_right _ _

private theorem TokenKind.eq_semi_of_concat {kind : TokenKind}
    {before : List Char} (proper : kind.Proper)
    (split : before ++ kind.spelling.toList = text ++ [';']) :
    kind = .semi := by
  have fits := Lexeme.fits_of_proper proper
  have nonempty : kind.spelling.toList ≠ [] := fits.text_ne_nil
  have final : ';' ∈ kind.spelling.toList.getLast? := by
    have whole := congrArg List.getLast? split
    rw [List.getLast?_append_of_ne_nil _ nonempty] at whole
    simpa using whole
  rcases fits.eq_semi final with ⟨body, isComment, -⟩ | isSemi
  · have hash : '#' ∈ (Lexeme.token kind).text := by simp [isComment]
    exact absurd hash fits.hash_not_mem
  · cases isSemi
    rfl

theorem Lexes.typed_or_behind (lexes : Lexes 0 (text ++ [';']) tokens)
    (mem : token ∈ tokens) :
    token.span.stop ≤ byteLength text ∨
      (token.kind = .semi ∨ token.kind = .eof) ∧ token.span.Behind text := by
  obtain ⟨before, after, split, span⟩ := lexes.placedIn [] rfl token mem
  rw [List.nil_append, ← List.append_assoc] at split
  by_cases more : after = []
  · right
    rw [more, List.append_nil] at split
    obtain ⟨others, proper, rfl⟩ := lexes.ends
    rcases List.mem_append.mp mem with inside | last
    · have isSemi := TokenKind.eq_semi_of_concat (proper token inside) split
      refine ⟨.inl isSemi, .inl ?_⟩
      rw [isSemi] at split span
      have typed : before = text := (List.append_inj' split rfl).1
      rw [span, typed]
      rfl
    · cases List.mem_singleton.mp last
      refine ⟨.inr rfl, .inr ?_⟩
      rw [Nat.zero_add, byteLength_concat_semi]
  · left
    have within := byteLength_le_of_concat split more
    rw [byteLength_append] at within
    rw [span]
    exact within

theorem Span.Picks.typed_or_behind {span : Span} (h : span.Picks tokens)
    (lexes : Lexes 0 (text ++ [';']) tokens) :
    span.stop ≤ byteLength text ∨ span.Behind text := by
  cases h with
  | token mem => exact (lexes.typed_or_behind mem).imp_right And.right
  | @brackets opening closing sub isClosing =>
      left
      have mem : closing ∈ tokens := sub.subset (by simp)
      refine (lexes.typed_or_behind mem).resolve_right fun behind => ?_
      rcases behind.1 with isSemi | isEof
      · simp [isSemi] at isClosing
      · simp [isEof] at isClosing

end Typed

/-! ## Errors of the lexer -/

namespace Source

variable {text : List Char}

/-- A semicolon starts a lexeme, so the lexer is never stuck at the last. -/
theorem typed_of_lexical {error : LexError}
    (failed : Token.lexChars (text ++ [';']) = .error error) :
    error.span.stop ≤ byteLength text := by
  obtain ⟨lexemes, rest, split, noneAt, start⟩ :=
    lexFrom_eq_error_iff.mp failed
  have cut : (lexemes.flatMap Lexeme.text ++ [error.char]) ++ rest =
      text ++ [';'] := by
    rw [List.append_assoc]
    exact split.append
  have more : rest ≠ [] := by
    rintro rfl
    rw [List.append_nil] at cut
    have isSemi : error.char = ';' := by
      simpa using (List.append_inj' cut rfl).2
    have fits : (Lexeme.token .semi).Fits := trivial
    refine noneAt _ fits ?_
    rw [isSemi]
    exact List.prefix_refl _
  have within := byteLength_le_of_concat cut more
  rw [byteLength_append] at within
  rw [Nat.zero_add] at start
  show error.offset + error.char.utf8Size ≤ _
  rw [start]
  exact within

end Source

/-! ## Errors of reading -/

def Tree.EndsWithin (tokens : List Token) (tree : Tree) : Prop :=
  ∃ token ∈ tokens, token.kind ≠ .semi ∧ tree.span.stop = token.span.stop

section Reading

variable {source : List Char} {tokens : List Token}

private theorem Tree.Covers.endsWithin {tree : Tree} {part : List Token}
    (h : tree.Covers part) (semiFree : ∀ token ∈ part, token.kind ≠ .semi)
    (sub : part ⊆ tokens) : tree.Everywhere (EndsWithin tokens) := by
  apply h.laid.mono
  rintro node ⟨inner, pieces, inside, ⟨first, last, -, final, span⟩, -⟩
  have mem := inside.subset (List.mem_of_getLast? final)
  exact ⟨last, sub mem, semiFree last mem, by rw [span]; rfl⟩

theorem Derives.semiFree {stratum : Stratum} {phrase : Phrase}
    (derived : Derives stratum phrase) : phrase.SemiFree :=
  derived.inherit Phrase.inherited_semiFree fun _ _ => trivial

theorem Statement.Derived.blames_readStatement {statement : Statement}
    (derived : statement.Derived) (sub : statement.yield ⊆ tokens) :
    Blames source (Tree.EndsWithin tokens)
      (statement.tree.readStatement source) := by
  cases derived with
  | skip _ _ => exact failsOnly_ok _
  | @assign name op semi text value isName _ derived isSemi =>
      have inside : value.yield ⊆ tokens := by
        refine fun token mem => sub ?_
        simp [Statement.yield, mem]
      have target : name.leaf.EndsWithin tokens :=
        ⟨name, sub (by simp [Statement.yield]), by simp [isName], rfl⟩
      have expr := value.covers_tree.endsWithin derived.semiFree inside
      refine (Tree.blames_readName target).bind fun _ => ?_
      exact (Tree.blames_readArith expr).bind fun _ => failsOnly_ok _

private theorem Sentence.semiFree_assertion {opening closing : Token}
    {first : Phrase} {rest : List FurtherFormula}
    (derived : (Sentence.assertion opening first rest closing).Derived) :
    ∀ token ∈ (Sentence.assertion opening first rest closing).yield,
      token.kind ≠ .semi := by
  cases derived with
  | assertion isOpening derived others isClosing =>
      intro token mem
      simp only [yield, List.mem_append, List.mem_cons, List.mem_flatMap,
        FurtherFormula.yield, List.not_mem_nil, or_false] at mem
      rcases mem with ((rfl | mem) | ⟨further, isOther, rfl | mem⟩) | rfl
      · simp [isOpening]
      · exact derived.semiFree token mem
      · simp [(others further isOther).comma]
      · exact (others further isOther).formula.semiFree token mem
      · simp [isClosing]

private theorem Sentence.blames_readCommand {first : Statement}
    {rest : List Statement} {span : Span} (derived : first.Derived)
    (others : ∀ statement ∈ rest, statement.Derived) :
    Blames source (Tree.EndsWithin (Sentence.command first rest).yield)
      ((Tree.node .command span
        (first.tree :: rest.map Statement.tree)).readCommand source) := by
  have inside {statement : Statement} (mem : statement ∈ first :: rest) :
      statement.yield ⊆ (Sentence.command first rest).yield :=
    fun token isToken => List.mem_flatMap_of_mem mem isToken
  have later : Blames source
      (Tree.EndsWithin (Sentence.command first rest).yield)
      ((rest.map Statement.tree).mapM (Tree.readStatement source)) := by
    refine failsOnly_mapM fun tree mem => ?_
    obtain ⟨statement, isOther, rfl⟩ := List.mem_map.mp mem
    exact (others statement isOther).blames_readStatement
      (inside (List.mem_cons_of_mem _ isOther))
  unfold Tree.readCommand
  rw [Tree.children, List.mapM_cons, bind_assoc]
  refine (derived.blames_readStatement (inside List.mem_cons_self)).bind
    fun _ => ?_
  rw [bind_assoc]
  exact FailsOnly.bind later fun _ => failsOnly_ok _

theorem Sentence.Derived.blames_readDecl {sentence : Sentence}
    (derived : sentence.Derived) :
    Blames source (Tree.EndsWithin sentence.yield)
      (sentence.tree.readDecl source) := by
  cases sentence with
  | assertion opening first rest closing =>
      have whole := (Sentence.assertion opening first rest closing).covers_tree
      exact Tree.blames_readDecl (whole.endsWithin
        (Sentence.semiFree_assertion derived) (List.Subset.refl _))
  | command first rest =>
      cases derived with
      | command derived others =>
          exact (Sentence.blames_readCommand derived others).bind
            fun _ => failsOnly_ok _

end Reading

/-! ## Errors of commands -/

namespace Source

variable {text : List Char}

private theorem typed_of_reading {sentence : Sentence} {error : ReadError}
    (written : sentence.WrittenIn (text ++ [';']))
    (failed : sentence.tree.readDecl (text ++ [';']) = .error error) :
    error.span.stop ≤ byteLength text := by
  obtain ⟨eof, -, lexes⟩ := written.lexed
  obtain ⟨node, expectation, ⟨token, mem, notSemi, stop⟩, rfl⟩ :=
    written.derived.blames_readDecl error failed
  show node.span.stop ≤ _
  rw [stop]
  have notEof := (written.proper token mem).ne_eof
  refine (lexes.typed_or_behind (List.mem_append_left _ mem)).resolve_right
    fun behind => ?_
  exact behind.1.elim notSemi notEof

private theorem typed_or_behind_of_parseChars {error : SourceError}
    {span : Span} (trimmed : trimChars (text ++ [';']) = text ++ [';'])
    (failed : parseChars (text ++ [';']) = .error error)
    (labelled : error.diagnostic.span = some span) :
    span.stop ≤ byteLength text ∨
      (∃ cause, error = .grammar cause) ∧ span.Behind text := by
  rcases exists_of_parseChars_error failed with
    ⟨cause, rfl, lexed⟩ | ⟨cause, tokens, rfl, lexes, refused⟩ |
      ⟨cause, sentence, rfl, written, refused⟩
  · cases labelled
    rw [trimmed] at lexed
    exact .inl (typed_of_lexical lexed)
  · cases labelled
    rw [trimmed] at lexes
    have points := Tree.pointsInto_of_ofTokens lexes.endsWithEof refused
    exact (points.picks.typed_or_behind lexes).imp_right
      fun behind => ⟨⟨cause, rfl⟩, behind⟩
  · cases labelled
    rw [trimmed] at written refused
    exact .inl (typed_of_reading written refused)

private theorem marks_of_parseChars {source : List Char} {error : SourceError}
    {span : Span} (failed : parseChars source = .error error)
    (labelled : error.diagnostic.span = some span) :
    span.Marks (trimChars source) := by
  rcases exists_of_parseChars_error failed with
    ⟨cause, rfl, lexed⟩ | ⟨cause, tokens, rfl, lexes, refused⟩ |
      ⟨cause, sentence, rfl, written, refused⟩
  · cases labelled
    exact marks_of_lexical lexed
  · cases labelled
    have points := Tree.pointsInto_of_ofTokens lexes.endsWithEof refused
    exact points.span.marks lexes
  · cases labelled
    exact (marks_of_reading written refused).1

private theorem parseChars_of_parseCommand_error {source : String}
    {error : SourceError} {span : Span}
    (failed : parseCommand source = .error error)
    (labelled : error.diagnostic.span = some span) :
    parseChars (delimit (trimChars source.toList)) = .error error := by
  rcases bind_eq_error_iff.mp failed with failed | ⟨decl, -, failed⟩
  · exact failed
  · cases decl with
    | program program => cases failed
    | assertion assertion =>
        cases failed
        cases labelled

/--
An error of a command has its place in the text that is parsed, and in the
typed text as well, with one exception: if the last semicolon was supplied, the
parser may stop there, or at the end of input behind it.
-/
theorem parseCommand_labels {source : String} {error : SourceError}
    {span : Span} (failed : parseCommand source = .error error)
    (labelled : error.diagnostic.span = some span) :
    let text := trimChars source.toList
    span.Marks (delimit text) ∧
      (span.start + span.length ≤ byteLength text ∨
        text.getLast? ≠ some ';' ∧ (∃ cause, error = .grammar cause) ∧
          span.Behind text) := by
  intro text
  have failed := parseChars_of_parseCommand_error failed labelled
  have trimmed := (solid_delimit source.toList).trimChars
  have marks := marks_of_parseChars failed labelled
  rw [trimmed] at marks
  refine ⟨marks, ?_⟩
  by_cases semi : text.getLast? = some ';'
  · left
    have within := marks.within
    rwa [delimit, if_pos semi] at within
  · rw [delimit, if_neg semi] at trimmed failed
    have whole : span.start + span.length = span.stop :=
      Nat.add_sub_of_le marks.proper
    rw [whole]
    exact (typed_or_behind_of_parseChars trimmed failed labelled).imp_right
      fun behind => ⟨semi, behind⟩

/-- The semicolon is supplied within a comment, and the input ends behind. -/
theorem parseCommand_labels_comment :
    let text := trimChars "skip # note".toList
    let error : SyntaxError := ⟨.mismatch .semi .eof, ⟨12, 12⟩⟩
    parseCommand "skip # note" = .error (.grammar error) ∧
      error.span.Marks (delimit text) ∧ error.span.Behind text := by
  intro text error
  have failed : parseCommand "skip # note" = .error (.grammar error) :=
    eq_error_of_caught (by decide +kernel)
  have long : ¬error.span.start + error.span.length ≤ byteLength text := by
    decide +kernel
  obtain ⟨marks, place⟩ := parseCommand_labels failed rfl
  exact ⟨failed, marks, (place.resolve_left long).2.2⟩

/-- The expression is missing, and the supplied semicolon is found instead. -/
theorem parseCommand_label_not_typed :
    let error : SyntaxError := ⟨.notAnExpression .semi, ⟨4, 5⟩⟩
    parseCommand "x :=" = .error (.grammar error) ∧
      (SourceError.grammar error).diagnostic.span = some error.span ∧
      ¬error.span.start + error.span.length ≤
        byteLength (trimChars "x :=".toList) :=
  ⟨eq_error_of_caught (by decide +kernel), rfl, by decide +kernel⟩

end Source

end ProofOutline
