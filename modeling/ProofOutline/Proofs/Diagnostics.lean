import ProofOutline.Proofs.ParsedTrees
import ProofOutline.Proofs.Parser.Failing
import ProofOutline.Proofs.Splitting

/-!
# Diagnostics point into the source

Every error of reading a source has a place in the trimmed text: the character
that starts no lexeme, tokens that the parser stops at, or a node that does
not denote what its place asks for.  Such a node is quoted as it stands there.
-/

namespace ProofOutline

open Text

/-! ## Nodes to blame -/

def Blames {α : Type} (source : List Char) (holds : Tree → Prop)
    (result : Except ReadError α) : Prop :=
  FailsOnly (fun error => ∃ tree expectation, holds tree ∧
    error = tree.refusal source expectation) result

section Blames

variable {α : Type} {source : List Char} {holds : Tree → Prop} {tree : Tree}
  {expectation : Expectation}

theorem blames_refusal (h : holds tree) :
    Blames source holds (.error (tree.refusal source expectation) :
      Except ReadError α) :=
  failsOnly_error ⟨tree, expectation, h, rfl⟩

theorem blames_expecting {found : Option α} (h : holds tree) :
    Blames source holds (tree.expecting source expectation found) :=
  failsOnly_expecting fun _ => ⟨tree, expectation, h, rfl⟩

private theorem blames_mapError {result : Except ReadError α} (h : holds tree) :
    Blames source holds
      (result.mapError fun _ => tree.refusal source expectation) := by
  cases result with
  | error error => exact blames_refusal h
  | ok value => exact failsOnly_ok value

end Blames

namespace Tree

variable {source : List Char} {holds : Tree → Prop} {tree : Tree}

theorem Everywhere.here (h : tree.Everywhere holds) : holds tree :=
  (everywhere_iff.mp h).1

theorem Everywhere.below {child : Tree} (h : tree.Everywhere holds)
    (mem : child ∈ tree.children) : child.Everywhere holds :=
  (everywhere_iff.mp h).2 child mem

theorem blames_readName (h : holds tree) :
    Blames source holds (tree.readName source) :=
  blames_expecting h

theorem blames_readArith (h : tree.Everywhere holds) :
    Blames source holds (tree.readArith source) := by
  fun_induction readArith source tree with
  | case1 span children =>
      exact (blames_readName h.here).bind fun _ => failsOnly_ok _
  | case2 span children => exact blames_expecting h.here
  | case3 span left op right ihLeft ihRight =>
      have first := ihLeft (h.below (by simp [Tree.children]))
      have second := ihRight (h.below (by simp [Tree.children]))
      exact first.bind fun _ => second.bind fun _ => blames_expecting h.here
  | case4 span sign operand ih =>
      have inner := ih (h.below (by simp [Tree.children]))
      exact inner.bind fun _ => blames_expecting h.here
  | case5 span opening inner closing ih =>
      exact ih (h.below (by simp [Tree.children]))
  | case6 => exact blames_refusal h.here

private theorem blames_readItems {items : List Tree}
    (h : ∀ item ∈ items, item.Everywhere holds) :
    Blames source holds (readItems source items) := by
  induction items with
  | nil => exact failsOnly_ok []
  | cons item rest ih =>
      rw [List.forall_mem_cons] at h
      rw [readItems]
      split
      · exact ih h.2
      · refine (blames_mapError h.1.here).bind fun _ => ?_
        exact (ih h.2).bind fun _ => failsOnly_ok _

private theorem blames_readFormula (h : tree.Everywhere holds) :
    Blames source holds (tree.readFormula source) := by
  fun_induction readFormula source tree with
  | case1 span children => exact failsOnly_ok _
  | case2 span symbol kind inner opening items =>
      have name : symbol.Everywhere holds :=
        h.below (by simp [Tree.children])
      have args : (node kind inner (opening :: items)).Everywhere holds :=
        h.below (by simp [Tree.children])
      have values : Blames source holds (readItems source items) := by
        apply blames_readItems
        intro item mem
        exact args.below (List.mem_cons_of_mem _ mem)
      refine (blames_readName name.here).bind fun _ => ?_
      exact values.bind fun _ => failsOnly_ok _
  | case3 span left op right ihLeft ihRight
  | case4 span left op right ihLeft ihRight
  | case5 span left op right ihLeft ihRight =>
      have first := ihLeft (h.below (by simp [Tree.children]))
      have second := ihRight (h.below (by simp [Tree.children]))
      exact first.bind fun _ => second.bind fun _ => blames_expecting h.here
  | case6 span left op right =>
      have first : left.Everywhere holds := h.below (by simp [Tree.children])
      have second : right.Everywhere holds := h.below (by simp [Tree.children])
      refine (blames_readArith first).bind fun _ => ?_
      exact (blames_readArith second).bind fun _ => blames_expecting h.here
  | case7 span bang body ih =>
      have inner := ih (h.below (by simp [Tree.children]))
      exact inner.bind fun _ => failsOnly_ok _
  | case8 span opening inner closing ih =>
      exact ih (h.below (by simp [Tree.children]))
  | case9 => exact blames_refusal h.here

theorem blames_readStatement (h : tree.Everywhere holds) :
    Blames source holds (tree.readStatement source) := by
  fun_cases readStatement source tree with
  | case1 span name op value =>
      have target : name.Everywhere holds := h.below (by simp [Tree.children])
      have value : value.Everywhere holds := h.below (by simp [Tree.children])
      refine (blames_readName target.here).bind fun _ => ?_
      exact (blames_readArith value).bind fun _ => failsOnly_ok _
  | case2 span children => exact failsOnly_ok _
  | case3 => exact blames_refusal h.here

private theorem blames_readBody (h : tree.Everywhere holds) :
    Blames source holds (tree.readBody source) := by
  fun_cases readBody source tree with
  | case1 span children =>
      have formulas : Blames source holds
          (children.mapM (readFormula source)) :=
        failsOnly_mapM fun child mem => blames_readFormula (h.below mem)
      refine FailsOnly.bind ?_ fun _ => failsOnly_ok _
      exact formulas.bind fun _ => blames_expecting h.here
  | case2 span children =>
      have statements : Blames source holds
          (children.mapM (readStatement source)) :=
        failsOnly_mapM fun child mem => blames_readStatement (h.below mem)
      refine FailsOnly.bind (statements.bind fun found => ?_)
        fun _ => failsOnly_ok _
      cases found with
      | nil => exact blames_refusal h.here
      | cons first rest => exact failsOnly_ok _
  | case3 => exact blames_refusal h.here

theorem blames_readDecl (h : tree.Everywhere holds) :
    Blames source holds (tree.readDecl source) := by
  fun_cases readDecl source tree with
  | case1 span body => exact blames_readBody (h.below List.mem_cons_self)
  | case2 => exact blames_refusal h.here

end Tree

/-! ## Places in a text -/

/-- The span lies in the text, with both ends between characters. -/
structure Span.Marks (text : List Char) (span : Span) : Prop where
  proper : span.start ≤ span.stop
  within : span.start + span.length ≤ byteLength text
  start : IsBoundary text span.start
  stop : IsBoundary text (span.start + span.length)

section Places

variable {text : List Char} {span : Span} {tokens : List Token}

theorem Text.IsBoundary.le {offset : Nat} (h : IsBoundary text offset) :
    offset ≤ byteLength text := by
  obtain ⟨before, after, rfl, rfl⟩ := h
  rw [byteLength_append]
  omega

private theorem Span.marks_of_boundaries (proper : span.start ≤ span.stop)
    (start : IsBoundary text span.start) (stop : IsBoundary text span.stop) :
    span.Marks text := by
  have whole : span.start + span.length = span.stop := by
    rw [Span.length]
    omega
  constructor
  · exact proper
  · rw [whole]
    exact stop.le
  · exact start
  · rwa [whole]

private theorem Span.exists_slice? (proper : span.start ≤ span.stop)
    (start : IsBoundary text span.start) (stop : IsBoundary text span.stop) :
    ∃ inside, slice? text span = some inside := by
  obtain ⟨before, after, rfl, start⟩ := start
  obtain ⟨longer, rest, split, stop⟩ := stop
  have between : ∃ inside, longer = before ++ inside ∧
      after = inside ++ rest := by
    rcases List.append_eq_append_iff.mp split with
      ⟨inside, rfl, rfl⟩ | between
    · -- The second boundary is not before the first.
      have empty : inside = [] := by
        refine Decidable.byContradiction fun nonempty => ?_
        have positive := byteLength_pos nonempty
        rw [byteLength_append] at start
        omega
      exact ⟨[], by simp [empty], by simp [empty]⟩
    · exact between
  obtain ⟨inside, rfl, rfl⟩ := between
  refine ⟨inside, ?_⟩
  rw [byteLength_append] at stop
  have eq : span = ⟨byteLength before,
      byteLength before + byteLength inside⟩ := by
    rw [stop, start]
  rw [eq]
  exact slice?_append before inside rest

theorem Lexes.inOrder (h : Lexes 0 text tokens) : Token.InOrder tokens := by
  constructor
  · intro token mem
    obtain ⟨before, after, -, span⟩ := h.placedIn [] rfl token mem
    rw [span]
    exact Nat.le_add_right _ _
  · exact h.ordered.2.imp fun apart => apart.2

theorem Span.Stretches.boundaries (h : span.Stretches tokens)
    (lexes : Lexes 0 text tokens) :
    span.start ≤ span.stop ∧ IsBoundary text span.start ∧
      IsBoundary text span.stop := by
  obtain ⟨part, first, last, sub, head, final, rfl⟩ := h
  have isFirst : first ∈ part := List.mem_of_mem_head? head
  have isLast : last ∈ part := List.mem_of_getLast? final
  have ordered := lexes.inOrder.sublist sub
  have proper := ordered.proper first isFirst
  have later := ordered.le_stop final first isFirst
  refine ⟨Nat.le_trans proper later, ?_, ?_⟩
  · exact (lexes.placedIn [] rfl first (sub.subset isFirst)).boundaries.1
  · exact (lexes.placedIn [] rfl last (sub.subset isLast)).boundaries.2

theorem Span.Stretches.marks (h : span.Stretches tokens)
    (lexes : Lexes 0 text tokens) : span.Marks text := by
  obtain ⟨proper, start, stop⟩ := h.boundaries lexes
  exact marks_of_boundaries proper start stop

end Places

/-! ## Errors of a source -/

namespace Source

variable {text : List Char}

theorem marks_of_lexical {error : LexError}
    (failed : Token.lexChars text = .error error) :
    error.span.Marks text := by
  obtain ⟨lexemes, rest, split, -, start⟩ := lexFrom_eq_error_iff.mp failed
  have cut := split.append
  rw [Nat.zero_add] at start
  apply Span.marks_of_boundaries
  · exact Nat.le_add_right _ _
  · exact ⟨_, _, cut, start.symm⟩
  · refine ⟨lexemes.flatMap Lexeme.text ++ [error.char], rest, ?_, ?_⟩
    · rw [List.append_assoc]
      exact cut
    · rw [byteLength_append, ← start]
      rfl

theorem marks_of_reading {sentence : Sentence} {error : ReadError}
    (written : sentence.WrittenIn text)
    (refused : sentence.tree.readDecl text = .error error) :
    error.span.Marks text ∧
      ∃ quoted, slice? text error.span = some quoted ∧
        error.found = String.ofList quoted := by
  obtain ⟨eof, -, lexes⟩ := written.lexed
  obtain ⟨node, expectation, laid, rfl⟩ :=
    Tree.blames_readDecl sentence.covers_tree.laid error refused
  have stretches : node.span.Stretches (sentence.yield ++ [eof]) := by
    obtain ⟨part, pieces, sub, ⟨first, last, spans⟩, -⟩ := laid
    exact ⟨part, first, last,
      sub.trans (List.sublist_append_left _ _), spans⟩
  refine ⟨stretches.marks lexes, ?_⟩
  obtain ⟨proper, start, stop⟩ := stretches.boundaries lexes
  obtain ⟨quoted, found⟩ := Span.exists_slice? proper start stop
  refine ⟨quoted, found, ?_⟩
  show String.ofList (slice text node.span) = _
  rw [slice, found, Option.getD_some]

theorem exists_of_parseChars_error {source : List Char} {error : SourceError}
    (failed : parseChars source = .error error) :
    (∃ cause, error = .lexical cause ∧
      Token.lexChars (trimChars source) = .error cause) ∨
    (∃ cause tokens, error = .grammar cause ∧
      Lexes 0 (trimChars source) tokens ∧
      Tree.ofTokens tokens = .error cause) ∨
    (∃ (cause : ReadError) (sentence : Sentence), error = .reading cause ∧
      sentence.WrittenIn (trimChars source) ∧
      sentence.tree.readDecl (trimChars source) = .error cause) := by
  rcases bind_eq_error_iff.mp failed with unparsed | ⟨arena, parsed, -⟩
  · rcases bind_eq_error_iff.mp unparsed with eq | ⟨tokens, lexed, eq⟩
    · obtain ⟨cause, refused, rfl⟩ := mapError_eq_error_iff.mp eq
      exact .inl ⟨cause, rfl, refused⟩
    · obtain ⟨cause, refused, rfl⟩ := mapError_eq_error_iff.mp eq
      have lexes := lexes_iff.mp (mapError_eq_ok_iff.mp lexed)
      exact .inr (.inl
        ⟨cause, tokens, rfl, lexes, map_eq_error_iff.mp refused⟩)
  · obtain ⟨sentence, written, -, rfl⟩ := exists_of_parseTree parsed
    rw [parseChars_of_parseTree parsed] at failed
    rcases bind_eq_error_iff.mp failed with eq | ⟨_, -, eq⟩
    · obtain ⟨cause, refused, rfl⟩ := mapError_eq_error_iff.mp eq
      rw [Cursor.readDecl_ofTree _ sentence.shaped_tree,
        map_eq_error_iff] at refused
      exact .inr (.inr ⟨cause, sentence, rfl, written, refused⟩)
    · cases eq

/--
Every error of reading a source has a span, and the span lies in the trimmed
text with both ends between characters.  A node that is refused is quoted as it
stands there.  The parser never runs out of tokens.
-/
theorem errors_point_into_source {source : String} {error : SourceError}
    (failed : parse source = .error error) :
    (∃ span, error.diagnostic.span = some span ∧
      span.Marks (trimChars source.toList)) ∧
    (∀ cause, error = .reading cause →
      ∃ quoted, slice? (trimChars source.toList) cause.span = some quoted ∧
        error.message =
          toString cause.span.start ++ "-" ++ toString cause.span.stop ++
            ": " ++ cause.expectation.phrase ++ " `" ++
            String.ofList quoted ++ "`.") ∧
    ∀ cause, error = .grammar cause → cause.cause ≠ .endOfTokens := by
  rcases exists_of_parseChars_error failed with
    ⟨cause, rfl, lexed⟩ | ⟨cause, tokens, rfl, lexes, refused⟩ |
      ⟨cause, sentence, rfl, written, refused⟩
  · refine ⟨⟨cause.span, rfl, marks_of_lexical lexed⟩, ?_, ?_⟩
    · rintro _ ⟨⟩
    · rintro _ ⟨⟩
  · have points := Tree.pointsInto_of_ofTokens lexes.endsWithEof refused
    refine ⟨⟨cause.span, rfl, points.span.marks lexes⟩, ?_, ?_⟩
    · rintro _ ⟨⟩
    · rintro _ ⟨⟩
      exact points.cause.1
  · obtain ⟨marks, quoted, found, eq⟩ := marks_of_reading written refused
    refine ⟨⟨cause.span, rfl, marks⟩, ?_, ?_⟩
    · rintro _ ⟨⟩
      refine ⟨quoted, found, ?_⟩
      rw [← eq]
      rfl
    · rintro _ ⟨⟩

/-- A number for a formula, behind a wide blank and a comment. -/
theorem errors_point_into_source_comment :
    let source := "\u3000# \u00e9\n\x7b 1 \x7d "
    let error : ReadError := ⟨.formula, ⟨7, 8⟩, "1"⟩
    parse source = .error (.reading error) ∧
      error.span.Marks (trimChars source.toList) ∧
      ∃ quoted, slice? (trimChars source.toList) error.span = some quoted ∧
        error.message = "7-8: Expected formula but got `" ++
          String.ofList quoted ++ "`." := by
  intro source error
  have failed : parse source = .error (.reading error) :=
    eq_error_of_caught (by decide +kernel)
  have lead : toString error.span.start ++ "-" ++ toString error.span.stop ++
      ": " ++ error.expectation.phrase ++ " `" =
        "7-8: Expected formula but got `" := by
    decide +kernel
  obtain ⟨⟨span, isSpan, marks⟩, quotes, -⟩ := errors_point_into_source failed
  obtain ⟨quoted, found, message⟩ := quotes error rfl
  cases isSpan
  rw [lead] at message
  exact ⟨failed, marks, quoted, found, message⟩

end Source

end ProofOutline
