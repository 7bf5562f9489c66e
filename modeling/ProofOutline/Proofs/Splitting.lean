import ProofOutline.Proofs.LongestMatch

/-!
# Splitting a source

Taking the longest match again and again splits a source into lexemes.  Lexing
succeeds exactly if the whole source is split.  Its tokens then lie in the
source in order and apart from each other, each under its own spelling, with
nothing but layout and comments between them.  Lexing fails at the first
character at which the split cannot go on.
-/

namespace ProofOutline

open Text

/-! ## Splitting off lexemes -/

namespace Lexeme

/-- Longest matches, one after the other, take the text to the rest. -/
inductive SplitsOff : List Char → List Lexeme → List Char → Prop
  | nil (text : List Char) : SplitsOff text [] text
  | cons {text middle rest : List Char} {lexeme : Lexeme}
      {lexemes : List Lexeme} :
      LongestMatch text lexeme middle → SplitsOff middle lexemes rest →
      SplitsOff text (lexeme :: lexemes) rest

def tokensFrom (offset : Nat) : List Lexeme → List Token
  | [] => [⟨.eof, ⟨offset, offset⟩⟩]
  | gap text :: lexemes => tokensFrom (offset + byteLength text) lexemes
  | token kind :: lexemes =>
      let next := offset + byteLength kind.spelling.toList
      ⟨kind, ⟨offset, next⟩⟩ :: tokensFrom next lexemes

namespace SplitsOff

variable {text rest : List Char} {lexemes : List Lexeme}

theorem append (h : SplitsOff text lexemes rest) :
    lexemes.flatMap Lexeme.text ++ rest = text := by
  induction h with
  | nil text => rfl
  | cons longest _ ih =>
      rw [List.flatMap_cons, List.append_assoc, ih, longest.split]

theorem whole (h : SplitsOff text lexemes rest) :
    SplitsOff (lexemes.flatMap Lexeme.text) lexemes [] := by
  induction h with
  | nil text => exact .nil []
  | @cons text middle rest lexeme lexemes longest split ih =>
      exact .cons (longest.cut ⟨rest, split.append⟩) ih

end SplitsOff

end Lexeme

theorem Lexes.exists_splitsOff {offset : Nat} {text : List Char}
    {tokens : List Token} (h : Lexes offset text tokens) :
    ∃ lexemes, Lexeme.SplitsOff text lexemes [] ∧
      tokens = Lexeme.tokensFrom offset lexemes := by
  induction h with
  | nil offset => exact ⟨[], .nil [], rfl⟩
  | gap scanned _ ih =>
      obtain ⟨lexemes, split, rfl⟩ := ih
      exact ⟨_, .cons (Lexeme.longestMatch_of_scan? scanned) split, rfl⟩
  | token scanned _ ih =>
      obtain ⟨lexemes, split, rfl⟩ := ih
      exact ⟨_, .cons (Lexeme.longestMatch_of_scan? scanned) split, rfl⟩

theorem Lexeme.SplitsOff.lexes {text : List Char} {lexemes : List Lexeme}
    (h : SplitsOff text lexemes []) (offset : Nat) :
    Lexes offset text (tokensFrom offset lexemes) := by
  generalize finish : ([] : List Char) = rest at h
  induction h generalizing offset with
  | nil text =>
      subst finish
      exact .nil offset
  | @cons text middle rest lexeme lexemes longest _ ih =>
      have scanned := scan?_eq_some_iff.mpr longest
      cases lexeme with
      | gap gap => exact .gap scanned (ih _ finish)
      | token kind => exact .token scanned (ih _ finish)

theorem lexFrom_eq_ok_iff {offset : Nat} {text : List Char}
    {tokens : List Token} :
    Token.lexFrom offset text = .ok tokens ↔
      ∃ lexemes, Lexeme.SplitsOff text lexemes [] ∧
        tokens = Lexeme.tokensFrom offset lexemes := by
  rw [lexes_iff]
  constructor
  · exact Lexes.exists_splitsOff
  · rintro ⟨lexemes, split, rfl⟩
    exact split.lexes offset

/-! ## Where lexing fails -/

private theorem exists_splitsOff_of_error {offset : Nat} {text : List Char}
    {error : LexError} (h : Token.lexFrom offset text = .error error) :
    ∃ lexemes rest,
      Lexeme.SplitsOff text lexemes (error.char :: rest) ∧
      Lexeme.NoneAt (error.char :: rest) ∧
      error.offset =
        offset + byteLength (lexemes.flatMap Lexeme.text) := by
  fun_induction Token.lexFrom offset text with
  | case1 => cases h
  | case2 offset c tail failed =>
      cases h
      exact ⟨[], tail, .nil _, Lexeme.scan?_eq_none_iff.mp failed, rfl⟩
  | case3 offset c tail gap rest scanned _ ih =>
      obtain ⟨lexemes, after, split, noneAt, start⟩ := ih h
      refine ⟨.gap gap :: lexemes, after,
        .cons (Lexeme.longestMatch_of_scan? scanned) split, noneAt, ?_⟩
      rw [start, List.flatMap_cons, byteLength_append, Nat.add_assoc]
      rfl
  | case4 => cases h
  | case5 offset c tail kind rest scanned _ next found lexed =>
      rename_i ih
      cases h
      obtain ⟨lexemes, after, split, noneAt, start⟩ := ih lexed
      refine ⟨.token kind :: lexemes, after,
        .cons (Lexeme.longestMatch_of_scan? scanned) split, noneAt, ?_⟩
      rw [start, List.flatMap_cons, byteLength_append, Nat.add_assoc]
      rfl

private theorem Lexeme.SplitsOff.lexFrom_eq_error {text rest : List Char}
    {c : Char} {lexemes : List Lexeme} (h : SplitsOff text lexemes (c :: rest))
    (noneAt : NoneAt (c :: rest)) (offset : Nat) :
    Token.lexFrom offset text =
      .error ⟨offset + byteLength (lexemes.flatMap Lexeme.text), c⟩ := by
  generalize finish : c :: rest = remaining at h
  induction h generalizing offset with
  | nil text =>
      subst finish
      exact Token.lexFrom_none (scan?_eq_none_iff.mpr noneAt)
  | @cons text middle remaining lexeme lexemes longest _ ih =>
      have scanned := scan?_eq_some_iff.mpr longest
      rw [List.flatMap_cons, byteLength_append, ← Nat.add_assoc]
      cases lexeme with
      | gap gap => rw [Token.lexFrom_gap scanned, ih _ finish, Lexeme.text]
      | token kind =>
          rw [Token.lexFrom_token scanned, ih _ finish]
          rfl

theorem lexFrom_eq_error_iff {offset : Nat} {text : List Char}
    {error : LexError} :
    Token.lexFrom offset text = .error error ↔
      ∃ lexemes rest,
        Lexeme.SplitsOff text lexemes (error.char :: rest) ∧
        Lexeme.NoneAt (error.char :: rest) ∧
        error.offset =
          offset + byteLength (lexemes.flatMap Lexeme.text) := by
  refine ⟨exists_splitsOff_of_error, ?_⟩
  rintro ⟨lexemes, rest, split, noneAt, start⟩
  rw [split.lexFrom_eq_error noneAt, ← start]

/-! ## Gaps -/

namespace Lexeme

/-- Layout characters and comments, each of which ends in a line feed. -/
inductive IsGap : List Char → Prop
  | nil : IsGap []
  | layout {c : Char} {rest : List Char} :
      isLayout c = true → IsGap rest → IsGap (c :: rest)
  | comment {comment rest : List Char} :
      IsComment comment → IsGap rest → IsGap (comment ++ '\n' :: rest)

def IsOpenGap (text : List Char) : Prop :=
  ∃ before comment, IsGap before ∧ IsComment comment ∧
    text = before ++ comment

theorem IsGap.append {first second : List Char} (h : IsGap first)
    (h' : IsGap second) : IsGap (first ++ second) := by
  induction h with
  | nil => exact h'
  | layout isLayout _ ih => exact .layout isLayout ih
  | comment isComment _ ih =>
      rw [List.append_assoc]
      exact .comment isComment ih

private theorem isGap_of_all {text : List Char}
    (all : text.all isLayout = true) :
    IsGap text := by
  induction text with
  | nil => exact .nil
  | cons c rest ih =>
      rw [List.all_cons, Bool.and_eq_true] at all
      exact .layout all.1 (ih all.2)

/--
What stands between the last token and the rest of the text: a gap, or an open
one that a line feed or the end of the text follows.
-/
def Pending (gap rest : List Char) : Prop :=
  IsGap gap ∨ IsOpenGap gap ∧ ∀ c ∈ rest.head?, c = '\n'

theorem LongestMatch.eq_newline_of_comment {text comment rest : List Char}
    (h : LongestMatch text (.gap comment) rest)
    (isComment : IsComment comment) : ∀ c ∈ rest.head?, c = '\n' := by
  obtain ⟨body, rfl, oneLine⟩ := isComment
  intro c mem
  obtain ⟨tail, rfl⟩ := List.head?_eq_some_iff.mp mem
  refine Decidable.byContradiction fun other => ?_
  have fits : (gap ('#' :: (body ++ [c]))).Fits := by
    refine .inr ⟨body ++ [c], rfl, fun mem => ?_⟩
    rcases List.mem_append.mp mem with inBody | last
    · exact oneLine inBody
    · exact other (List.mem_singleton.mp last).symm
  have start : '#' :: (body ++ [c]) <+: text := by
    refine ⟨tail, ?_⟩
    rw [← h.split, Lexeme.text, List.cons_append, List.append_assoc]
    rfl
  have bound := h.longest _ fits start
  simp only [Lexeme.text, List.length_cons, List.length_append,
    List.length_nil] at bound
  omega

theorem Pending.gap {before text gap rest : List Char}
    (h : Pending before text)
    (scanned : scan? text = some (.gap gap, rest)) :
    Pending (before ++ gap) rest := by
  have longest := longestMatch_of_scan? scanned
  have split : gap ++ rest = text := longest.split
  rcases h with closed | ⟨⟨before, comment, closed, isComment, rfl⟩, next⟩
  · rcases longest.fits with ⟨-, all⟩ | isComment
    · exact .inl (closed.append (isGap_of_all all))
    · exact .inr ⟨⟨before, gap, closed, isComment, rfl⟩,
        longest.eq_newline_of_comment isComment⟩
  · left
    rcases longest.fits with ⟨nonempty, all⟩ | ⟨body, rfl, -⟩
    · obtain ⟨c, tail, rfl⟩ := List.exists_cons_of_ne_nil nonempty
      have isNewline : c = '\n' := next c (by rw [← split]; rfl)
      subst isNewline
      rw [List.append_assoc]
      exact closed.append (.comment isComment (isGap_of_all all))
    · exact absurd (next '#' (by rw [← split]; rfl)) (by decide)

theorem Pending.token {before text rest : List Char} {kind : TokenKind}
    (h : Pending before text)
    (scanned : scan? text = some (.token kind, rest)) : IsGap before := by
  rcases h with closed | ⟨-, next⟩
  · exact closed
  · cases text with
    | nil => cases scanned
    | cons c tail =>
        cases next c rfl
        cases scanned

end Lexeme

/-! ## How tokens lie in the source -/

def Text.IsBoundary (text : List Char) (offset : Nat) : Prop :=
  ∃ before after, before ++ after = text ∧ byteLength before = offset

def Token.intervals (start : Nat) (tokens : List Token) : List Span :=
  List.zipWith Span.mk (start :: tokens.map (·.span.stop))
    (tokens.map (·.span.start))

/--
The tokens lie in the source one after the other, each under its spelling and
the end of input at its end, and there are only gaps between them.  Only at the
end of the source need no line feed end a comment.
-/
structure Token.Tiling (source : String) (tokens : List Token) : Prop where
  ordered : tokens.Pairwise fun first second =>
    first.span.start < second.span.start ∧
      first.span.stop ≤ second.span.start
  boundaries : ∀ token ∈ tokens,
    IsBoundary source.toList token.span.start ∧
      IsBoundary source.toList token.span.stop
  spelled : ∀ token ∈ tokens,
    slice? source.toList token.span = some token.kind.spelling.toList
  between : ∀ interval ∈ intervals 0 tokens,
    ∃ gap, slice? source.toList interval = some gap ∧
      (Lexeme.IsGap gap ∨
        Lexeme.IsOpenGap gap ∧ interval.stop = source.utf8ByteSize)
  last : ∃ before, (∀ token ∈ before, token.kind ≠ .eof) ∧
    tokens = before ++ [⟨.eof, ⟨source.utf8ByteSize, source.utf8ByteSize⟩⟩]

theorem Token.PlacedIn.boundaries {source : List Char} {token : Token}
    (h : token.PlacedIn source) :
    IsBoundary source token.span.start ∧
      IsBoundary source token.span.stop := by
  obtain ⟨before, after, rfl, span⟩ := h
  rw [span]
  refine ⟨⟨before, _, rfl, rfl⟩,
    before ++ token.kind.spelling.toList, after, ?_, ?_⟩
  · rw [List.append_assoc]
  · exact byteLength_append before token.kind.spelling.toList

theorem Text.byteLength_pos {text : List Char} (nonempty : text ≠ []) :
    0 < byteLength text := by
  obtain ⟨c, rest, rfl⟩ := List.exists_cons_of_ne_nil nonempty
  have positive := c.utf8Size_pos
  rw [byteLength]
  omega

private theorem Lexeme.spelling_ne_nil_of_scan? {text rest : List Char}
    {kind : TokenKind} (h : scan? text = some (.token kind, rest)) :
    kind.spelling.toList ≠ [] := by
  intro empty
  have shorter := length_of_scan? h
  have split : kind.spelling.toList ++ rest = text := append_of_scan? h
  rw [← split, empty, List.nil_append] at shorter
  exact Nat.lt_irrefl _ shorter

theorem Lexes.ordered {offset : Nat} {text : List Char}
    {tokens : List Token} (h : Lexes offset text tokens) :
    (∀ token ∈ tokens, offset ≤ token.span.start) ∧
      tokens.Pairwise fun first second =>
        first.span.start < second.span.start ∧
          first.span.stop ≤ second.span.start := by
  induction h with
  | nil offset => simp
  | gap _ _ ih =>
      exact ⟨fun token mem => Nat.le_of_add_right_le (ih.1 token mem), ih.2⟩
  | @token offset text rest kind tokens scanned _ ih =>
      have positive := byteLength_pos (Lexeme.spelling_ne_nil_of_scan? scanned)
      rw [List.forall_mem_cons, List.pairwise_cons]
      refine ⟨⟨Nat.le_refl _, fun token mem => ?_⟩, fun token mem => ?_, ih.2⟩
      · exact Nat.le_of_add_right_le (ih.1 token mem)
      · have later := ih.1 token mem
        exact ⟨by dsimp only; omega, later⟩

@[simp] theorem Token.intervals_nil (start : Nat) : intervals start [] =
    [] := rfl

@[simp] theorem Token.intervals_cons (start : Nat) (token : Token)
    (tokens : List Token) :
    intervals start (token :: tokens) =
      ⟨start, token.span.start⟩ :: intervals token.span.stop tokens :=
  rfl

theorem Lexes.between {offset : Nat} {text : List Char}
    {tokens : List Token} (h : Lexes offset text tokens)
    (before gap : List Char)
    (start : byteLength before + byteLength gap = offset)
    (pending : Lexeme.Pending gap text) :
    ∀ interval ∈ Token.intervals (byteLength before) tokens,
      ∃ inside, slice? (before ++ (gap ++ text)) interval = some inside ∧
        (Lexeme.IsGap inside ∨ Lexeme.IsOpenGap inside ∧
          interval.stop = byteLength (before ++ (gap ++ text))) := by
  induction h generalizing before gap with
  | nil offset =>
      subst start
      rw [Token.intervals_cons, Token.intervals_nil,
        List.forall_mem_singleton]
      refine ⟨gap, slice?_append before gap [], ?_⟩
      rcases pending with closed | ⟨isOpen, -⟩
      · exact .inl closed
      · refine .inr ⟨isOpen, ?_⟩
        rw [List.append_nil, byteLength_append]
  | @gap offset text found rest tokens scanned _ ih =>
      subst start
      have split : found ++ rest = text := Lexeme.append_of_scan? scanned
      have later := ih before (gap ++ found)
        (by rw [byteLength_append, Nat.add_assoc]) (pending.gap scanned)
      rwa [List.append_assoc gap, split] at later
  | @token offset text rest kind tokens scanned _ ih =>
      subst start
      have split : kind.spelling.toList ++ rest = text :=
        Lexeme.append_of_scan? scanned
      have later := ih (before ++ (gap ++ kind.spelling.toList)) []
        (by simp only [byteLength_append, byteLength]; omega) (.inl .nil)
      rw [List.nil_append, List.append_assoc, List.append_assoc, split,
        byteLength_append, byteLength_append, ← Nat.add_assoc] at later
      rw [Token.intervals_cons, List.forall_mem_cons]
      exact ⟨⟨gap, slice?_append before gap text, .inl (pending.token scanned)⟩,
        later⟩

@[simp] theorem Text.byteLength_toList (text : String) :
    byteLength text.toList = text.utf8ByteSize := by
  have ofChars (chars : List Char) :
      byteLength chars = (String.ofList chars).utf8ByteSize := by
    induction chars with
    | nil => rfl
    | cons c rest ih =>
        rw [byteLength, ih, String.ofList_cons, String.utf8ByteSize_append,
          String.utf8ByteSize_singleton]
  rw [ofChars, String.ofList_toList]

private theorem Lexes.tiling {source : String} {tokens : List Token}
    (h : Lexes 0 source.toList tokens) : Token.Tiling source tokens where
  ordered := h.ordered.2
  boundaries token mem := (h.placedIn [] rfl token mem).boundaries
  spelled token mem := (h.placedIn [] rfl token mem).slice?
  between := by
    rw [← byteLength_toList]
    exact h.between [] [] rfl (.inl .nil)
  last := by
    obtain ⟨before, proper, eq⟩ := h.ends
    rw [Nat.zero_add, byteLength_toList] at eq
    exact ⟨before, fun token mem => (proper token mem).ne_eof, eq⟩

/-! ## Lexing a source -/

namespace Token

private theorem lex_eq_error_iff {source : String} {error : LexError} :
    lex source = .error error ↔
      ∃ lexemes rest,
        Lexeme.SplitsOff source.toList lexemes (error.char :: rest) ∧
        Lexeme.NoneAt (error.char :: rest) ∧
        error.offset = byteLength (lexemes.flatMap Lexeme.text) := by
  rw [lex, lexChars, lexFrom_eq_error_iff]
  simp only [Nat.zero_add]

/--
Lexing succeeds exactly if longest matches split the whole source, and gives
the tokens among them, which tile the source.  Otherwise it names the character
at which no lexeme starts once all before it is split off.
-/
theorem lex_splits (source : String) :
    (∀ tokens, lex source = .ok tokens ↔
      ∃ lexemes, Lexeme.SplitsOff source.toList lexemes [] ∧
        tokens = Lexeme.tokensFrom 0 lexemes) ∧
    (∀ tokens, lex source = .ok tokens → Tiling source tokens) ∧
    (∀ error, lex source = .error error ↔
      ∃ lexemes rest,
        Lexeme.SplitsOff source.toList lexemes (error.char :: rest) ∧
        Lexeme.NoneAt (error.char :: rest) ∧
        error.offset = byteLength (lexemes.flatMap Lexeme.text)) ∧
    ∀ error, lex source = .error error →
      ∃ before rest, before ++ error.char :: rest = source.toList ∧
        error.span = ⟨byteLength before,
          byteLength before + error.char.utf8Size⟩ ∧
        slice? source.toList error.span = some [error.char] ∧
        Lexeme.NoneAt (error.char :: rest) ∧
        ∃ tokens, lex (String.ofList before) = .ok tokens := by
  refine ⟨fun tokens => lexFrom_eq_ok_iff,
    fun tokens lexed => (lexes_iff.mp lexed).tiling,
    fun error => lex_eq_error_iff, ?_⟩
  intro error failed
  obtain ⟨lexemes, rest, split, noneAt, start⟩ := lex_eq_error_iff.mp failed
  refine ⟨lexemes.flatMap Lexeme.text, rest, split.append, ?_, ?_, noneAt, ?_⟩
  · rw [LexError.span, start]
  · rw [LexError.span, start, ← split.append]
    exact slice?_append (lexemes.flatMap Lexeme.text) [error.char] rest
  · refine ⟨_, lexFrom_eq_ok_iff.mpr ⟨lexemes, ?_, rfl⟩⟩
    rw [String.toList_ofList]
    exact split.whole

/-- The comment holds a character of two bytes, and one of three is refused. -/
theorem lex_splits_samples :
    let lexed := "true1<=10q#\u00e9=>\n:="
    let refused := "a \u2264 1"
    (∃ tokens, lex lexed = .ok tokens ∧ Tiling lexed tokens ∧
      tokens.map Token.kind = [.ident "true1", .le, .int "10", .ident "q",
        .assign, .eof] ∧
      tokens.map (·.span.start) = [0, 5, 7, 9, 16, 18]) ∧
    ∃ error, lex refused = .error error ∧ error.span = ⟨2, 5⟩ ∧
      slice? refused.toList error.span = some [error.char] := by
  intro lexed refused
  have lexes : (lex lexed).toOption = some [⟨.ident "true1", ⟨0, 5⟩⟩,
      ⟨.le, ⟨5, 7⟩⟩, ⟨.int "10", ⟨7, 9⟩⟩, ⟨.ident "q", ⟨9, 10⟩⟩,
      ⟨.assign, ⟨16, 18⟩⟩, ⟨.eof, ⟨18, 18⟩⟩] := by
    decide +kernel
  have fails : lex refused = .error ⟨2, '\u2264'⟩ := by
    have chars : refused.toList = ['a', ' ', '\u2264', ' ', '1'] := by
      decide +kernel
    have name : Lexeme.scan? ['a', ' ', '\u2264', ' ', '1'] =
        some (.token (.ident "a"), [' ', '\u2264', ' ', '1']) := by
      decide +kernel
    have blank : Lexeme.scan? [' ', '\u2264', ' ', '1'] =
        some (.gap [' '], ['\u2264', ' ', '1']) := by
      decide +kernel
    have none : Lexeme.scan? ['\u2264', ' ', '1'] = none := by
      decide +kernel
    rw [lex, lexChars, chars, lexFrom_token name, lexFrom_gap blank,
      lexFrom_none none]
    rfl
  refine ⟨?_, ?_⟩
  · cases found : lex lexed with
    | error error =>
        rw [found] at lexes
        cases lexes
    | ok tokens =>
        rw [found] at lexes
        cases lexes
        exact ⟨_, rfl, (lex_splits lexed).2.1 _ found, rfl, rfl⟩
  · obtain ⟨_, _, _, _, slice, _⟩ := (lex_splits refused).2.2.2 _ fails
    exact ⟨_, fails, rfl, slice⟩

end Token

end ProofOutline
