import Mathlib.Data.List.Basic
import ProofOutline.Proofs.Printing
import ProofOutline.Proofs.Splitting

/-!
# How texts end

A semicolon put behind a text is one token more, unless the text ends in a
comment: then it becomes a part of the comment.  If the text is trimmed and does
not end in a comment, its last character is that of its last token.
-/

namespace ProofOutline

open Text

/-! ## Trimmed texts -/

namespace Text

private theorem isBlank_of_dropWhile {text rest : List Char} {c : Char}
    (h : text.dropWhile isBlank = c :: rest) : isBlank c = false := by
  have nonempty : text.dropWhile isBlank ≠ [] := by simp [h]
  have first := List.head_dropWhile_not isBlank nonempty
  simpa [h] using first

theorem trimChars_eq_nil_or_solid (text : List Char) :
    trimChars text = [] ∨ Solid (trimChars text) := by
  cases back : (trimLeft text).reverse.dropWhile isBlank with
  | nil =>
      left
      rw [trimChars, trimRight, back, List.reverse_nil]
  | cons last rest =>
      right
      have eq : trimChars text = rest.reverse ++ [last] := by
        rw [trimChars, trimRight, back, List.reverse_cons]
      have start : trimChars text <+: trimLeft text := by
        rw [← List.reverse_suffix, trimChars, trimRight, List.reverse_reverse]
        exact List.dropWhile_suffix _
      refine ⟨?_, rest.reverse, last, isBlank_of_dropWhile back, eq⟩
      cases front : trimChars text with
      | nil => simp [front] at eq
      | cons c tail =>
          obtain ⟨after, whole⟩ := start
          rw [front, List.cons_append] at whole
          exact ⟨c, tail, isBlank_of_dropWhile whole.symm, rfl⟩

theorem trimChars_append {text blanks : List Char}
    (all : blanks.all isBlank = true) :
    trimChars (text ++ blanks) = trimChars text := by
  have blank : ∀ c ∈ blanks, isBlank c = true := List.all_eq_true.mp all
  have right (front : List Char) :
      trimRight (front ++ blanks) = trimRight front := by
    rw [trimRight, List.reverse_append,
      List.dropWhile_append_of_pos (by simpa using blank), trimRight]
  have gone : blanks.dropWhile isBlank = [] := by
    rw [← List.append_nil blanks, List.dropWhile_append_of_pos blank]
    rfl
  rw [trimChars, trimChars, trimLeft, trimLeft, List.dropWhile_append, gone]
  split
  case isTrue empty => rw [List.isEmpty_iff.mp empty]
  case isFalse => exact right _

end Text

/-! ## A semicolon behind a text -/

namespace Lexeme

private theorem isBlank_of_isLayout {c : Char} (h : isLayout c = true) :
    isBlank c = true := by
  simp only [isLayout_iff, List.mem_cons, List.not_mem_nil, or_false] at h
  rcases h with rfl | rfl | rfl | rfl | rfl <;> decide

/-- The last line has a number sign, so the text ends within a comment. -/
def EndsInComment (text : List Char) : Prop :=
  ∃ before comment, before ++ comment = text ∧ IsComment comment

theorem endsInComment_iff {text : List Char} :
    EndsInComment text ↔ '#' ∈ text.reverse.takeWhile (· ≠ '\n') := by
  constructor
  · rintro ⟨before, _, rfl, body, rfl, oneLine⟩
    have line : ∀ c ∈ body.reverse, decide (c ≠ '\n') = true := by
      intro c mem
      refine decide_eq_true ?_
      rintro rfl
      exact oneLine (List.mem_reverse.mp mem)
    rw [List.reverse_append, List.reverse_cons, List.append_assoc,
      List.takeWhile_append_of_pos line]
    simp
  · intro mem
    obtain ⟨after, before, eq⟩ := List.append_of_mem mem
    have line : ∀ c ∈ after, c ≠ '\n' := by
      intro c inside
      have taken : c ∈ text.reverse.takeWhile (· ≠ '\n') := by
        rw [eq]
        exact List.mem_append_left _ inside
      exact of_decide_eq_true (List.all_eq_true.mp List.all_takeWhile c taken)
    obtain ⟨rest, split⟩ :
        ∃ rest, after ++ '#' :: before ++ rest = text.reverse := by
      rw [← eq]
      exact ⟨_, List.takeWhile_append_dropWhile⟩
    refine ⟨rest.reverse ++ before.reverse, '#' :: after.reverse, ?_,
      after.reverse, rfl, ?_⟩
    · rw [← List.reverse_reverse text, ← split]
      simp
    · intro mem
      exact line _ (List.mem_reverse.mp mem) rfl

instance (text : List Char) : Decidable (EndsInComment text) :=
  decidable_of_iff _ endsInComment_iff.symm

theorem Fits.text_ne_nil {lexeme : Lexeme} (fits : lexeme.Fits) :
    lexeme.text ≠ [] := by
  intro empty
  obtain ⟨found, rest, scanned, -⟩ := exists_scan?_of_fits fits []
  rw [empty] at scanned
  cases scanned

private theorem not_mem_of_isNameText {name : List Char} {c : Char}
    (isName : isNameText name = true) (notStart : isNameStart c = false)
    (notPart : isNamePart c = false) : c ∉ name := by
  cases name with
  | nil => cases isName
  | cons first rest =>
      rw [isNameText, Bool.and_eq_true] at isName
      intro mem
      rcases List.mem_cons.mp mem with rfl | later
      · rw [notStart] at isName
        cases isName.1
      · have part := List.all_eq_true.mp isName.2 c later
        rw [notPart] at part
        cases part

theorem Fits.hash_not_mem {kind : TokenKind} (fits : (token kind).Fits) :
    '#' ∉ kind.spelling.toList := by
  cases kind with
  | int digits =>
      intro mem
      cases List.all_eq_true.mp fits.2 _ mem
  | ident name => exact not_mem_of_isNameText fits rfl rfl
  | eof => exact fits.elim
  | _ => simp [TokenKind.spelling]

theorem Fits.eq_semi {lexeme : Lexeme} (fits : lexeme.Fits)
    (ends : ';' ∈ lexeme.text.getLast?) :
    IsComment lexeme.text ∨ lexeme = .token .semi := by
  have mem : ';' ∈ lexeme.text := List.mem_of_getLast? ends
  cases lexeme with
  | gap text =>
      rcases fits with ⟨-, all⟩ | isComment
      · cases List.all_eq_true.mp all _ mem
      · exact .inl isComment
  | token kind =>
      right
      cases kind with
      | int digits => cases List.all_eq_true.mp fits.2 _ mem
      | ident name =>
          exact absurd mem (not_mem_of_isNameText fits rfl rfl)
      | eof => exact fits.elim
      | semi => rfl
      | _ => simp [text, TokenKind.spelling] at mem

private theorem isComment_of_append_semi {text : List Char}
    (nonempty : text ≠ [])
    (h : IsComment (text ++ [';'])) : IsComment text := by
  obtain ⟨c, tail, rfl⟩ := List.exists_cons_of_ne_nil nonempty
  obtain ⟨body, eq, oneLine⟩ := h
  cases eq
  exact ⟨tail, rfl, fun mem => oneLine (List.mem_append_left _ mem)⟩

theorem IsComment.append_semi {text : List Char} (h : IsComment text) :
    IsComment (text ++ [';']) := by
  obtain ⟨body, rfl, oneLine⟩ := h
  refine ⟨body ++ [';'], rfl, ?_⟩
  simp [oneLine]

theorem LongestMatch.append_semi {text rest : List Char} {lexeme : Lexeme}
    (h : LongestMatch text lexeme rest) (notComment : ¬IsComment text) :
    LongestMatch (text ++ [';']) lexeme (rest ++ [';']) where
  split := by rw [← List.append_assoc, h.split]
  fits := h.fits
  longest := by
    have nonempty : text ≠ [] := by
      rw [← h.split]
      exact List.append_ne_nil_of_left_ne_nil h.fits.text_ne_nil _
    intro other fits start
    rcases List.prefix_concat_iff.mp start with whole | start
    · rcases fits.eq_semi (by simp [whole]) with isComment | rfl
      · rw [whole] at isComment
        exact absurd (isComment_of_append_semi nonempty isComment) notComment
      · exact List.length_pos_iff.mpr h.fits.text_ne_nil
    · exact h.longest other fits start
  tie := h.tie

private theorem LongestMatch.of_isComment {text rest : List Char}
    {lexeme : Lexeme}
    (h : LongestMatch text lexeme rest) (isComment : IsComment text) :
    lexeme = .gap text ∧ rest = [] := by
  have noMore : ∀ c ∈ ([] : List Char).head?, c = '\n' := by rintro _ ⟨⟩
  have scanned := scan?_comment isComment noMore
  rw [List.append_nil] at scanned
  exact h.unique (longestMatch_of_scan? scanned)

private theorem Fits.isComment_of_mem {lexeme : Lexeme} (fits : lexeme.Fits)
    (mem : '#' ∈ lexeme.text) :
    ∃ text, lexeme = .gap text ∧ IsComment text := by
  cases lexeme with
  | token kind => exact absurd mem fits.hash_not_mem
  | gap text =>
      rcases fits with ⟨-, all⟩ | isComment
      · cases List.all_eq_true.mp all _ mem
      · exact ⟨text, rfl, isComment⟩

private theorem LongestMatch.endsInComment {text rest : List Char}
    {lexeme : Lexeme}
    (h : LongestMatch text lexeme rest) (ends : EndsInComment text)
    (notComment : ¬IsComment text) : EndsInComment rest := by
  obtain ⟨before, comment, split, isComment⟩ := ends
  rw [← h.split] at split
  rcases List.append_eq_append_iff.mp split with
    ⟨inside, eq, rfl⟩ | ⟨inside, rfl, rfl⟩
  · cases inside with
    | nil => exact ⟨[], rest, rfl, isComment⟩
    | cons c inside =>
        obtain ⟨body, line, oneLine⟩ := isComment
        cases line
        obtain ⟨taken, rfl, isComment⟩ :=
          h.fits.isComment_of_mem (by simp [eq])
        have next := h.eq_newline_of_comment isComment
        cases rest with
        | nil =>
            have whole : taken = text := by simpa [Lexeme.text] using h.split
            exact absurd (whole ▸ isComment) notComment
        | cons d later =>
            cases next d rfl
            exact absurd (by simp) oneLine
  · exact ⟨inside, comment, rfl, isComment⟩

/-! ## Kinds of a split -/

def kind? : Lexeme → Option TokenKind
  | gap _ => none
  | token kind => some kind

@[simp] theorem map_kind_tokensFrom (offset : Nat) (lexemes : List Lexeme) :
    (tokensFrom offset lexemes).map Token.kind =
      lexemes.filterMap kind? ++ [.eof] := by
  induction lexemes generalizing offset with
  | nil => rfl
  | cons lexeme lexemes ih =>
      cases lexeme with
      | gap text => exact ih _
      | token kind => exact congrArg (kind :: ·) (ih _)

namespace SplitsOff

variable {text : List Char} {lexemes : List Lexeme}

theorem fits {rest : List Char} (h : SplitsOff text lexemes rest) :
    ∀ lexeme ∈ lexemes, lexeme.Fits := by
  induction h with
  | nil text => simp
  | cons longest _ ih =>
      rw [List.forall_mem_cons]
      exact ⟨longest.fits, ih⟩

private theorem eq_nil {rest : List Char} (h : SplitsOff [] lexemes rest) :
    lexemes = [] := by
  cases h with
  | nil => rfl
  | cons longest _ =>
      exact absurd (List.append_eq_nil_iff.mp longest.split).1
        longest.fits.text_ne_nil

theorem append_semi {rest : List Char} (h : SplitsOff text lexemes rest)
    (finish : rest = []) (noComment : ¬EndsInComment text) :
    SplitsOff (text ++ [';']) (lexemes ++ [.token .semi]) [] := by
  induction h with
  | nil text =>
      subst finish
      exact .cons (longestMatch_of_scan? rfl) (.nil [])
  | @cons text middle rest lexeme lexemes longest _ ih =>
      have notComment : ¬IsComment text := fun isComment =>
        noComment ⟨[], text, rfl, isComment⟩
      have later : ¬EndsInComment middle := by
        rintro ⟨before, comment, rfl, isComment⟩
        apply noComment
        refine ⟨lexeme.text ++ before, comment, ?_, isComment⟩
        rw [List.append_assoc, longest.split]
      exact .cons (longest.append_semi notComment) (ih finish later)

theorem exists_append_semi {rest : List Char}
    (h : SplitsOff text lexemes rest) (finish : rest = [])
    (ends : EndsInComment text) :
    ∃ others, SplitsOff (text ++ [';']) others [] ∧
      others.filterMap kind? = lexemes.filterMap kind? := by
  induction h with
  | nil text =>
      subst finish
      obtain ⟨before, _, split, body, rfl, -⟩ := ends
      simp at split
  | @cons text middle rest lexeme lexemes longest split ih =>
      by_cases isComment : IsComment text
      · obtain ⟨rfl, rfl⟩ := longest.of_isComment isComment
        cases split.eq_nil
        have fits : (gap (text ++ [';'])).Fits := .inr isComment.append_semi
        have scanned := scan?_text fits (by simp)
        exact ⟨_, .cons (longestMatch_of_scan? scanned) (.nil []), rfl⟩
      · obtain ⟨others, again, kinds⟩ :=
          ih finish (longest.endsInComment ends isComment)
        refine ⟨lexeme :: others, .cons (longest.append_semi isComment) again,
          ?_⟩
        rw [List.filterMap_cons, List.filterMap_cons, kinds]

private theorem exists_last_token (h : SplitsOff text lexemes []) {c : Char}
    (last : c ∈ text.getLast?) (notLayout : isLayout c = false)
    (noComment : ¬EndsInComment text) :
    ∃ init kind, lexemes = init ++ [.token kind] ∧
      c ∈ kind.spelling.toList.getLast? := by
  have split := h.append
  rw [List.append_nil] at split
  rcases lexemes.eq_nil_or_concat with rfl | ⟨init, final, rfl⟩
  · cases split
    cases last
  · rw [List.concat_eq_append] at h split ⊢
    rw [List.flatMap_append, List.flatMap_singleton] at split
    have fits := h.fits final (by simp)
    have ends : c ∈ final.text.getLast? := by
      rw [← split, List.getLast?_append_of_ne_nil _ fits.text_ne_nil] at last
      exact last
    cases final with
    | token kind => exact ⟨init, kind, rfl, ends⟩
    | gap gap =>
        rcases fits with ⟨-, all⟩ | isComment
        · have isLayout := List.all_eq_true.mp all c (List.mem_of_getLast? ends)
          rw [notLayout] at isLayout
          cases isLayout
        · exact absurd ⟨_, _, split, isComment⟩ noComment

theorem getLast?_eq_semi_iff (h : SplitsOff text lexemes [])
    (trimmed : text = [] ∨ Solid text) (noComment : ¬EndsInComment text) :
    (lexemes.filterMap kind?).getLast? = some .semi ↔
      text.getLast? = some ';' := by
  rcases trimmed with rfl | solid
  · rw [h.eq_nil]
    simp
  · obtain ⟨front, c, notBlank, rfl⟩ := solid.last
    have final : (front ++ [c]).getLast? = some c := by simp
    have notLayout : isLayout c = false := by
      refine Bool.eq_false_iff.mpr fun isLayout => ?_
      rw [isBlank_of_isLayout isLayout] at notBlank
      cases notBlank
    obtain ⟨init, kind, rfl, ends⟩ :=
      h.exists_last_token final notLayout noComment
    have fits := h.fits (.token kind) (by simp)
    have kinds : ((init ++ [token kind]).filterMap kind?).getLast? =
        some kind := by
      simp [List.filterMap_append, kind?]
    rw [kinds, final, Option.some.injEq, Option.some.injEq]
    constructor
    · rintro rfl
      simpa [TokenKind.spelling, eq_comm] using ends
    · rintro rfl
      rcases fits.eq_semi ends with ⟨body, isComment, -⟩ | isSemi
      · have hash : '#' ∈ (token kind).text := by simp [isComment]
        exact absurd hash fits.hash_not_mem
      · cases isSemi
        rfl

end SplitsOff

end Lexeme

/-! ## The tokens of a text with a semicolon behind it -/

namespace Lexes

open Lexeme

theorem exists_kinds {text : List Char} {tokens : List Token}
    {kinds : List TokenKind} (lexes : Lexes 0 text tokens)
    (isKinds : tokens.map Token.kind = kinds ++ [.eof]) :
    ∃ lexemes, Lexeme.SplitsOff text lexemes [] ∧
      lexemes.filterMap Lexeme.kind? = kinds := by
  obtain ⟨lexemes, split, rfl⟩ := lexes.exists_splitsOff
  rw [Lexeme.map_kind_tokensFrom] at isKinds
  exact ⟨lexemes, split, List.append_cancel_right isKinds⟩

theorem exists_append_semi {text : List Char} {tokens : List Token}
    {kinds : List TokenKind} (lexes : Lexes 0 text tokens)
    (isKinds : tokens.map Token.kind = kinds ++ [.eof]) :
    ∃ others, Lexes 0 (text ++ [';']) others ∧
      (EndsInComment text → others.map Token.kind = kinds ++ [.eof]) ∧
      (¬EndsInComment text →
        others.map Token.kind = kinds ++ [.semi] ++ [.eof]) := by
  obtain ⟨lexemes, split, rfl⟩ := lexes.exists_kinds isKinds
  by_cases ends : EndsInComment text
  · obtain ⟨others, again, kinds⟩ := split.exists_append_semi rfl ends
    refine ⟨_, again.lexes 0, fun _ => ?_, fun noComment => ?_⟩
    · rw [map_kind_tokensFrom, kinds]
    · exact absurd ends noComment
  · refine ⟨_, (split.append_semi rfl ends).lexes 0, fun isComment => ?_,
      fun _ => ?_⟩
    · exact absurd isComment ends
    · rw [map_kind_tokensFrom, List.filterMap_append]
      rfl

end Lexes

end ProofOutline
