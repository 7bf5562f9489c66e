import ProofOutline.Proofs.Splitting

/-!
# Lexing what is spelled out

Tokens that are spelled out one after the other, with something between them
that cannot be taken for a part of a token, are lexed as the same tokens.  What
stands between them may be any layout characters and any comments that end in
line feeds, whatever the comments say.
-/

namespace ProofOutline

open Text

/-! ## Separators -/

/-- Layout characters and closed comments, at least one of them. -/
structure Separator where
  text : List Char
  isGap : Lexeme.IsGap text
  nonempty : text ≠ []

namespace Lexeme

private theorem IsGap.extendsBy_eq_false {gap : List Char} (h : IsGap gap)
    {c : Char} (first : c ∈ gap.head?) (kind : TokenKind) :
    kind.extendsBy c = false := by
  cases h with
  | nil => cases first
  | layout isLayout _ =>
      cases first
      simp only [isLayout_iff, List.mem_cons, List.not_mem_nil,
        or_false] at isLayout
      rcases isLayout with rfl | rfl | rfl | rfl | rfl
      all_goals cases kind <;> rfl
  | comment isComment _ =>
      obtain ⟨body, rfl, -⟩ := isComment
      cases first
      cases kind <;> rfl

end Lexeme

private theorem Separator.endsBefore (separator : Separator) (kind : TokenKind)
    (rest : List Char) : kind.EndsBefore (separator.text ++ rest) := by
  intro c mem
  obtain ⟨first, others, eq⟩ := List.exists_cons_of_ne_nil separator.nonempty
  rw [eq, List.cons_append, List.head?_cons] at mem
  refine separator.isGap.extendsBy_eq_false ?_ kind
  rwa [eq, List.head?_cons]

private theorem Lexes.gapBefore {gap : List Char} (isGap : Lexeme.IsGap gap)
    {offset : Nat} {rest : List Char} {tokens : List Token}
    (h : Lexes (offset + byteLength gap) rest tokens) :
    Lexes offset (gap ++ rest) tokens := by
  induction isGap generalizing offset with
  | nil => exact h
  | layout isLayout _ ih =>
      rw [byteLength, ← Nat.add_assoc] at h
      exact (ih h).layout isLayout
  | @comment comment later isComment _ ih =>
      rw [byteLength_append, byteLength, ← Nat.add_assoc,
        ← Nat.add_assoc] at h
      have newline : Lexes (offset + byteLength comment)
          ('\n' :: (later ++ rest)) tokens := (ih h).layout rfl
      rw [List.append_assoc]
      refine .gap (Lexeme.scan?_comment isComment ?_) newline
      rintro c ⟨⟩
      rfl

/-! ## Spelling out -/

/--
The spellings of the tokens, where the separator of each number stands between
the token of that number and the next one.
-/
def spellOut (separators : Nat → Separator) : List TokenKind → List Char
  | [] => []
  | [kind] => kind.spelling.toList
  | kind :: next :: kinds =>
      kind.spelling.toList ++ ((separators 0).text ++
        spellOut (fun number => separators (number + 1)) (next :: kinds))

private theorem exists_lexes_spellOut (separators : Nat → Separator)
    {kinds : List TokenKind} (proper : ∀ kind ∈ kinds, kind.Proper)
    (offset : Nat) :
    ∃ tokens, Lexes offset (spellOut separators kinds) tokens ∧
      tokens.map Token.kind = kinds ++ [.eof] := by
  induction separators, kinds using spellOut.induct generalizing offset with
  | case1 => exact ⟨_, .nil offset, rfl⟩
  | case2 separators kind =>
      have lexed := Lexes.spelling (proper kind List.mem_cons_self)
        (by rintro c ⟨⟩) (.nil (offset + byteLength kind.spelling.toList))
      rw [List.append_nil] at lexed
      exact ⟨_, lexed, rfl⟩
  | case3 separators kind next kinds ih =>
      rw [List.forall_mem_cons] at proper
      obtain ⟨tokens, lexed, eq⟩ := ih proper.2
        (offset + byteLength kind.spelling.toList +
          byteLength (separators 0).text)
      have separated := lexed.gapBefore (separators 0).isGap
      refine ⟨_, separated.spelling proper.1
        ((separators 0).endsBefore kind _), ?_⟩
      rw [List.map_cons, eq]
      rfl

/-- Tokens that are spelled out, however separated, are lexed again. -/
theorem Token.lex_spellOut (kinds : List TokenKind)
    (proper : ∀ kind ∈ kinds, kind.Proper) (separators : Nat → Separator) :
    ∃ tokens,
      Token.lex (String.ofList (spellOut separators kinds)) = .ok tokens ∧
      tokens.map Token.kind = kinds ++ [.eof] := by
  obtain ⟨tokens, lexed, kinds_eq⟩ :=
    exists_lexes_spellOut separators proper 0
  refine ⟨tokens, ?_, kinds_eq⟩
  rw [lex, String.toList_ofList]
  exact lexed.lexFrom

namespace Separator

def tab : Separator := ⟨['\t'], .layout rfl .nil, List.cons_ne_nil _ _⟩

def remark : Separator where
  text := ['#', ' ', 's', 'k', 'i', 'p', '=', '>'] ++ '\n' :: [' ']
  isGap := .comment ⟨[' ', 's', 'k', 'i', 'p', '=', '>'], rfl, by decide⟩
    (.layout rfl .nil)
  nonempty := List.cons_ne_nil _ _

end Separator

/-- Without the comment, the first two tokens would be one. -/
theorem Token.lex_spellOut_remark :
    ∃ tokens, Token.lex "=# skip=>\n >\t007\tskipper" = .ok tokens ∧
      tokens.map Token.kind =
        [.eq, .gt, .int "007", .ident "skipper", .eof] := by
  let kinds : List TokenKind := [.eq, .gt, .int "007", .ident "skipper"]
  have proper : ∀ kind ∈ kinds, kind.Proper := by
    simp only [kinds, List.forall_mem_cons]
    refine ⟨trivial, trivial, ?_, ?_, by simp⟩
    · exact ⟨by decide, by decide⟩
    · exact ⟨by decide, by decide, by decide, by decide⟩
  have lexed := lex_spellOut kinds proper fun number =>
    if number = 0 then .remark else .tab
  have spelled : String.ofList (spellOut (fun number =>
      if number = 0 then .remark else .tab) kinds) =
        "=# skip=>\n >\t007\tskipper" := by
    decide +kernel
  rwa [spelled] at lexed

end ProofOutline
