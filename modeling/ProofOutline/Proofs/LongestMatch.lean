import ProofOutline.Proofs.Lexer

/-!
# The longest match

The patterns of lexemes are given by predicates on texts, and the longest match
at the front of a text by comparing all lexemes that fit: none is longer, and
among those of the same length a keyword comes before an identifier.  Scanning
finds exactly this match, and fails exactly where nothing fits.
-/

namespace ProofOutline.Lexeme

/-! ## Patterns -/

def IsLayoutRun (text : List Char) : Prop :=
  text ≠ [] ∧ text.all isLayout = true

def IsComment (text : List Char) : Prop :=
  ∃ body, text = '#' :: body ∧ '\n' ∉ body

/--
The lexeme has the form of its sort.  Keywords have the form of identifiers,
too.
-/
def Fits : Lexeme → Prop
  | gap text => IsLayoutRun text ∨ IsComment text
  | token (.int digits) =>
      digits.toList ≠ [] ∧ digits.toList.all Char.isDigit = true
  | token (.ident text) => isNameText text.toList = true
  | token .eof => False
  | token _ => True

def IsIdentifier (lexeme : Lexeme) : Prop :=
  ∃ name, lexeme = .token (.ident name)

/-- The match that is taken at the front of the text, and what follows it. -/
structure LongestMatch (text : List Char) (lexeme : Lexeme)
    (rest : List Char) : Prop where
  split : lexeme.text ++ rest = text
  fits : lexeme.Fits
  longest : ∀ other : Lexeme, other.Fits → other.text <+: text →
    other.text.length ≤ lexeme.text.length
  tie : ∀ other : Lexeme, other.Fits → other.text = lexeme.text →
    other = lexeme ∨ other.IsIdentifier

def NoneAt (text : List Char) : Prop :=
  ∀ lexeme : Lexeme, lexeme.Fits → ¬lexeme.text <+: text

theorem fits_of_proper {kind : TokenKind} (proper : kind.Proper) :
    (token kind).Fits := by
  cases kind with
  | int digits => exact proper
  | ident text => exact proper.1
  | eof => exact proper
  | _ => trivial

private theorem proper_of_fits {kind : TokenKind} (fits : (token kind).Fits)
    (notIdentifier : ¬(token kind).IsIdentifier) : kind.Proper := by
  cases kind with
  | int digits => exact fits
  | ident text => exact absurd ⟨text, rfl⟩ notIdentifier
  | eof => exact fits
  | _ => trivial

/-! ## Scanning what fits -/

private theorem scan?_layoutRun {text rest : List Char} (run : IsLayoutRun text)
    (ends : ∀ c ∈ rest.head?, isLayout c = false) :
    scan? (text ++ rest) = some (.gap text, rest) := by
  obtain ⟨nonempty, all⟩ := run
  cases text with
  | nil => exact absurd rfl nonempty
  | cons c tail =>
      rw [List.all_cons, Bool.and_eq_true] at all
      obtain ⟨taken, dropped⟩ := takeWhile_dropWhile_append tail all.2 ends
      rw [List.cons_append, scan?_layout all.1, taken, dropped]

theorem scan?_comment {text rest : List Char} (comment : IsComment text)
    (ends : ∀ c ∈ rest.head?, c = '\n') :
    scan? (text ++ rest) = some (.gap text, rest) := by
  obtain ⟨body, rfl, oneLine⟩ := comment
  have inside : body.all (· ≠ '\n') = true := by
    rw [List.all_eq_true]
    intro c mem
    exact decide_eq_true fun eq => oneLine (eq ▸ mem)
  have stops : ∀ c ∈ rest.head?, decide (c ≠ '\n') = false :=
    fun c mem => decide_eq_false fun ne => ne (ends c mem)
  obtain ⟨taken, dropped⟩ := takeWhile_dropWhile_append body inside stops
  rw [List.cons_append, scan?, if_neg (by decide), if_pos rfl, taken, dropped]

theorem exists_scan?_of_run (p : Char → Bool)
    (lexeme : List Char → Lexeme) {text : List Char}
    (text_lexeme : ∀ longer, (lexeme longer).text = longer)
    (scanned : ∀ run after, run.all p = true →
      (∀ c ∈ after.head?, p c = false) →
      scan? (text ++ run ++ after) = some (lexeme (text ++ run), after))
    (rest : List Char) :
    ∃ found after, scan? (text ++ rest) = some (found, after) ∧
      text.length ≤ found.text.length := by
  have ends : ∀ c ∈ (rest.dropWhile p).head?, p c = false := by
    intro c mem
    have stopped := List.head?_dropWhile_not p rest
    rw [Option.mem_def.mp mem] at stopped
    simpa using stopped
  have found := scanned (rest.takeWhile p) (rest.dropWhile p)
    List.all_takeWhile ends
  rw [List.append_assoc, List.takeWhile_append_dropWhile] at found
  refine ⟨_, _, found, ?_⟩
  rw [text_lexeme, List.length_append]
  exact Nat.le_add_right _ _

private theorem exists_scan?_gap {text : List Char} (fits : (gap text).Fits)
    (rest : List Char) :
    ∃ found after, scan? (text ++ rest) = some (found, after) ∧
      text.length ≤ found.text.length := by
  rcases fits with ⟨nonempty, layout⟩ | ⟨body, rfl, oneLine⟩
  · refine exists_scan?_of_run isLayout gap (fun _ => rfl) ?_ rest
    intro run after all ends
    refine scan?_layoutRun ⟨?_, ?_⟩ ends
    · exact fun empty => nonempty (List.append_eq_nil_iff.mp empty).1
    · rw [List.all_append, layout, all, Bool.and_self]
  · refine exists_scan?_of_run (· ≠ '\n') gap (fun _ => rfl) ?_ rest
    intro run after all ends
    refine scan?_comment ⟨body ++ run, rfl, fun mem => ?_⟩ fun c mem => ?_
    · rcases List.mem_append.mp mem with inBody | inRun
      · exact oneLine inBody
      · exact of_decide_eq_true (List.all_eq_true.mp all _ inRun) rfl
    · exact Decidable.not_not.mp (of_decide_eq_false (ends c mem))

private theorem exists_scan?_digits {text : List Char} (nonempty : text ≠ [])
    (digits : text.all Char.isDigit = true) (rest : List Char) :
    ∃ found after, scan? (text ++ rest) = some (found, after) ∧
      text.length ≤ found.text.length := by
  refine exists_scan?_of_run Char.isDigit
    (fun longer => token (.int (String.ofList longer)))
    (fun _ => String.toList_ofList) ?_ rest
  intro run after all ends
  refine scan?_digits ?_ ?_ ends
  · exact fun empty => nonempty (List.append_eq_nil_iff.mp empty).1
  · rw [List.all_append, digits, all, Bool.and_self]

private theorem exists_scan?_word {text : List Char}
    (isName : isNameText text = true) (rest : List Char) :
    ∃ found after, scan? (text ++ rest) = some (found, after) ∧
      text.length ≤ found.text.length := by
  refine exists_scan?_of_run isNamePart (fun longer => token (word longer))
    spelling_word ?_ rest
  intro run after all ends
  refine scan?_word ?_ ends
  cases text with
  | nil => cases isName
  | cons c tail =>
      rw [isNameText, Bool.and_eq_true] at isName
      rw [List.cons_append, isNameText, List.all_append, isName.1, isName.2,
        all]
      rfl

private theorem exists_scan?_extendable {kind longer : TokenKind} {sign : Char}
    (proper : kind.Proper) (extends_iff : ∀ c, kind.extendsBy c = (c == sign))
    (extended : ∀ tail, scan? (kind.spelling.toList ++ sign :: tail) =
      some (.token longer, tail))
    (grows : kind.spelling.toList.length ≤ longer.spelling.toList.length)
    (rest : List Char) :
    ∃ found after, scan? (kind.spelling.toList ++ rest) =
        some (found, after) ∧
      kind.spelling.toList.length ≤ found.text.length := by
  by_cases ends : kind.EndsBefore rest
  · exact ⟨_, rest, scan?_spelling proper ends, Nat.le_refl _⟩
  · cases rest with
    | nil => exact absurd (fun c mem => by cases mem) ends
    | cons next tail =>
        by_cases isSign : next = sign
        · subst isSign
          exact ⟨_, tail, extended tail, grows⟩
        · refine absurd (fun c mem => ?_) ends
          cases mem
          rw [extends_iff]
          exact beq_eq_false_iff_ne.mpr isSign

theorem exists_scan?_of_fits {lexeme : Lexeme} (fits : lexeme.Fits)
    (rest : List Char) :
    ∃ found after, scan? (lexeme.text ++ rest) = some (found, after) ∧
      lexeme.text.length ≤ found.text.length := by
  cases lexeme with
  | gap text => exact exists_scan?_gap fits rest
  | token kind =>
      cases kind with
      | int digits => exact exists_scan?_digits fits.1 fits.2 rest
      | ident text => exact exists_scan?_word fits rest
      | kwTrue | kwFalse | kwSkip => exact exists_scan?_word (by rfl) rest
      | eof => exact fits.elim
      | lt | gt | bang | eq =>
          refine exists_scan?_extendable ?_ (fun _ => rfl) (fun _ => rfl)
            ?_ rest
          · trivial
          · exact Nat.le_succ 1
      | _ =>
          refine ⟨_, rest, scan?_spelling ?_ ?_, Nat.le_refl _⟩
          · trivial
          · exact fun _ _ => rfl

/-! ## Scanning finds the longest match -/

private theorem fits_of_scan? {text rest : List Char} {lexeme : Lexeme}
    (h : scan? text = some (lexeme, rest)) : lexeme.Fits := by
  cases lexeme with
  | token kind => exact fits_of_proper (proper_of_scan? h)
  | gap gap =>
      cases scans_of_scan? h with
      | layout tail isLayout =>
          refine .inl ⟨List.cons_ne_nil _ _, ?_⟩
          rw [List.all_cons, isLayout, List.all_takeWhile, Bool.and_self]
      | comment tail =>
          have oneLine : (tail.takeWhile (· ≠ '\n')).all (· ≠ '\n') = true :=
            List.all_takeWhile
          refine .inr ⟨_, rfl, fun mem => ?_⟩
          exact of_decide_eq_true (List.all_eq_true.mp oneLine _ mem) rfl

theorem scan?_text {lexeme : Lexeme} (fits : lexeme.Fits)
    (proper : ∀ kind, lexeme = .token kind → kind.Proper) :
    scan? lexeme.text = some (lexeme, []) := by
  rw [← List.append_nil lexeme.text]
  cases lexeme with
  | token kind => exact scan?_spelling (proper kind rfl) (by rintro _ ⟨⟩)
  | gap text =>
      rcases fits with run | comment
      · exact scan?_layoutRun run (by rintro _ ⟨⟩)
      · exact scan?_comment comment (by rintro _ ⟨⟩)

theorem longestMatch_of_scan? {text rest : List Char} {lexeme : Lexeme}
    (h : scan? text = some (lexeme, rest)) :
    LongestMatch text lexeme rest where
  split := append_of_scan? h
  fits := fits_of_scan? h
  longest := by
    rintro other fits ⟨after, rfl⟩
    obtain ⟨found, _, scanned, longer⟩ := exists_scan?_of_fits fits after
    rw [h] at scanned
    cases scanned
    exact longer
  tie := by
    intro other fits sameText
    by_cases identifier : other.IsIdentifier
    · exact .inr identifier
    · left
      have ofOther := scan?_text fits fun kind eq => by
        subst eq
        exact proper_of_fits fits identifier
      have ofLexeme := scan?_text (fits_of_scan? h) fun kind eq => by
        subst eq
        exact proper_of_scan? h
      rw [sameText, ofLexeme] at ofOther
      cases ofOther
      rfl

theorem LongestMatch.unique {text rest rest' : List Char}
    {lexeme lexeme' : Lexeme} (h : LongestMatch text lexeme rest)
    (h' : LongestMatch text lexeme' rest') :
    lexeme = lexeme' ∧ rest = rest' := by
  have start : lexeme.text <+: text := ⟨rest, h.split⟩
  have start' : lexeme'.text <+: text := ⟨rest', h'.split⟩
  have sameText : lexeme.text = lexeme'.text :=
    (List.prefix_of_prefix_length_le start start'
      (h'.longest lexeme h.fits start)).eq_of_length_le
        (h.longest lexeme' h'.fits start')
  have sameRest : rest = rest' := by
    have split := h.split.trans h'.split.symm
    rw [sameText] at split
    exact List.append_cancel_left split
  refine ⟨?_, sameRest⟩
  rcases h'.tie lexeme h.fits sameText with same | ⟨name, rfl⟩
  · exact same
  rcases h.tie lexeme' h'.fits sameText.symm with same | ⟨name', rfl⟩
  · exact same.symm
  have sameName : name = name' := String.toList_inj.mp sameText
  rw [sameName]

/-- A match is the longest all the more when the text ends earlier. -/
theorem LongestMatch.cut {text rest rest' : List Char} {lexeme : Lexeme}
    (h : LongestMatch text lexeme rest) (shorter : rest' <+: rest) :
    LongestMatch (lexeme.text ++ rest') lexeme rest' where
  split := rfl
  fits := h.fits
  longest := by
    intro other fits start
    refine h.longest other fits (start.trans ?_)
    rw [← h.split]
    exact (List.prefix_append_right_inj lexeme.text).mpr shorter
  tie := h.tie

theorem scan?_eq_some_iff {text rest : List Char} {lexeme : Lexeme} :
    scan? text = some (lexeme, rest) ↔ LongestMatch text lexeme rest := by
  refine ⟨longestMatch_of_scan?, fun longest => ?_⟩
  obtain ⟨found, after, scanned, -⟩ := exists_scan?_of_fits longest.fits rest
  rw [longest.split] at scanned
  obtain ⟨rfl, rfl⟩ := longest.unique (longestMatch_of_scan? scanned)
  exact scanned

theorem scan?_eq_none_iff {text : List Char} :
    scan? text = none ↔ NoneAt text := by
  constructor
  · rintro failed lexeme fits ⟨rest, rfl⟩
    obtain ⟨found, after, scanned, -⟩ := exists_scan?_of_fits fits rest
    rw [failed] at scanned
    cases scanned
  · intro noneAt
    cases scanned : scan? text with
    | none => rfl
    | some found =>
        have longest := longestMatch_of_scan? scanned
        exact absurd ⟨_, longest.split⟩ (noneAt _ longest.fits)

end ProofOutline.Lexeme
