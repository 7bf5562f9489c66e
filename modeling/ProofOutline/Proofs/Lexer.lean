import ProofOutline.Token.Lexer

/-!
# Lexing as a relation

`Scans` says what is scanned at the front of a text and `Lexes` how a whole
text splits into lexemes, so that facts about all lexed texts are proved by
cases and by induction on the split.  Lexed tokens are spelled in the text
under their spans, and what is spelled out is lexed again.
-/

namespace ProofOutline

open Text

/-! ## One lexeme -/

namespace Token

theorem lexFrom_gap {offset : Nat} {text gap rest : List Char}
    (scanned : Lexeme.scan? text = some (.gap gap, rest)) :
    lexFrom offset text = lexFrom (offset + byteLength gap) rest := by
  cases text with
  | nil => cases scanned
  | cons c tail =>
      rw [lexFrom]
      split
      case h_1 failed => rw [scanned] at failed; cases failed
      case h_2 found =>
        rw [scanned] at found
        cases found
        rfl
      case h_3 found => rw [scanned] at found; cases found

theorem lexFrom_token {offset : Nat} {text rest : List Char}
    {kind : TokenKind}
    (scanned : Lexeme.scan? text = some (.token kind, rest)) :
    let next := offset + byteLength kind.spelling.toList
    lexFrom offset text =
      (lexFrom next rest).map (⟨kind, ⟨offset, next⟩⟩ :: ·) := by
  cases text with
  | nil => cases scanned
  | cons c tail =>
      rw [lexFrom]
      split
      case h_1 failed => rw [scanned] at failed; cases failed
      case h_2 found => rw [scanned] at found; cases found
      case h_3 found =>
        rw [scanned] at found
        cases found
        dsimp only
        cases lexFrom (offset + byteLength kind.spelling.toList) rest <;> rfl

theorem lexFrom_none {offset : Nat} {c : Char} {tail : List Char}
    (failed : Lexeme.scan? (c :: tail) = none) :
    lexFrom offset (c :: tail) = .error ⟨offset, c⟩ := by
  rw [lexFrom]
  split
  case h_1 => rfl
  case h_2 found => rw [failed] at found; cases found
  case h_3 found => rw [failed] at found; cases found

end Token

/-! ## The split -/

/-- The text, which starts at `offset`, splits into these tokens and gaps. -/
inductive Lexes : Nat → List Char → List Token → Prop
  | nil (offset : Nat) : Lexes offset [] [⟨.eof, ⟨offset, offset⟩⟩]
  | gap {offset : Nat} {text gap rest : List Char} {tokens : List Token} :
      Lexeme.scan? text = some (.gap gap, rest) →
      Lexes (offset + byteLength gap) rest tokens → Lexes offset text tokens
  | token {offset : Nat} {text rest : List Char} {kind : TokenKind}
      {tokens : List Token} :
      Lexeme.scan? text = some (.token kind, rest) →
      Lexes (offset + byteLength kind.spelling.toList) rest tokens →
      Lexes offset text
        (⟨kind, ⟨offset, offset + byteLength kind.spelling.toList⟩⟩ :: tokens)

private theorem Lexes.of_lexFrom {offset : Nat} {text : List Char}
    {tokens : List Token} (h : Token.lexFrom offset text = .ok tokens) :
    Lexes offset text tokens := by
  fun_induction Token.lexFrom offset text generalizing tokens with
  | case1 offset =>
      cases h
      exact .nil offset
  | case2 => cases h
  | case3 offset c tail gap rest scanned _ ih => exact .gap scanned (ih h)
  | case4 offset c tail kind rest scanned _ next others lexed =>
      rename_i ih
      cases h
      exact .token scanned (ih lexed)
  | case5 => cases h

theorem Lexes.lexFrom {offset : Nat} {text : List Char} {tokens : List Token}
    (h : Lexes offset text tokens) :
    Token.lexFrom offset text = .ok tokens := by
  induction h with
  | nil offset => rw [Token.lexFrom]
  | gap scanned _ ih => rw [Token.lexFrom_gap scanned, ih]
  | token scanned _ ih =>
      rw [Token.lexFrom_token scanned, ih]
      rfl

theorem lexes_iff {offset : Nat} {text : List Char} {tokens : List Token} :
    Token.lexFrom offset text = .ok tokens ↔ Lexes offset text tokens :=
  ⟨Lexes.of_lexFrom, Lexes.lexFrom⟩

/-! ## What is scanned -/

namespace Lexeme

inductive Scans : List Char → Lexeme → List Char → Prop
  | layout {c : Char} (tail : List Char) : isLayout c = true →
      Scans (c :: tail) (.gap (c :: tail.takeWhile isLayout))
        (tail.dropWhile isLayout)
  | comment (tail : List Char) :
      Scans ('#' :: tail) (.gap ('#' :: tail.takeWhile (· ≠ '\n')))
        (tail.dropWhile (· ≠ '\n'))
  | digits {c : Char} (tail : List Char) : c.isDigit = true →
      Scans (c :: tail)
        (.token (.int (String.ofList (c :: tail.takeWhile Char.isDigit))))
        (tail.dropWhile Char.isDigit)
  | word {c : Char} (tail : List Char) : isNameStart c = true →
      Scans (c :: tail) (.token (word (c :: tail.takeWhile isNamePart)))
        (tail.dropWhile isNamePart)
  | mark {text rest : List Char} {kind : TokenKind} :
      mark? text = some (kind, rest) → Scans text (.token kind) rest

theorem scans_of_scan? {text rest : List Char} {lexeme : Lexeme}
    (h : scan? text = some (lexeme, rest)) : Scans text lexeme rest := by
  cases text with
  | nil => cases h
  | cons c tail =>
      simp only [scan?] at h
      split at h
      case isTrue isLayout =>
        cases h
        exact .layout tail isLayout
      split at h
      case isTrue isHash =>
        cases h
        cases isHash
        exact .comment tail
      split at h
      case isTrue isDigit =>
        cases h
        exact .digits tail isDigit
      split at h
      case isTrue isStart =>
        cases h
        exact .word tail isStart
      obtain ⟨⟨kind, remaining⟩, found, eq⟩ := Option.map_eq_some_iff.mp h
      cases eq
      exact .mark found

end Lexeme

/-! ## Texts of lexemes -/

namespace Lexeme

@[simp] theorem spelling_word (text : List Char) :
    (word text).spelling.toList = text := by
  have spelled : (word text).spelling = String.ofList text := by
    rw [word]
    split
    case h_1 eq => exact eq.symm
    case h_2 eq => exact eq.symm
    case h_3 eq => exact eq.symm
    case h_4 => rfl
  rw [spelled, String.toList_ofList]

private theorem append_of_mark? {text rest : List Char} {kind : TokenKind}
    (h : mark? text = some (kind, rest)) :
    kind.spelling.toList ++ rest = text := by
  unfold mark? at h
  split at h <;> cases h <;> rfl

theorem append_of_scan? {text rest : List Char} {lexeme : Lexeme}
    (h : scan? text = some (lexeme, rest)) : lexeme.text ++ rest = text := by
  cases scans_of_scan? h with
  | layout | comment => simp [Lexeme.text]
  | digits => simp [Lexeme.text, TokenKind.spelling]
  | word => simp [Lexeme.text]
  | mark found => exact append_of_mark? found

end Lexeme

/-- What lexed tokens are: not the end of input, and words spelled as such. -/
def TokenKind.Proper : TokenKind → Prop
  | .int digits => digits.toList ≠ [] ∧ digits.toList.all Char.isDigit = true
  | .ident text =>
      isNameText text.toList = true ∧ text ≠ "true" ∧ text ≠ "false" ∧
        text ≠ "skip"
  | .eof => False
  | _ => True

theorem TokenKind.Proper.ne_eof {kind : TokenKind} (h : kind.Proper) :
    kind ≠ .eof := by
  rintro rfl
  exact h

namespace Lexeme

private theorem proper_word {text : List Char} (h : isNameText text = true) :
    (word text).Proper := by
  rw [word]
  split
  case h_1 => trivial
  case h_2 => trivial
  case h_3 => trivial
  case h_4 notTrue notFalse notSkip =>
    refine ⟨?_, notTrue, notFalse, notSkip⟩
    rwa [String.toList_ofList]

private theorem proper_of_mark? {text rest : List Char} {kind : TokenKind}
    (h : mark? text = some (kind, rest)) : kind.Proper := by
  unfold mark? at h
  split at h <;> cases h <;> trivial

theorem proper_of_scan? {text rest : List Char} {kind : TokenKind}
    (h : scan? text = some (.token kind, rest)) : kind.Proper := by
  cases scans_of_scan? h with
  | digits tail isDigit => simp [TokenKind.Proper, isDigit]
  | word tail isStart => exact proper_word (by simp [isNameText, isStart])
  | mark found => exact proper_of_mark? found

end Lexeme

/-! ## Bytes of a text -/

namespace Text

@[simp] theorem byteLength_append (first second : List Char) :
    byteLength (first ++ second) = byteLength first + byteLength second := by
  induction first with
  | nil => simp [byteLength]
  | cons c rest ih => simp [byteLength, ih, Nat.add_assoc]

@[simp] theorem dropBytes?_append (first second : List Char) :
    dropBytes? (byteLength first) (first ++ second) = some second := by
  induction first with
  | nil => rw [byteLength, List.nil_append, dropBytes?]
  | cons c rest ih =>
      have positive := c.utf8Size_pos
      obtain ⟨count, eq⟩ :
          ∃ count, c.utf8Size + byteLength rest = count + 1 :=
        Nat.exists_eq_succ_of_ne_zero (by omega)
      rw [byteLength, eq, List.cons_append, dropBytes?, ← eq,
        if_pos (Nat.le_add_right _ _), Nat.add_sub_cancel_left, ih]

@[simp] theorem takeBytes?_append (first second : List Char) :
    takeBytes? (byteLength first) (first ++ second) = some first := by
  induction first with
  | nil => rw [byteLength, takeBytes?]
  | cons c rest ih =>
      have positive := c.utf8Size_pos
      obtain ⟨count, eq⟩ :
          ∃ count, c.utf8Size + byteLength rest = count + 1 :=
        Nat.exists_eq_succ_of_ne_zero (by omega)
      rw [byteLength, eq, List.cons_append, takeBytes?, ← eq,
        if_pos (Nat.le_add_right _ _), Nat.add_sub_cancel_left, ih]
      rfl

@[simp] theorem slice?_append (before inside after : List Char) :
    slice? (before ++ (inside ++ after))
      ⟨byteLength before, byteLength before + byteLength inside⟩ =
        some inside := by
  rw [slice?, if_pos (Nat.le_add_right _ _), dropBytes?_append,
    Span.length, Nat.add_sub_cancel_left, Option.bind_some,
    takeBytes?_append]

end Text

/-! ## The end of input -/

structure Terminated (before : List Token) (eof : Token) : Prop where
  inside : ∀ token ∈ before, token.kind ≠ .eof
  last : eof.kind = .eof

theorem Lexes.ends {offset : Nat} {text : List Char} {tokens : List Token}
    (h : Lexes offset text tokens) :
    ∃ before, (∀ token ∈ before, token.kind.Proper) ∧
      tokens = before ++ [⟨.eof,
        ⟨offset + byteLength text, offset + byteLength text⟩⟩] := by
  induction h with
  | nil offset => exact ⟨[], by simp, rfl⟩
  | @gap offset text gap rest tokens scanned _ ih =>
      have split : gap ++ rest = text := Lexeme.append_of_scan? scanned
      rwa [← split, byteLength_append, ← Nat.add_assoc]
  | @token offset text rest kind tokens scanned _ ih =>
      obtain ⟨before, proper, rfl⟩ := ih
      have split : kind.spelling.toList ++ rest = text :=
        Lexeme.append_of_scan? scanned
      rw [← split, byteLength_append, ← Nat.add_assoc]
      refine ⟨_ :: before, ?_, rfl⟩
      rw [List.forall_mem_cons]
      exact ⟨Lexeme.proper_of_scan? scanned, proper⟩

theorem Lexes.proper {offset : Nat} {text : List Char} {tokens : List Token}
    (h : Lexes offset text tokens) :
    ∃ before eof, tokens = before ++ [eof] ∧
      (∀ token ∈ before, token.kind.Proper) ∧ eof.kind = .eof := by
  obtain ⟨before, proper, rfl⟩ := h.ends
  exact ⟨before, _, rfl, proper, rfl⟩

theorem Lexes.terminated {offset : Nat} {text : List Char}
    {tokens : List Token} (h : Lexes offset text tokens) :
    ∃ before eof, tokens = before ++ [eof] ∧ Terminated before eof := by
  obtain ⟨before, eof, rfl, proper, isEof⟩ := h.proper
  exact ⟨before, eof, rfl, fun token mem => (proper token mem).ne_eof, isEof⟩

/-! ## Texts under spans -/

def Token.SpelledIn (source : List Char) (token : Token) : Prop :=
  slice source token.span = token.kind.spelling.toList

/-- The source is cut at both ends of the span, and the spelling is inside. -/
def Token.PlacedIn (source : List Char) (token : Token) : Prop :=
  ∃ before after,
    before ++ (token.kind.spelling.toList ++ after) = source ∧
    token.span = ⟨byteLength before,
      byteLength before + byteLength token.kind.spelling.toList⟩

theorem Token.PlacedIn.slice? {source : List Char} {token : Token}
    (h : token.PlacedIn source) :
    Text.slice? source token.span = some token.kind.spelling.toList := by
  obtain ⟨before, after, rfl, span⟩ := h
  rw [span]
  exact slice?_append before token.kind.spelling.toList after

theorem Lexes.placedIn {offset : Nat} {text : List Char}
    {tokens : List Token} (h : Lexes offset text tokens)
    (before : List Char) (start : byteLength before = offset) :
    ∀ token ∈ tokens, token.PlacedIn (before ++ text) := by
  induction h generalizing before with
  | nil offset =>
      subst start
      rw [List.forall_mem_singleton]
      exact ⟨before, [], rfl, rfl⟩
  | @gap offset text gap rest tokens scanned _ ih =>
      subst start
      have split : gap ++ rest = text := Lexeme.append_of_scan? scanned
      have later := ih (before ++ gap) (byteLength_append before gap)
      rwa [List.append_assoc, split] at later
  | @token offset text rest kind tokens scanned _ ih =>
      subst start
      have split : kind.spelling.toList ++ rest = text :=
        Lexeme.append_of_scan? scanned
      have later := ih (before ++ kind.spelling.toList)
        (byteLength_append before kind.spelling.toList)
      rw [List.append_assoc, split] at later
      rw [List.forall_mem_cons]
      exact ⟨⟨before, rest, congrArg (before ++ ·) split, rfl⟩, later⟩

theorem Lexes.spelledIn {offset : Nat} {text : List Char}
    {tokens : List Token} (h : Lexes offset text tokens)
    (before : List Char) (start : byteLength before = offset) :
    ∀ token ∈ tokens, token.SpelledIn (before ++ text) := by
  intro token mem
  rw [Token.SpelledIn, slice, (h.placedIn before start token mem).slice?,
    Option.getD_some]

/-! ## Spelling tokens out -/

/-- Whether the character, put behind a token, would make it longer. -/
def TokenKind.extendsBy : TokenKind → Char → Bool
  | .int _, c => c.isDigit
  | .ident _, c | .kwTrue, c | .kwFalse, c | .kwSkip, c => isNamePart c
  | .lt, c | .gt, c | .bang, c => c == '='
  | .eq, c => c == '>'
  | _, _ => false

def TokenKind.EndsBefore (kind : TokenKind) (rest : List Char) : Prop :=
  ∀ c ∈ rest.head?, kind.extendsBy c = false

theorem takeWhile_dropWhile_append {p : Char → Bool} (text : List Char)
    {rest : List Char} (all : text.all p = true)
    (ends : ∀ c ∈ rest.head?, p c = false) :
    (text ++ rest).takeWhile p = text ∧ (text ++ rest).dropWhile p = rest := by
  have stop : rest.takeWhile p = [] ∧ rest.dropWhile p = rest := by
    cases rest with
    | nil => exact ⟨rfl, rfl⟩
    | cons c tail =>
        have := ends c rfl
        simp [this]
  rw [List.takeWhile_append_of_pos (List.all_eq_true.mp all),
    List.dropWhile_append_of_pos (List.all_eq_true.mp all), stop.1, stop.2]
  simp

theorem Lexeme.isLayout_iff {c : Char} :
    isLayout c = true ↔ c ∈ [' ', '\t', '\n', '\x0c', '\r'] := by
  simp [isLayout, or_assoc]

private theorem Lexeme.not_gap_of {p : Char → Bool} {c : Char} (h : p c = true)
    (others : ['#', ' ', '\t', '\n', '\x0c', '\r'].any p = false) :
    isLayout c = false ∧ c ≠ '#' := by
  have absent := List.any_eq_false.mp others
  constructor
  · refine Bool.eq_false_iff.mpr fun layout => ?_
    exact absent c (List.mem_cons_of_mem _ (isLayout_iff.mp layout)) h
  · rintro rfl
    exact absent '#' List.mem_cons_self h

theorem toNat_of_isNameStart {c : Char} (h : isNameStart c = true) :
    (65 ≤ c.toNat ∧ c.toNat ≤ 90) ∨ (97 ≤ c.toNat ∧ c.toNat ≤ 122) ∨
      c = '_' := by
  rw [isNameStart, Bool.or_eq_true, beq_iff_eq] at h
  rcases h with letter | underscore
  · rcases (Bool.or_eq_true _ _).mp letter with upper | lower
    · have bounds : 'A'.val ≤ c.val ∧ c.val ≤ 'Z'.val :=
        of_decide_eq_true upper
      simp only [UInt32.le_iff_toNat_le] at bounds
      exact .inl bounds
    · obtain ⟨least, greatest⟩ := (Bool.and_eq_true _ _).mp lower
      have least := UInt32.le_iff_toNat_le.mp (of_decide_eq_true least)
      have greatest := UInt32.le_iff_toNat_le.mp (of_decide_eq_true greatest)
      exact .inr (.inl ⟨least, greatest⟩)
  · exact .inr (.inr underscore)

theorem not_isDigit_of_isNameStart {c : Char} (h : isNameStart c = true) :
    c.isDigit = false := by
  refine Bool.eq_false_iff.mpr fun digit => ?_
  have bounds : 48 ≤ c.toNat ∧ c.toNat ≤ 57 :=
    Char.isDigit_iff_toNat.mp digit
  rcases toNat_of_isNameStart h with upper | lower | rfl
  · omega
  · omega
  · cases digit

theorem scan?_digits {text rest : List Char} (nonempty : text ≠ [])
    (digits : text.all Char.isDigit = true)
    (ends : ∀ c ∈ rest.head?, c.isDigit = false) :
    Lexeme.scan? (text ++ rest) =
      some (.token (.int (String.ofList text)), rest) := by
  cases text with
  | nil => exact absurd rfl nonempty
  | cons c tail =>
      rw [List.all_cons, Bool.and_eq_true] at digits
      obtain ⟨notLayout, notHash⟩ :=
        Lexeme.not_gap_of digits.1 (by rfl)
      obtain ⟨taken, dropped⟩ := takeWhile_dropWhile_append tail digits.2 ends
      simp [Lexeme.scan?, notLayout, notHash, digits.1, taken, dropped]

theorem scan?_word {text rest : List Char} (isName : isNameText text = true)
    (ends : ∀ c ∈ rest.head?, isNamePart c = false) :
    Lexeme.scan? (text ++ rest) =
      some (.token (Lexeme.word text), rest) := by
  cases text with
  | nil => cases isName
  | cons c tail =>
      rw [isNameText, Bool.and_eq_true] at isName
      obtain ⟨notLayout, notHash⟩ :=
        Lexeme.not_gap_of isName.1 (by rfl)
      have notDigit := not_isDigit_of_isNameStart isName.1
      obtain ⟨taken, dropped⟩ := takeWhile_dropWhile_append tail isName.2 ends
      simp [Lexeme.scan?, notLayout, notHash, notDigit, isName.1, taken,
        dropped]

private theorem word_eq_ident {text : String} (notTrue : text ≠ "true")
    (notFalse : text ≠ "false") (notSkip : text ≠ "skip") :
    Lexeme.word text.toList = .ident text := by
  rw [Lexeme.word, String.ofList_toList]
  split
  case h_1 => exact absurd rfl notTrue
  case h_2 => exact absurd rfl notFalse
  case h_3 => exact absurd rfl notSkip
  case h_4 => rfl

theorem scan?_spelling {kind : TokenKind} (proper : kind.Proper)
    {rest : List Char} (ends : kind.EndsBefore rest) :
    Lexeme.scan? (kind.spelling.toList ++ rest) =
      some (.token kind, rest) := by
  cases kind with
  | int digits =>
      have scanned := scan?_digits proper.1 proper.2 ends
      rwa [String.ofList_toList] at scanned
  | ident text =>
      have scanned := scan?_word proper.1 ends
      rwa [word_eq_ident proper.2.1 proper.2.2.1 proper.2.2.2] at scanned
  | kwTrue | kwFalse | kwSkip => exact scan?_word (by rfl) ends
  | eof => exact proper.elim
  | lt | gt | bang | eq =>
      cases rest with
      | nil => rfl
      | cons next tail =>
          have other := ends next rfl
          rw [TokenKind.extendsBy, beq_eq_false_iff_ne] at other
          simp [TokenKind.spelling, Lexeme.scan?, Lexeme.isLayout,
            isNameStart, Lexeme.mark?, other]
  | _ => rfl

theorem Lexes.spelling {kind : TokenKind} (proper : kind.Proper)
    {offset : Nat} {rest : List Char} {tokens : List Token}
    (ends : kind.EndsBefore rest)
    (h : Lexes (offset + byteLength kind.spelling.toList) rest tokens) :
    Lexes offset (kind.spelling.toList ++ rest)
      (⟨kind, ⟨offset, offset + byteLength kind.spelling.toList⟩⟩ ::
        tokens) :=
  .token (scan?_spelling proper ends) h

theorem scan?_layout {c : Char} (isLayout : Lexeme.isLayout c = true)
    (rest : List Char) :
    Lexeme.scan? (c :: rest) =
      some (.gap (c :: rest.takeWhile Lexeme.isLayout),
        rest.dropWhile Lexeme.isLayout) := by
  rw [Lexeme.scan?, if_pos isLayout]

theorem Lexes.layout {c : Char} (isLayout : Lexeme.isLayout c = true)
    {offset : Nat} {rest : List Char} {tokens : List Token}
    (h : Lexes (offset + c.utf8Size) rest tokens) :
    Lexes offset (c :: rest) tokens := by
  have scanned := scan?_layout isLayout rest
  cases rest with
  | nil => exact .gap scanned h
  | cons next tail =>
      cases more : Lexeme.isLayout next with
      | false =>
          simp only [List.takeWhile_cons, List.dropWhile_cons, more,
            Bool.false_eq_true, if_false] at scanned
          exact .gap scanned h
      | true =>
          have inside := scan?_layout more tail
          simp only [List.takeWhile_cons, List.dropWhile_cons, more,
            if_true] at scanned
          cases h with
          | gap found after =>
              rw [inside] at found
              cases found
              refine .gap scanned ?_
              rwa [Nat.add_assoc] at after
          | token found _ =>
              rw [inside] at found
              cases found

end ProofOutline
