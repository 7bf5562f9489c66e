import ProofOutline.Proofs.Acceptance
import ProofOutline.Proofs.Endings
import ProofOutline.Proofs.Layout

/-!
# Commands without their last semicolon

A command ends with one semicolon token and not with two.  So a command may
leave out its last semicolon, but not in front of a comment that ends the text.
-/

namespace ProofOutline

open Text

/-! ## How commands end -/

theorem TokenKind.ne_of_eq_some {α : Type} {f : TokenKind → Option α}
    {kind other : TokenKind} {value : α} (h : f kind = some value)
    (isNone : f other = none) : kind ≠ other := by
  rintro rfl
  cases h.symm.trans isNone

def Phrase.SemiFree (phrase : Phrase) : Prop :=
  ∀ token ∈ phrase.yield, token.kind ≠ .semi

def Arguments.SemiFree (args : Arguments) : Prop :=
  ∀ token ∈ args.yield, token.kind ≠ .semi

theorem Phrase.inherited_semiFree :
    Inherited (fun _ => True) SemiFree Arguments.SemiFree where
  connective isOp _ left right :=
    forall_yield_infixed.mpr ⟨left, TokenKind.ne_of_eq_some isOp rfl, right⟩
  compare isOp _ left right :=
    forall_yield_infixed.mpr ⟨left, TokenKind.ne_of_eq_some isOp rfl, right⟩
  operation isOp _ left right :=
    forall_yield_infixed.mpr ⟨left, TokenKind.ne_of_eq_some isOp rfl, right⟩
  not isOp _ body := forall_yield_prefixed.mpr ⟨by simp [isOp], body⟩
  sign isSum _ body := by
    refine forall_yield_prefixed.mpr ⟨?_, body⟩
    rintro isSemi
    rw [isSemi] at isSum
    cases isSum
  number isNumber _ := by simp [SemiFree, yield, isNumber]
  truth isTruth _ := by
    rcases isTruth with eq | eq <;> simp [SemiFree, yield, eq]
  name isName _ := by simp [SemiFree, yield, isName]
  bracketed isOpening isClosing inner :=
    forall_yield_bracketed.mpr
      ⟨by simp [isOpening], inner, by simp [isClosing]⟩
  emptyCall isName isOpening isClosing _ := by
    simp [SemiFree, yield, isName, isOpening, isClosing]
  call isName isOpening _ args :=
    forall_yield_call.mpr ⟨by simp [isName], by simp [isOpening], args⟩
  last isClosing arg :=
    Arguments.forall_yield_last.mpr ⟨arg, by simp [isClosing]⟩
  more isComma arg rest :=
    Arguments.forall_yield_more.mpr ⟨arg, by simp [isComma], rest⟩

def EndsOnce (tokens : List Token) : Prop :=
  ∃ front last semi, tokens = front ++ [last, semi] ∧
    last.kind ≠ .semi ∧ semi.kind = .semi

theorem Statement.Derived.endsOnce {statement : Statement}
    (derived : statement.Derived) : EndsOnce statement.yield := by
  cases derived with
  | @skip token semi isSkip isSemi =>
      exact ⟨[], token, semi, rfl, by simp [isSkip], isSemi⟩
  | @assign name op semi text value isName isAssign derived isSemi =>
      have semiFree : value.SemiFree :=
        derived.inherit Phrase.inherited_semiFree fun _ _ => trivial
      rcases value.yield.eq_nil_or_concat with empty | ⟨front, last, eq⟩
      · exact absurd empty value.yield_ne_nil
      · rw [List.concat_eq_append] at eq
        refine ⟨name :: op :: front, last, semi, ?_, ?_, isSemi⟩
        · simp [Statement.yield, eq]
        · exact semiFree last (by simp [eq])

private theorem Sentence.endsOnce_command {first : Statement}
    {others : List Statement} (derived : first.Derived)
    (allDerived : ∀ statement ∈ others, statement.Derived) :
    EndsOnce (Sentence.command first others).yield := by
  rcases others.eq_nil_or_concat with rfl | ⟨middle, final, rfl⟩
  · simpa [Sentence.yield] using derived.endsOnce
  · obtain ⟨front, last, semi, eq, ends⟩ :=
      (allDerived final (by simp)).endsOnce
    refine ⟨first.yield ++ middle.flatMap Statement.yield ++ front, last,
      semi, ?_, ends⟩
    simp [Sentence.yield, eq]

/-! ## Commands by their kinds of tokens -/

/--
Tokens of these kinds are a well-sorted command, with no more nesting than
there is room for, that denotes this one.
-/
def Command.ReadFrom (kinds : List TokenKind) (command : Command) : Prop :=
  ∃ (sentence : Sentence) (source : String), sentence.Derived ∧
    sentence.yield.map Token.kind = kinds ∧
    sentence.cost ≤ maxNesting ∧ sentence.tree.WellSorted ∧
    sentence.Denotes source (.program ⟨source, command⟩)

theorem Command.ReadFrom.endsOnce {kinds : List TokenKind}
    {command : Command} (h : command.ReadFrom kinds) :
    ∃ front last, kinds = front ++ [last, .semi] ∧ last ≠ .semi := by
  obtain ⟨sentence, source, derived, rfl, -, -, denotes⟩ := h
  cases denotes with
  | command read =>
      cases derived with
      | command derived allDerived =>
          obtain ⟨front, last, semi, eq, notSemi, isSemi⟩ :=
            Sentence.endsOnce_command derived allDerived
          refine ⟨front.map Token.kind, last.kind, ?_, notSemi⟩
          simp [eq, isSemi]

private theorem Command.ReadFrom.getLast?_eq {kinds : List TokenKind}
    {command : Command} (h : command.ReadFrom kinds) :
    kinds.getLast? = some .semi := by
  obtain ⟨front, last, rfl, -⟩ := h.endsOnce
  simp

private theorem Command.ReadFrom.getLast?_ne {kinds : List TokenKind}
    {command : Command} (h : command.ReadFrom (kinds ++ [.semi])) :
    kinds.getLast? ≠ some .semi := by
  obtain ⟨front, last, eq, notSemi⟩ := h.endsOnce
  have split : kinds ++ [.semi] = front ++ [last] ++ [.semi] := by
    simpa using eq
  rw [List.append_cancel_right split]
  simpa using notSemi

theorem Sentence.Denotes.decl? {sentence : Sentence} {source : String}
    {command : Command}
    (h : sentence.Denotes source (.program ⟨source, command⟩)) :
    sentence.decl? source = some (.program ⟨source, command⟩) := by
  cases h with
  | command read => simp [Sentence.decl?, read]

namespace Source

variable {text : List Char} {tokens : List Token} {kinds : List TokenKind}

theorem parseChars_eq_program_iff (trimmed : trimChars text = text)
    (lexes : Lexes 0 text tokens)
    (isKinds : tokens.map Token.kind = kinds ++ [.eof])
    (command : Command) :
    (∃ source, parseChars text = .ok (.program ⟨source, command⟩)) ↔
      command.ReadFrom kinds := by
  constructor
  · rintro ⟨source, parsed⟩
    obtain ⟨sentence, read, written, fits, denotes, expanded⟩ :=
      exists_of_parseChars parsed
    rw [trimmed] at written denotes
    obtain ⟨eof, isEof, again⟩ := written.lexed
    cases lexes.lexFrom.symm.trans again.lexFrom
    rw [List.map_append, List.map_singleton, isEof] at isKinds
    have sorted := (written.derived.sorted written.proper _).mp
      (Option.isSome_of_eq_some denotes)
    cases read with
    | assertion assertion => cases expanded
    | program program =>
        cases expanded
        have meant := Sentence.denotes_of_decl? denotes
        cases meant with
        | command read =>
            exact ⟨_, String.ofList text, written.derived,
              List.append_cancel_right isKinds, fits, sorted.1, .command read⟩
  · rintro ⟨sentence, source, derived, rfl, fits, -, denotes⟩
    obtain ⟨before, eof, rfl, ended⟩ := lexes.terminated
    rw [List.map_append, List.map_singleton, ended.last] at isKinds
    have same : SameKinds sentence.yield before :=
      (List.append_cancel_right isKinds).symm
    obtain ⟨other, alike, rfl⟩ := sentence.exists_alike same
    have written : other.WrittenIn (trimChars text) := by
      rw [trimmed]
      exact ⟨derived.of_alike alike, eof, ended.last, lexes⟩
    have again : sentence.Denotes (String.ofList (trimChars text))
        (.program ⟨String.ofList (trimChars text), command⟩) := by
      cases denotes with
      | command read => exact .command read
    have denoted := again.decl?
    rw [alike.decl?_eq] at denoted
    rw [alike.cost_eq] at fits
    exact ⟨_, (parseChars_outcome written denoted).1 fits⟩

end Source

/-! ## The last semicolon -/

namespace Source

open Lexeme

theorem solid_delimit (text : List Char) :
    Solid (delimit (trimChars text)) := by
  have semi : isBlank ';' = false := by decide
  rw [delimit]
  rcases trimChars_eq_nil_or_solid text with empty | solid
  · rw [empty]
    exact ⟨⟨';', [], semi, rfl⟩, ⟨[], ';', semi, rfl⟩⟩
  · split
    · exact solid
    · obtain ⟨c, rest, notBlank, eq⟩ := solid.first
      exact ⟨⟨c, rest ++ [';'], notBlank, by rw [eq]; rfl⟩,
        ⟨_, ';', semi, rfl⟩⟩

theorem parseCommand_eq_ok_iff {source : String} {command : Command} :
    (∃ program, parseCommand source = .ok program ∧
      program.command = command) ↔
      ∃ text, parseChars (delimit (trimChars source.toList)) =
        .ok (.program ⟨text, command⟩) := by
  constructor
  · rintro ⟨program, parsed, rfl⟩
    obtain ⟨decl, read, parsed⟩ := bind_eq_ok_iff.mp parsed
    cases decl with
    | assertion assertion => cases parsed
    | program found =>
        cases parsed
        exact ⟨program.source, read⟩
  · rintro ⟨text, read⟩
    refine ⟨⟨text, command⟩, ?_, rfl⟩
    rw [parseCommand, read]
    rfl

theorem parseChars_delimit_iff {text : List Char} {tokens : List Token}
    {kinds : List TokenKind} (lexes : Lexes 0 (trimChars text) tokens)
    (isKinds : tokens.map Token.kind = kinds ++ [.eof]) (command : Command) :
    (∃ source, parseChars (delimit (trimChars text)) =
      .ok (.program ⟨source, command⟩)) ↔
      command.ReadFrom kinds ∨
        ¬EndsInComment (trimChars text) ∧
          command.ReadFrom (kinds ++ [.semi]) := by
  have trimmed := trimChars_eq_nil_or_solid text
  have solid := (solid_delimit text).trimChars
  obtain ⟨others, again, inComment, asToken⟩ :=
    lexes.exists_append_semi isKinds
  obtain ⟨lexemes, split, rfl⟩ := lexes.exists_kinds isKinds
  generalize trimChars text = trimmedText at *
  by_cases ends : EndsInComment trimmedText
  · have delimited : ∃ found, Lexes 0 (delimit trimmedText) found ∧
        found.map Token.kind = lexemes.filterMap kind? ++ [.eof] := by
      rw [delimit]
      split
      · exact ⟨tokens, lexes, isKinds⟩
      · exact ⟨others, again, inComment ends⟩
    obtain ⟨found, lexes, isKinds⟩ := delimited
    rw [parseChars_eq_program_iff solid lexes isKinds]
    simp [ends]
  · have last := split.getLast?_eq_semi_iff trimmed ends
    by_cases semi : trimmedText.getLast? = some ';'
    · rw [delimit, if_pos semi] at solid ⊢
      rw [parseChars_eq_program_iff solid lexes isKinds]
      refine ⟨.inl, ?_⟩
      rintro (read | ⟨-, read⟩)
      · exact read
      · exact absurd (last.mpr semi) read.getLast?_ne
    · rw [delimit, if_neg semi] at solid ⊢
      rw [parseChars_eq_program_iff solid again (asToken ends)]
      refine ⟨fun read => .inr ⟨ends, read⟩, ?_⟩
      rintro (read | ⟨-, read⟩)
      · exact absurd (last.mp read.getLast?_eq) semi
      · exact read

/--
A source of a command may leave out the last semicolon, unless it ends in a
comment.  Blanks at its end make no difference.
-/
theorem parseCommand_supplies_semicolon {source : String}
    {tokens : List Token} {kinds : List TokenKind}
    (lexed : Token.lexChars (trimChars source.toList) = .ok tokens)
    (isKinds : tokens.map Token.kind = kinds ++ [.eof]) :
    (∀ command : Command,
      (∃ program, parseCommand source = .ok program ∧
        program.command = command) ↔
        command.ReadFrom kinds ∨
          ¬EndsInComment (trimChars source.toList) ∧
            command.ReadFrom (kinds ++ [.semi])) ∧
    ∀ blanks : String, blanks.toList.all isBlank = true →
      parseCommand (source ++ blanks) = parseCommand source := by
  constructor
  · intro command
    rw [parseCommand_eq_ok_iff]
    exact parseChars_delimit_iff (lexes_iff.mp lexed) isKinds command
  · intro blanks all
    rw [parseCommand, parseCommand, String.toList_append,
      trimChars_append all]

private theorem readFrom_skip :
    (Command.mk .skip []).ReadFrom [.kwSkip, .semi] := by
  let statement : Statement := .skip ⟨.kwSkip, ⟨0, 4⟩⟩ ⟨.semi, ⟨4, 5⟩⟩
  have sorted : ∀ tree ∈ [statement.tree], tree.StatementSorted := by
    rw [List.forall_mem_singleton]
    exact .skip
  exact ⟨.command statement [], "", .command (.skip rfl rfl) (by simp), rfl,
    by decide, .command sorted, .command rfl⟩

/-- The semicolon in the comment is none, and the last one is missing. -/
theorem parseCommand_supplies_semicolon_skip :
    ∃ tokens program,
      Token.lexChars (trimChars "# a;\n skip\u3000".toList) = .ok tokens ∧
      tokens.map Token.kind = [.kwSkip] ++ [.eof] ∧
      parseCommand "# a;\n skip\u3000" = .ok program ∧
      program.command = ⟨.skip, []⟩ := by
  have lexes : (Token.lexChars
      (trimChars "# a;\n skip\u3000".toList)).toOption.map
        (·.map Token.kind) = some ([.kwSkip] ++ [.eof]) := by
    decide +kernel
  have noComment :
      ¬EndsInComment (trimChars "# a;\n skip\u3000".toList) := by
    decide +kernel
  obtain ⟨tokens, lexed, isKinds⟩ := Option.map_eq_some_iff.mp lexes
  have lexed := eq_ok_of_toOption lexed
  obtain ⟨program, parsed, isSkip⟩ :=
    ((parseCommand_supplies_semicolon lexed isKinds).1 _).mpr
      (.inr ⟨noComment, readFrom_skip⟩)
  exact ⟨tokens, program, lexed, isKinds, parsed, isSkip⟩

/-- In front of a comment the last semicolon may not be missing. -/
theorem parseCommand_comment_refused :
    (∃ tokens, Token.lexChars (trimChars "skip # note".toList) = .ok tokens ∧
      tokens.map Token.kind = [.kwSkip] ++ [.eof]) ∧
    (Command.mk .skip []).ReadFrom ([.kwSkip] ++ [.semi]) ∧
    ∃ error, parseCommand "skip # note" = .error error := by
  have lexes : (Token.lexChars
      (trimChars "skip # note".toList)).toOption.map (·.map Token.kind) =
        some ([.kwSkip] ++ [.eof]) := by
    decide +kernel
  have refused : (parseCommand "skip # note").toOption.isNone = true := by
    decide +kernel
  obtain ⟨tokens, lexed, isKinds⟩ := Option.map_eq_some_iff.mp lexes
  exact ⟨⟨tokens, eq_ok_of_toOption lexed, isKinds⟩, readFrom_skip,
    exists_error_of_isNone refused⟩

end Source

end ProofOutline