import ProofOutline.Proofs.Printing

/-!
# The limits of the round trip

Printing writes every operation in parentheses, which take room that the
source need not have taken.  What is printed is parsed again exactly if there
is room for its parentheses; then parsing and printing are inverse to each
other.  A chain of `=>` shows that there need not be: printed, it takes twice
the room.
-/

namespace ProofOutline

open Text

private theorem Decl.render_eq_of_sameSyntax {first second : Decl}
    (h : first.sameSyntax second = true) : first.render = second.render := by
  cases first with
  | assertion a =>
      cases second with
      | assertion b =>
          have same : a.formula = b.formula := by simpa [sameSyntax] using h
          simp [render, Assertion.render, same]
      | program q => cases h
  | program p =>
      cases second with
      | assertion b => cases h
      | program q =>
          have same : p.command = q.command := by simpa [sameSyntax] using h
          simp [render, Program.render, same]

namespace Source

private theorem parse_render_outcome {decl : Decl} (printable : decl.Printable)
    (expanded : decl.desugar = decl) :
    (decl.depth ≤ maxNesting → ∃ again, parse decl.render = .ok again ∧
      again.sameSyntax decl = true) ∧
    (¬decl.depth ≤ maxNesting → ∃ span,
      parse decl.render = .error (.grammar ⟨.tooDeep, span⟩)) := by
  obtain ⟨sentence, written, cost, denotes⟩ := Decl.exists_writtenIn printable
  rw [← decl.solid_render.trimChars] at written
  obtain ⟨read, denoted, same⟩ := denotes _
  obtain ⟨parsed, failed⟩ := parseChars_outcome written denoted
  rw [cost] at parsed failed
  have sameExpanded := Decl.sameSyntax_desugar same
  rw [expanded] at sameExpanded
  exact ⟨fun fits => ⟨read.desugar, parsed fits, sameExpanded⟩, failed⟩

/--
What is printed of a parsed source is accepted exactly if its parentheses do
not nest too deeply.  If it is accepted, it is read as the same syntax and
printed as the same text; if not, then for its depth.
-/
theorem parse_render_iff {source : String} {decl : Decl}
    (h : parse source = .ok decl) :
    ((∃ again, parse decl.render = .ok again) ↔ decl.depth ≤ maxNesting) ∧
    (∀ again, parse decl.render = .ok again →
      again.sameSyntax decl = true ∧ again.render = decl.render) ∧
    (∀ error, parse decl.render = .error error →
      ∃ span, error = .grammar ⟨.tooDeep, span⟩) := by
  obtain ⟨printable, expanded⟩ := printable_of_parse h
  obtain ⟨reads, refuses⟩ := parse_render_outcome printable expanded
  by_cases fits : decl.depth ≤ maxNesting
  · obtain ⟨again, parsed, same⟩ := reads fits
    simp only [parsed, fits, Except.ok.injEq, reduceCtorEq]
    refine ⟨by simp, ?_, by simp⟩
    rintro _ rfl
    exact ⟨same, Decl.render_eq_of_sameSyntax same⟩
  · obtain ⟨span, failed⟩ := refuses fits
    simp only [failed, fits, Except.error.injEq, reduceCtorEq]
    refine ⟨by simp, by simp, ?_⟩
    rintro _ rfl
    exact ⟨span, rfl⟩

/-! ## Chains of implications -/

def arrows : Nat → Formula
  | 0 => .truth true
  | more + 1 => .connect .implies (.truth true) (arrows more)

def arrowsText : Nat → String
  | 0 => "true"
  | more + 1 => "true=>" ++ arrowsText more

def arrowsSource (count : Nat) : String :=
  "\x7b" ++ arrowsText count ++ "\x7d"

@[simp] theorem depth_arrows (count : Nat) :
    (arrows count).depth = 2 * count := by
  induction count with
  | zero => rfl
  | succ more ih =>
      simp only [arrows, Formula.depth, ih]
      omega

@[simp] theorem desugar_arrows (count : Nat) :
    (arrows count).desugar = arrows count := by
  induction count with
  | zero => rfl
  | succ more ih => simp only [arrows, Formula.desugar, ih]

/-- An arrow takes one level, for what is to the right of it. -/
structure ArrowsPhrase (count : Nat) (phrase : Phrase) : Prop where
  derived : Derives .implication phrase
  denotes : phrase.formula? = some (arrows count)
  cost : phrase.cost = count

private theorem splits_arrows (count : Nat) {rest : List Char}
    {form : List Token → Prop} (ends : TokenKind.kwTrue.EndsBefore rest)
    (after : Splits rest form) :
    Splits ((arrowsText count).toList ++ rest)
      (Followed Phrase.yield (ArrowsPhrase count) form) := by
  induction count with
  | zero =>
      refine (after.token .kwTrue trivial ends).mono ?_
      rintro _ ⟨token, others, isTrue, holds, rfl⟩
      have derived : Derives .primary (.atom token) := .truth (.inl isTrue)
      refine ⟨.atom token, others, ⟨derived.mono (by decide), ?_, rfl⟩,
        holds, rfl⟩
      simp [Phrase.formula?, isTrue, arrows]
  | succ more ih =>
      have text : (arrowsText (more + 1)).toList ++ rest =
          TokenKind.kwTrue.spelling.toList ++
            (TokenKind.implies.spelling.toList ++
              ((arrowsText more).toList ++ rest)) := by
        simp [arrowsText, String.toList_append, TokenKind.spelling]
      have arrow := ih.token .implies trivial fun _ _ => rfl
      have first := arrow.token .kwTrue trivial fun next mem => by
        cases mem
        rfl
      rw [text]
      refine first.mono ?_
      rintro _ ⟨token, _, isTrue, ⟨op, _, isOp, ⟨phrase, others, stands,
        holds, rfl⟩, rfl⟩, rfl⟩
      have derived : Derives .primary (.atom token) := .truth (.inl isTrue)
      refine ⟨.infixed (.atom token) op phrase, others, ⟨?_, ?_, ?_⟩, holds,
        ?_⟩
      · exact .implies (derived.mono (by decide)) isOp stands.derived
      · have isConnective : op.kind.connective? = some .implies := by
          rw [isOp]
          rfl
        rw [Phrase.formula?_connect_eq_some_iff isConnective]
        exact ⟨.truth true, arrows more, by simp [Phrase.formula?, isTrue],
          stands.denotes, rfl⟩
      · rw [Phrase.cost_implication isOp, stands.cost]
        simp [Phrase.cost]
      · simp [Phrase.yield]

private theorem exists_writtenIn_arrows (count : Nat) :
    ∃ sentence : Sentence,
      sentence.WrittenIn (trimChars (arrowsSource count).toList) ∧
      sentence.cost = count + 1 ∧
      ∀ source, sentence.decl? source =
        some (.assertion ⟨source, arrows count⟩) := by
  have text : (arrowsSource count).toList =
      '\x7b' :: (arrowsText count).toList ++ ['\x7d'] := by
    simp [arrowsSource, String.toList_append]
  have solid : Solid (arrowsSource count).toList := by
    rw [text]
    exact ⟨⟨'\x7b', _, rfl, rfl⟩, ⟨_, '\x7d', rfl, rfl⟩⟩
  rw [solid.trimChars]
  have closed := Splits.nil.token .rbrace trivial fun _ _ => rfl
  have stated := splits_arrows count (fun next mem => by
    cases mem
    rfl) closed
  obtain ⟨_, lexed, ⟨opening, _, isOpening, ⟨phrase, _, stands, ⟨closing, _,
    isClosing, ⟨eof, isEof, rfl⟩, rfl⟩, rfl⟩, rfl⟩⟩ :=
    (stated.token .lbrace trivial fun _ _ => rfl) 0
  have derived : (Sentence.assertion opening phrase [] closing).Derived :=
    .assertion isOpening stands.derived
      (fun _ mem => absurd mem List.not_mem_nil) isClosing
  refine ⟨.assertion opening phrase [] closing, ⟨derived, eof, isEof, ?_⟩,
    ?_, fun source => ?_⟩
  · simpa [text, Sentence.yield, TokenKind.spelling] using lexed
  · simp [Sentence.cost, FurtherFormula.costs, stands.cost]
  · simp [Sentence.decl?, stands.denotes, Formula.conjoin?]

private theorem parse_arrows {count : Nat} (fits : count < maxNesting) :
    ∃ decl, parse (arrowsSource count) = .ok decl ∧
      decl.depth = 2 * count + 1 := by
  obtain ⟨sentence, written, cost, denotes⟩ := exists_writtenIn_arrows count
  have parsed := (parseChars_outcome written (denotes _)).1 (by omega)
  refine ⟨_, parsed, ?_⟩
  simp [Decl.desugar, Decl.depth]

/-- The longest chain of arrows that is still read back. -/
theorem parse_render_iff_arrows :
    ∃ decl, parse (arrowsSource 127) = .ok decl ∧
      ∃ again, parse decl.render = .ok again ∧
        again.sameSyntax decl = true ∧ again.render = decl.render := by
  obtain ⟨decl, parsed, depth⟩ := parse_arrows (by decide : 127 < maxNesting)
  obtain ⟨accepts, reads, -⟩ := parse_render_iff parsed
  obtain ⟨again, readBack⟩ := accepts.mpr (by rw [depth]; decide)
  exact ⟨decl, parsed, again, readBack, reads again readBack⟩

/-- With one arrow more, what is printed is no longer accepted. -/
theorem parse_render_refused :
    ∃ decl, parse (arrowsSource 128) = .ok decl ∧
      ∃ span, parse decl.render = .error (.grammar ⟨.tooDeep, span⟩) := by
  obtain ⟨decl, parsed, depth⟩ := parse_arrows (by decide : 128 < maxNesting)
  obtain ⟨printable, expanded⟩ := printable_of_parse parsed
  have failed := (parse_render_outcome printable expanded).2
    (by rw [depth]; decide)
  exact ⟨decl, parsed, failed⟩

end Source

end ProofOutline
