import ProofOutline.Proofs.Source
import ProofOutline.Proofs.Writing

/-!
# Reading printed declarations back

A printed declaration has a derivation that denotes it.  So parsing what is
printed of a parsed source gives the same syntax, if there is room for its
parentheses.
-/

namespace ProofOutline

open Text

/-! ## Declarations -/

/-- The room that the printed declaration takes. -/
def Decl.depth : Decl → Nat
  | assertion a => a.formula.depth + 1
  | program p => (p.command.primitives.map Primitive.depth).foldr max 0

theorem Decl.exists_writtenIn {decl : Decl} (printable : decl.Printable) :
    ∃ sentence : Sentence, sentence.WrittenIn decl.render.toList ∧
      sentence.cost = decl.depth ∧
      ∀ source, ∃ read, sentence.decl? source = some read ∧
        read.sameSyntax decl = true := by
  cases decl with
  | assertion a =>
      have closed := Splits.nil.token .rbrace trivial fun _ _ => rfl
      have stated := Formula.writes_render printable
        (breaks_cons (by decide) _) closed.blank
      obtain ⟨_, lexed, ⟨opening, _, isOpening, ⟨phrase, _, stands, ⟨closing,
        _, isClosing, ⟨eof, isEof, rfl⟩, rfl⟩, rfl⟩, rfl⟩⟩ :=
        (stated.blank.token .lbrace trivial fun _ _ => rfl) 0
      have derived : (Sentence.assertion opening phrase [] closing).Derived :=
        .assertion isOpening (stands.derived.mono (by decide))
          (fun _ mem => absurd mem List.not_mem_nil) isClosing
      refine ⟨.assertion opening phrase [] closing,
        ⟨derived, eof, isEof, ?_⟩, ?_, fun source => ?_⟩
      · simpa [render, Assertion.render, String.toList_append,
          Sentence.yield, TokenKind.spelling] using lexed
      · simp [Sentence.cost, FurtherFormula.costs, stands.cost, depth]
      · refine ⟨.assertion ⟨source, a.formula⟩, ?_, ?_⟩
        · simp [Sentence.decl?, stands.denotes, Formula.conjoin?]
        · simp [sameSyntax]
  | program p =>
      obtain ⟨printableFirst, printableRest⟩ :=
        List.forall_mem_cons.mp printable
      obtain ⟨_, lexed, ⟨statement, _, stands, ⟨statements, _, standFor,
        ⟨eof, isEof, rfl⟩, rfl⟩, rfl⟩⟩ :=
        Primitive.splits_render printableFirst
          (splits_primitives printableRest Splits.nil) 0
      have derived : (Sentence.command statement statements).Derived :=
        .command stands.derived standFor.derived
      have all := standFor.cons stands
      refine ⟨.command statement statements,
        ⟨derived, eof, isEof, ?_⟩, ?_, fun source => ?_⟩
      · rw [render, Program.render, Command.toList_render, Sentence.yield,
          List.flatMap_cons, List.append_assoc]
        rwa [List.append_nil] at lexed
      · rw [Sentence.cost, all.costs]
        rfl
      · refine ⟨.program ⟨source, p.command⟩, ?_, ?_⟩
        · rw [Sentence.decl?, all.denotes]
          rfl
        · simp [sameSyntax]

theorem Decl.sameSyntax_desugar {first second : Decl}
    (h : first.sameSyntax second = true) :
    first.desugar.sameSyntax second.desugar = true := by
  cases first with
  | assertion a =>
      cases second with
      | assertion b =>
          have same : a.formula = b.formula := by simpa [sameSyntax] using h
          simp [desugar, sameSyntax, same]
      | program q => cases h
  | program p =>
      cases second with
      | assertion b => cases h
      | program q => exact h

/-! ## Trimming -/

namespace Text

structure Solid (text : List Char) : Prop where
  first : ∃ c rest, isBlank c = false ∧ text = c :: rest
  last : ∃ front c, isBlank c = false ∧ text = front ++ [c]

theorem Solid.trimChars {text : List Char} (h : Solid text) :
    trimChars text = text := by
  obtain ⟨c, rest, notBlank, starts⟩ := h.first
  obtain ⟨front, d, notBlankLast, ends⟩ := h.last
  have left : trimLeft text = text := by
    simp [starts, trimLeft, notBlank]
  rw [Text.trimChars, left, trimRight, ends]
  simp [notBlankLast]

theorem Solid.append {first second : List Char} (h : Solid first)
    (middle : List Char) (after : Solid second) :
    Solid (first ++ (middle ++ second)) := by
  obtain ⟨c, rest, notBlank, rfl⟩ := h.first
  obtain ⟨front, d, notBlankLast, rfl⟩ := after.last
  exact ⟨⟨c, _, notBlank, rfl⟩, ⟨c :: rest ++ (middle ++ front), d,
    notBlankLast, by simp⟩⟩

private theorem isBlank_of_isNameStart {c : Char} (h : isNameStart c = true) :
    isBlank c = false := by
  have ascii : 65 ≤ c.toNat ∧ c.toNat ≤ 122 := by
    rcases toNat_of_isNameStart h with upper | lower | rfl
    · omega
    · omega
    · decide
  simp only [isBlank, Bool.or_eq_false_iff, Bool.and_eq_false_iff,
    decide_eq_false_iff_not, beq_eq_false_iff_ne]
  omega

end Text

theorem Primitive.solid_render (primitive : Primitive) :
    Solid primitive.render.toList := by
  cases primitive with
  | skip => exact ⟨⟨'s', _, rfl, rfl⟩, ⟨"skip".toList, ';', rfl, rfl⟩⟩
  | assign target value =>
      obtain ⟨c, rest, start, starts⟩ := target.exists_start
      have text : (assign target value).render.toList =
          c :: (rest ++ " := ".toList ++ value.render.toList) ++ [';'] := by
        simp [render, String.toList_append, starts]
      rw [text]
      exact ⟨⟨c, _, isBlank_of_isNameStart start, rfl⟩, ⟨_, ';', rfl, rfl⟩⟩

theorem Command.solid_render (command : Command) :
    Solid command.render.toList := by
  have more (others : List Primitive) {text : List Char} (h : Solid text) :
      Solid (text ++ others.flatMap fun primitive =>
        ' ' :: primitive.render.toList) := by
    induction others generalizing text with
    | nil => simpa using h
    | cons first others ih =>
        have longer := ih (h.append [' '] first.solid_render)
        simpa using longer
  rw [toList_render]
  exact more command.rest command.first.solid_render

theorem Decl.solid_render (decl : Decl) : Solid decl.render.toList := by
  cases decl with
  | assertion a =>
      have text : (assertion a).render.toList =
          '\x7b' :: (' ' :: a.formula.render.toList ++ [' ']) ++
            ['\x7d'] := by
        simp [render, Assertion.render, String.toList_append]
      rw [text]
      exact ⟨⟨'\x7b', _, rfl, rfl⟩, ⟨_, '\x7d', rfl, rfl⟩⟩
  | program p => exact p.command.solid_render

/-! ## The round trip -/

theorem Source.printable_of_parse {source : String} {decl : Decl}
    (h : parse source = .ok decl) :
    decl.Printable ∧ decl.desugar = decl := by
  obtain ⟨sentence, read, written, -, denotes, rfl⟩ := exists_of_parseChars h
  exact ⟨(Sentence.printable_of_decl? written.proper denotes).desugar,
    read.desugar_desugar⟩

/--
What is printed of a parsed source is parsed to the same syntax, unless its
parentheses nest too deeply.
-/
theorem Source.parse_render {source : String} {decl : Decl}
    (h : parse source = .ok decl) :
    (decl.depth ≤ maxNesting ∧ ∃ again, parse decl.render = .ok again ∧
      again.sameSyntax decl = true) ∨
    (maxNesting < decl.depth ∧ ∃ span,
      parse decl.render = .error (.grammar ⟨.tooDeep, span⟩) ∧
      (SourceError.grammar ⟨.tooDeep, span⟩).message =
        "parse error: expression nested too deeply") := by
  obtain ⟨printable, expanded⟩ := printable_of_parse h
  obtain ⟨sentence, written, cost, denotes⟩ := Decl.exists_writtenIn printable
  rw [← decl.solid_render.trimChars] at written
  obtain ⟨read, denoted, same⟩ := denotes _
  obtain ⟨parsed, failed⟩ := parseChars_outcome written denoted
  rw [cost] at parsed failed
  by_cases fits : decl.depth ≤ maxNesting
  · left
    have sameExpanded := Decl.sameSyntax_desugar same
    rw [expanded] at sameExpanded
    exact ⟨fits, read.desugar, parsed fits, sameExpanded⟩
  · right
    obtain ⟨span, tooDeep⟩ := failed fits
    exact ⟨Nat.lt_of_not_le fits, span, tooDeep, rfl⟩

theorem Source.parse_render_sample :
    ∃ decl,
      parse "\x7b even(x + 1), y <= -(x * 2) => !p(x, -3) \x7d" = .ok decl ∧
      decl.render =
        "\x7b ((((x + 1) % 2) = 0) && ((y <= -(x * 2)) => !p(x, -3))) \x7d" ∧
      ∃ again, parse decl.render = .ok again ∧
        again.sameSyntax decl = true := by
  have printed :
      (parse "\x7b even(x + 1), y <= -(x * 2) => !p(x, -3) \x7d").toOption.map
        (fun decl => (decl.render, decl.depth)) =
      some ("\x7b ((((x + 1) % 2) = 0) && " ++
        "((y <= -(x * 2)) => !p(x, -3))) \x7d", 8) := by
    decide +kernel
  cases found :
      parse "\x7b even(x + 1), y <= -(x * 2) => !p(x, -3) \x7d" with
  | error error =>
      rw [found] at printed
      cases printed
  | ok decl =>
      rw [found] at printed
      obtain ⟨text, depth⟩ := Prod.mk.inj (Option.some.inj printed)
      refine ⟨decl, rfl, text, ?_⟩
      rcases parse_render found with ⟨-, again⟩ | ⟨tooDeep, -⟩
      · exact again
      · rw [depth] at tooDeep
        exact absurd tooDeep (by decide)

end ProofOutline
