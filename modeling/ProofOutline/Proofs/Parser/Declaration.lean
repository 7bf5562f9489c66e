import ProofOutline.Proofs.Parser.Unambiguous

/-!
# Whole declarations

What holds of the parsers of expressions holds of those of assertions and
commands: they accept what the grammar derives, when there is room for it, and
nothing else.
-/

namespace ProofOutline

open ProofOutline.Parser

/-! ## What is accepted -/

theorem sound_expression {room : Nat} {tokens rest : List Token} {tree : Tree}
    (h : (Deeper.ofRoom room).expression tokens = .ok (tree, rest)) :
    ∃ phrase, Derives .implication phrase ∧ phrase.yield ++ rest = tokens ∧
      phrase.tree = tree ∧ phrase.cost + 1 ≤ room :=
  (deeperSound_ofRoom room).expression h

private theorem sound_moreFormulas {room : Nat} {tokens rest : List Token}
    {trees : List Tree} (h : moreFormulas room tokens = .ok (trees, rest)) :
    ∃ further : List FurtherFormula,
      (∀ formula ∈ further, formula.Derived) ∧
      further.flatMap FurtherFormula.yield ++ rest = tokens ∧
      further.map (·.formula.tree) = trees ∧
      FurtherFormula.costs further ≤ room := by
  induction room generalizing tokens trees with
  | zero =>
      rw [moreFormulas_zero] at h
      split at h
      case isTrue =>
        obtain ⟨comma, -, h⟩ := bind_eq_ok_iff.mp h
        cases h
      case isFalse =>
        cases h
        exact ⟨[], by simp, rfl, rfl, Nat.le_refl 0⟩
  | succ room ih =>
      rw [moreFormulas_succ] at h
      split at h
      case isTrue another =>
        obtain ⟨comma, after, rfl, isComma⟩ := exists_of_startsWith another
        rw [advance_cons, ok_bind] at h
        obtain ⟨⟨first, middle⟩, read, h⟩ := bind_eq_ok_iff.mp h
        obtain ⟨⟨others, last⟩, more, h⟩ := bind_eq_ok_iff.mp h
        cases h
        obtain ⟨phrase, derived, rfl, rfl, below⟩ := sound_expression read
        obtain ⟨further, allDerived, rfl, rfl, fits⟩ := ih more
        refine ⟨⟨comma, phrase⟩ :: further, ?_, ?_, rfl, ?_⟩
        · rw [List.forall_mem_cons]
          exact ⟨⟨of_decide_eq_true isComma, derived⟩, allDerived⟩
        · simp [FurtherFormula.yield]
        · exact Nat.succ_le_succ (Nat.max_le.mpr ⟨below, fits⟩)
      case isFalse =>
        cases h
        exact ⟨[], by simp, rfl, rfl, Nat.zero_le _⟩

private theorem sound_assertion {tokens rest : List Token} {tree : Tree}
    (h : assertion tokens = .ok (tree, rest)) :
    ∃ sentence : Sentence, sentence.Derived ∧
      sentence.yield ++ rest = tokens ∧ sentence.body = tree ∧
      sentence.cost ≤ maxNesting := by
  rw [assertion_apply] at h
  obtain ⟨⟨opening, inside⟩, opened, after⟩ := bind_eq_ok_iff.mp h
  obtain ⟨rfl, isOpening⟩ := expect_eq_ok_iff.mp opened
  simp only at after
  split at after
  case isTrue =>
    obtain ⟨closing, -, failed⟩ := bind_eq_ok_iff.mp after
    cases failed
  case isFalse =>
    obtain ⟨⟨first, middle⟩, read, after⟩ := bind_eq_ok_iff.mp after
    obtain ⟨⟨others, last⟩, more, after⟩ := bind_eq_ok_iff.mp after
    obtain ⟨⟨closing, behind⟩, closed, after⟩ := bind_eq_ok_iff.mp after
    cases after
    obtain ⟨phrase, derived, rfl, rfl, below⟩ := sound_expression read
    obtain ⟨further, allDerived, rfl, rfl, fits⟩ := sound_moreFormulas more
    obtain ⟨rfl, isClosing⟩ := expect_eq_ok_iff.mp closed
    refine ⟨.assertion opening phrase further closing,
      .assertion isOpening derived allDerived isClosing, ?_, rfl,
      Nat.max_le.mpr ⟨below, fits⟩⟩
    simp [Sentence.yield]

theorem sound_statement {tokens rest : List Token} {tree : Tree}
    (h : statement tokens = .ok (tree, rest)) :
    ∃ found : Statement, found.Derived ∧ found.yield ++ rest = tokens ∧
      found.tree = tree ∧ found.cost ≤ maxNesting := by
  cases tokens with
  | nil => cases h
  | cons token after =>
      rw [statement_apply] at h
      split at h
      case h_1 isSkip =>
        obtain ⟨⟨semi, last⟩, ended, h⟩ := bind_eq_ok_iff.mp h
        cases h
        obtain ⟨rfl, isSemi⟩ := expect_eq_ok_iff.mp ended
        exact ⟨.skip token semi, .skip isSkip isSemi, rfl, rfl,
          Nat.zero_le _⟩
      case h_2 text isName =>
        obtain ⟨⟨op, behind⟩, assigned, h⟩ := bind_eq_ok_iff.mp h
        obtain ⟨⟨value, middle⟩, read, h⟩ := bind_eq_ok_iff.mp h
        obtain ⟨⟨semi, last⟩, ended, final⟩ := bind_eq_ok_iff.mp h
        obtain ⟨rfl, isAssign⟩ := expect_eq_ok_iff.mp assigned
        obtain ⟨phrase, derived, rfl, rfl, below⟩ := sound_expression read
        obtain ⟨rfl, isSemi⟩ := expect_eq_ok_iff.mp ended
        rw [leaf_eq token (by rw [isName]; rfl),
          leaf_eq op (by rw [isAssign]; rfl)] at final
        cases final
        refine ⟨.assign token op phrase semi,
          .assign isName isAssign derived isSemi, ?_, rfl, below⟩
        simp [Statement.yield]
      case h_3 => cases h

private theorem sound_statements {rounds : Nat} {tokens rest : List Token}
    {trees : List Tree} (h : statements rounds tokens = .ok (trees, rest)) :
    ∃ found : List Statement, (∀ statement ∈ found, statement.Derived) ∧
      found.flatMap Statement.yield ++ rest = tokens ∧
      found.map Statement.tree = trees ∧
      (∀ statement ∈ found, statement.cost ≤ maxNesting) := by
  induction rounds generalizing tokens trees with
  | zero => cases h
  | succ rounds ih =>
      rw [statements_apply] at h
      split at h
      case isTrue =>
        cases h
        exact ⟨[], by simp, rfl, rfl, by simp⟩
      case isFalse =>
        obtain ⟨⟨first, middle⟩, read, h⟩ := bind_eq_ok_iff.mp h
        obtain ⟨⟨others, last⟩, more, h⟩ := bind_eq_ok_iff.mp h
        cases h
        obtain ⟨statement, derived, rfl, rfl, fits⟩ := sound_statement read
        obtain ⟨found, allDerived, rfl, rfl, allFit⟩ := ih more
        refine ⟨statement :: found, ?_, by simp, rfl, ?_⟩
        · rw [List.forall_mem_cons]
          exact ⟨derived, allDerived⟩
        · rw [List.forall_mem_cons]
          exact ⟨fits, allFit⟩

theorem foldr_max_le_iff {α : Type} (measure : α → Nat) (items : List α)
    (bound : Nat) :
    (items.map measure).foldr max 0 ≤ bound ↔
      ∀ item ∈ items, measure item ≤ bound := by
  induction items with
  | nil => simp
  | cons first rest ih =>
      rw [List.map_cons, List.foldr_cons, Nat.max_le, ih, List.forall_mem_cons]

private theorem sound_command {tokens rest : List Token} {tree : Tree}
    (h : command tokens = .ok (tree, rest)) :
    ∃ sentence : Sentence, sentence.Derived ∧
      sentence.yield ++ rest = tokens ∧ sentence.body = tree ∧
      sentence.cost ≤ maxNesting := by
  rw [command_apply] at h
  obtain ⟨⟨trees, last⟩, read, h⟩ := bind_eq_ok_iff.mp h
  obtain ⟨found, allDerived, rfl, rfl, allFit⟩ := sound_statements read
  cases found with
  | nil => cases h
  | cons first others =>
      cases h
      rw [List.forall_mem_cons] at allDerived
      refine ⟨.command first others,
        .command allDerived.1 allDerived.2, rfl, ?_,
        (foldr_max_le_iff Statement.cost _ _).mpr allFit⟩
      simp [Sentence.body, Function.comp_def]

theorem sound_declaration {tokens rest : List Token} {tree : Tree}
    (h : declaration tokens = .ok (tree, rest)) :
    ∃ sentence : Sentence, sentence.Derived ∧
      sentence.yield ++ rest = tokens ∧ sentence.tree = tree ∧
      sentence.cost ≤ maxNesting ∧ startsWith (· = .eof) rest = true := by
  rw [declaration_apply] at h
  obtain ⟨⟨body, last⟩, read, h⟩ := bind_eq_ok_iff.mp h
  have parsed : ∃ sentence : Sentence, sentence.Derived ∧
      sentence.yield ++ last = tokens ∧ sentence.body = body ∧
      sentence.cost ≤ maxNesting := by
    split at read
    · exact sound_assertion read
    · exact sound_command read
  simp only at h
  split at h
  case isTrue ended =>
    cases h
    obtain ⟨sentence, derived, yield, rfl, fits⟩ := parsed
    exact ⟨sentence, derived, yield, rfl, fits, ended⟩
  case isFalse =>
    obtain ⟨token, -, h⟩ := bind_eq_ok_iff.mp h
    cases h

/-! ## What is derived -/

theorem stops_further {further : List FurtherFormula}
    (derived : ∀ formula ∈ further, formula.Derived) {closing : Token}
    (isClosing : closing.kind = .rbrace) (rest : List Token) :
    Stops .implication
      (further.flatMap FurtherFormula.yield ++ closing :: rest) := by
  cases further with
  | nil => exact stops_cons _ (by rw [isClosing]; decide)
  | cons first _ =>
      have isComma := (derived first (by simp)).comma
      exact stops_cons _ (by rw [isComma]; decide)

private theorem ifRoom_moreFormulas {further : List FurtherFormula}
    (derived : ∀ formula ∈ further, formula.Derived) (room : Nat)
    {closing : Token} (isClosing : closing.kind = .rbrace)
    (rest : List Token) :
    IfRoom (FurtherFormula.costs further ≤ room)
      (moreFormulas room
        (further.flatMap FurtherFormula.yield ++ closing :: rest))
      (.ok (further.map (·.formula.tree), closing :: rest)) := by
  induction further generalizing room with
  | nil =>
      have noComma : startsWith (· = .comma) (closing :: rest) = false := by
        rw [startsWith_cons, isClosing]
        rfl
      refine (IfRoom.of_eq ?_).congr (by simp [FurtherFormula.costs])
      cases room with
      | zero =>
          rw [List.flatMap_nil, List.nil_append, moreFormulas_zero, noComma]
          rfl
      | succ room =>
          rw [List.flatMap_nil, List.nil_append, moreFormulas_succ, noComma]
          rfl
  | cons first others ih =>
      obtain ⟨firstDerived, othersDerived⟩ := List.forall_mem_cons.mp derived
      have stops := stops_further othersDerived isClosing rest
      rw [List.flatMap_cons, FurtherFormula.yield, List.append_assoc,
        List.cons_append]
      cases room with
      | zero =>
          refine ⟨fun fits => absurd fits (Nat.not_succ_le_zero _),
            fun _ => ?_⟩
          simp only [moreFormulas_zero, startsWith_cons, firstDerived.comma,
            decide_true, if_true, advance_cons, ok_bind]
          exact ⟨_, rfl⟩
      | succ room =>
          simp only [moreFormulas_succ, startsWith_cons, firstDerived.comma,
            decide_true, if_true, advance_cons, ok_bind]
          have parsed := firstDerived.formula.closed.expression room stops
          refine (parsed.bind ?_).congr
            (Nat.succ_le_succ_iff.trans Nat.max_le)
          exact (ih othersDerived room).map rfl

private theorem ifRoom_assertion {opening closing : Token} {first : Phrase}
    {further : List FurtherFormula} (isOpening : opening.kind = .lbrace)
    (derived : Derives .implication first)
    (allDerived : ∀ formula ∈ further, formula.Derived)
    (isClosing : closing.kind = .rbrace) (rest : List Token) :
    IfRoom ((Sentence.assertion opening first further closing).cost ≤
        maxNesting)
      (assertion
        ((Sentence.assertion opening first further closing).yield ++ rest))
      (.ok ((Sentence.assertion opening first further closing).body,
        rest)) := by
  have stops := stops_further allDerived isClosing rest
  have nonempty : startsWith (· = .rbrace) (first.yield ++
      (further.flatMap FurtherFormula.yield ++ closing :: rest)) = false := by
    refine derived.startsWith_eq_false (fun kind isClosing => ?_) _
    cases of_decide_eq_true isClosing
    decide
  have yield : (Sentence.assertion opening first further closing).yield ++
      rest = opening :: (first.yield ++
        (further.flatMap FurtherFormula.yield ++ closing :: rest)) := by
    simp [Sentence.yield]
  rw [yield, assertion_apply, expect_cons _ isOpening, ok_bind]
  simp only [nonempty]
  refine ((derived.closed.expression maxNesting stops).bind ?_).congr
    Nat.max_le
  refine (ifRoom_moreFormulas allDerived maxNesting isClosing rest).map ?_
  rw [expect_cons _ isClosing]
  rfl

private theorem ifRoom_statement {found : Statement} (derived : found.Derived)
    (rest : List Token) :
    IfRoom (found.cost ≤ maxNesting) (statement (found.yield ++ rest))
      (.ok (found.tree, rest)) := by
  cases derived with
  | @skip token semi isSkip isSemi =>
      refine (IfRoom.of_eq ?_).congr (by simp [Statement.cost])
      simp only [Statement.yield, List.cons_append, List.nil_append,
        statement_apply, isSkip]
      rw [expect_cons _ isSemi]
      rfl
  | @assign name op semi text value isName isAssign derived isSemi =>
      have stops : Stops .implication (semi :: rest) :=
        stops_cons _ (by rw [isSemi]; decide)
      simp only [Statement.yield, List.cons_append, List.append_assoc,
        List.nil_append, statement_apply, isName]
      rw [expect_cons _ isAssign, ok_bind]
      refine (derived.closed.expression maxNesting stops).map ?_
      rw [expect_cons _ isSemi, ok_bind, leaf_eq name (by rw [isName]; rfl),
        leaf_eq op (by rw [isAssign]; rfl)]
      rfl

theorem Statement.Derived.exists_first {found : Statement}
    (derived : found.Derived) :
    ∃ token after, found.yield = token :: after ∧ token.kind ≠ .lbrace ∧
      token.kind ≠ .eof := by
  cases derived with
  | skip isSkip _ => exact ⟨_, _, rfl, by simp [isSkip], by simp [isSkip]⟩
  | assign isName _ _ _ =>
      exact ⟨_, _, rfl, by simp [isName], by simp [isName]⟩

private theorem ifRoom_statements {found : List Statement}
    (derived : ∀ statement ∈ found, statement.Derived) {rounds : Nat}
    (enough : found.length < rounds) {rest : List Token}
    (ended : startsWith (· = .eof) rest = true) :
    IfRoom (∀ statement ∈ found, statement.cost ≤ maxNesting)
      (statements rounds (found.flatMap Statement.yield ++ rest))
      (.ok (found.map Statement.tree, rest)) := by
  induction found generalizing rounds with
  | nil =>
      cases rounds with
      | zero => cases enough
      | succ rounds =>
          refine (IfRoom.of_eq ?_).congr (by simp)
          rw [List.flatMap_nil, List.nil_append, statements_apply, ended]
          rfl
  | cons first others ih =>
      obtain ⟨firstDerived, othersDerived⟩ := List.forall_mem_cons.mp derived
      cases rounds with
      | zero => cases enough
      | succ rounds =>
          have goesOn : startsWith (· = .eof) (first.yield ++
              (others.flatMap Statement.yield ++ rest)) = false := by
            obtain ⟨token, after, yield, -, notEof⟩ :=
              firstDerived.exists_first
            rw [yield, List.cons_append, startsWith_cons]
            exact decide_eq_false notEof
          rw [List.flatMap_cons, List.append_assoc, statements_apply, goesOn]
          refine ((ifRoom_statement firstDerived _).bind ?_).congr
            List.forall_mem_cons
          exact (ih othersDerived (Nat.lt_of_succ_lt_succ enough)).map rfl

theorem Statement.length_le_length_yield {found : List Statement}
    (derived : ∀ statement ∈ found, statement.Derived) :
    found.length ≤ (found.flatMap Statement.yield).length := by
  induction found with
  | nil => simp
  | cons first others ih =>
      obtain ⟨firstDerived, othersDerived⟩ := List.forall_mem_cons.mp derived
      obtain ⟨token, after, yield, -⟩ := firstDerived.exists_first
      have := ih othersDerived
      rw [List.flatMap_cons, List.length_append, yield, List.length_cons,
        List.length_cons]
      omega

private theorem ifRoom_command {first : Statement} {others : List Statement}
    (firstDerived : first.Derived)
    (othersDerived : ∀ statement ∈ others, statement.Derived)
    {rest : List Token} (ended : startsWith (· = .eof) rest = true) :
    IfRoom ((Sentence.command first others).cost ≤ maxNesting)
      (command ((Sentence.command first others).yield ++ rest))
      (.ok ((Sentence.command first others).body, rest)) := by
  have derived := List.forall_mem_cons.mpr ⟨firstDerived, othersDerived⟩
  have enough : (first :: others).length <
      ((first :: others).flatMap Statement.yield ++ rest).length + 1 := by
    have := Statement.length_le_length_yield derived
    rw [List.length_append]
    omega
  rw [command_apply, Sentence.yield]
  refine ((ifRoom_statements derived enough ended).map ?_).congr
    (foldr_max_le_iff Statement.cost _ _)
  simp [Sentence.body, Function.comp_def]

theorem ifRoom_declaration {sentence : Sentence} (derived : sentence.Derived)
    {rest : List Token} (ended : startsWith (· = .eof) rest = true) :
    IfRoom (sentence.cost ≤ maxNesting)
      (declaration (sentence.yield ++ rest)) (.ok (sentence.tree, rest)) := by
  rw [declaration_apply]
  cases derived with
  | @assertion opening closing first further isOpening derived allDerived
      isClosing =>
      have isAssertion : startsWith (· = .lbrace)
          ((Sentence.assertion opening first further closing).yield ++ rest) =
            true := decide_eq_true isOpening
      rw [isAssertion]
      refine (ifRoom_assertion isOpening derived allDerived isClosing
        rest).map ?_
      rw [ended]
      rfl
  | @command first others derived allDerived =>
      have isCommand : startsWith (· = .lbrace)
          ((Sentence.command first others).yield ++ rest) = false := by
        obtain ⟨token, after, yield, notBrace, -⟩ := derived.exists_first
        rw [Sentence.yield, List.flatMap_cons, yield]
        exact decide_eq_false notBrace
      rw [isCommand]
      refine (ifRoom_command derived allDerived ended).map ?_
      rw [ended]
      rfl

/-! ## One derivation for a list of tokens -/

theorem Statement.Derived.unique {found other : Statement}
    (derived : found.Derived) (otherDerived : other.Derived)
    {rest otherRest : List Token}
    (yield : found.yield ++ rest = other.yield ++ otherRest) :
    found = other ∧ rest = otherRest := by
  cases derived with
  | @skip token semi isSkip isSemi =>
      cases otherDerived with
      | skip _ _ =>
          cases yield
          exact ⟨rfl, rfl⟩
      | assign isName _ _ _ =>
          injection yield with same _
          rw [← same, isSkip] at isName
          cases isName
  | @assign name op semi text value isName isAssign derived isSemi =>
      cases otherDerived with
      | skip isSkip _ =>
          injection yield with same _
          rw [← same, isName] at isSkip
          cases isSkip
      | @assign name' op' semi' text' value' isName' isAssign' derived'
          isSemi' =>
          simp only [Statement.yield, List.cons_append, List.append_assoc,
            List.nil_append] at yield
          injection yield with eqName yield
          injection yield with eqOp yield
          obtain ⟨rfl, after⟩ := derived.unique derived'
            (stops_cons rest (by rw [isSemi]; decide))
            (stops_cons otherRest (by rw [isSemi']; decide)) yield
          injection after with eqSemi after
          exact ⟨by rw [eqName, eqOp, eqSemi], after⟩

private theorem Statement.Derived.unique_list {found other : List Statement}
    (derived : ∀ statement ∈ found, statement.Derived)
    (otherDerived : ∀ statement ∈ other, statement.Derived)
    (yield : found.flatMap Statement.yield = other.flatMap Statement.yield) :
    found = other := by
  induction found generalizing other with
  | nil =>
      have := Statement.length_le_length_yield otherDerived
      rw [← yield] at this
      exact (List.eq_nil_of_length_eq_zero (Nat.le_zero.mp this)).symm
  | cons first rest ih =>
      cases other with
      | nil =>
          have := Statement.length_le_length_yield derived
          rw [yield] at this
          exact absurd this (Nat.not_succ_le_zero _)
      | cons first' rest' =>
          obtain ⟨firstDerived, restDerived⟩ := List.forall_mem_cons.mp derived
          obtain ⟨firstDerived', restDerived'⟩ :=
            List.forall_mem_cons.mp otherDerived
          rw [List.flatMap_cons, List.flatMap_cons] at yield
          obtain ⟨rfl, after⟩ := firstDerived.unique firstDerived' yield
          rw [ih restDerived restDerived' after]

private theorem FurtherFormula.Derived.unique_list
    {found other : List FurtherFormula}
    (derived : ∀ formula ∈ found, formula.Derived)
    (otherDerived : ∀ formula ∈ other, formula.Derived)
    {closing otherClosing : Token} (isClosing : closing.kind = .rbrace)
    (otherIsClosing : otherClosing.kind = .rbrace)
    {rest otherRest : List Token}
    (yield : found.flatMap FurtherFormula.yield ++ closing :: rest =
      other.flatMap FurtherFormula.yield ++ otherClosing :: otherRest) :
    found = other ∧ closing = otherClosing := by
  induction found generalizing other with
  | nil =>
      cases other with
      | nil =>
          injection yield with same _
          exact ⟨rfl, same⟩
      | cons first' rest' =>
          have isComma := (otherDerived first' (by simp)).comma
          injection yield with same _
          rw [← same, isClosing] at isComma
          cases isComma
  | cons first rest ih =>
      obtain ⟨firstDerived, restDerived⟩ := List.forall_mem_cons.mp derived
      cases other with
      | nil =>
          injection yield with same _
          rw [← same, firstDerived.comma] at otherIsClosing
          cases otherIsClosing
      | cons first' rest' =>
          obtain ⟨firstDerived', restDerived'⟩ :=
            List.forall_mem_cons.mp otherDerived
          simp only [List.flatMap_cons, FurtherFormula.yield,
            List.cons_append, List.append_assoc] at yield
          injection yield with eqComma yield
          obtain ⟨eqFormula, after⟩ :=
            firstDerived.formula.unique firstDerived'.formula
              (stops_further restDerived isClosing _)
              (stops_further restDerived' otherIsClosing _) yield
          obtain ⟨rfl, eqClosing⟩ := ih restDerived restDerived' after
          obtain ⟨comma, formula⟩ := first
          cases eqComma
          cases eqFormula
          exact ⟨rfl, eqClosing⟩

theorem Sentence.Derived.unique {sentence other : Sentence}
    (derived : sentence.Derived) (otherDerived : other.Derived)
    (yield : sentence.yield = other.yield) : sentence = other := by
  cases derived with
  | @assertion opening closing first further isOpening derived allDerived
      isClosing =>
      cases otherDerived with
      | @assertion opening' closing' first' further' isOpening' derived'
          allDerived' isClosing' =>
          simp only [Sentence.yield, List.cons_append, List.append_assoc]
            at yield
          injection yield with eqOpening yield
          obtain ⟨rfl, after⟩ := derived.unique derived'
            (stops_further allDerived isClosing [])
            (stops_further allDerived' isClosing' []) yield
          obtain ⟨rfl, rfl⟩ := FurtherFormula.Derived.unique_list allDerived
            allDerived' isClosing isClosing' after
          rw [eqOpening]
      | command derived' _ =>
          obtain ⟨token, after, first, notBrace, -⟩ := derived'.exists_first
          rw [Sentence.yield, Sentence.yield, List.flatMap_cons, first]
            at yield
          injection yield with same _
          exact absurd (same ▸ isOpening) notBrace
  | @command first others derived allDerived =>
      cases otherDerived with
      | assertion isOpening' _ _ _ =>
          obtain ⟨token, after, first, notBrace, -⟩ := derived.exists_first
          rw [Sentence.yield, Sentence.yield, List.flatMap_cons, first]
            at yield
          injection yield with same _
          exact absurd (same.symm ▸ isOpening') notBrace
      | command derived' allDerived' =>
          have same := Statement.Derived.unique_list
            (List.forall_mem_cons.mpr ⟨derived, allDerived⟩)
            (List.forall_mem_cons.mpr ⟨derived', allDerived'⟩) yield
          injection same with eqFirst eqOthers
          rw [eqFirst, eqOthers]

end ProofOutline
