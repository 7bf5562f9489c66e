import ProofOutline.Proofs.Source
import ProofOutline.Proofs.Submission

/-!
# What a completed submission leaves open

A submission checks each command that stands alone between two assertions.
Where two assertions follow each other, or several commands stand between two
assertions, there is no triple and nothing is checked.  So a completed
submission makes a proof valid from its first assertion to its last up to such
gaps, and a single gap can make all of it invalid.
-/

namespace ProofOutline

/-! ## Running programs in order -/

def Program.execAll (programs : List Program) (valuation : Valuation) :
    Valuation :=
  programs.foldl (fun valuation program => program.command.exec valuation)
    valuation

def Leads (pre : Assertion) (programs : List Program) (post : Assertion) :
    Prop :=
  ∀ (interpretation : Interpretation) (valuation : Valuation),
    pre.formula.holds interpretation valuation = true →
      post.formula.holds interpretation
        (Program.execAll programs valuation) = true

theorem Leads.refl (assertion : Assertion) : Leads assertion [] assertion :=
  fun _ _ holds => holds

theorem Leads.append {pre mid post : Assertion} {first second : List Program}
    (left : Leads pre first mid) (right : Leads mid second post) :
    Leads pre (first ++ second) post := by
  intro interpretation valuation holds
  have reached := right interpretation _ (left interpretation _ holds)
  simpa [Program.execAll, List.foldl_append] using reached

/-! ## Pieces of a proof -/

/-- Two assertions with nothing but commands between them. -/
structure Piece where
  pre : NodeId
  commands : List NodeId
  post : NodeId
  deriving DecidableEq, Repr

namespace Piece

def nodes (piece : Piece) : List NodeId :=
  piece.pre :: piece.commands ++ [piece.post]

/-- A triple is made of a single command only. -/
def isGap (piece : Piece) : Bool := piece.commands.length != 1

def Valid (piece : Piece) (sheet : Worksheet) : Prop :=
  ∃ pre post, sheet.written? piece.pre = some pre ∧
    sheet.written? piece.post = some post ∧
    Leads pre (piece.commands.filterMap sheet.program?) post

structure Shaped (piece : Piece) (sheet : Worksheet) : Prop where
  pre : sheet.bearsAssertion piece.pre = true
  commands : ∀ id ∈ piece.commands, sheet.isCommand id = true
  post : sheet.bearsAssertion piece.post = true

end Piece

namespace Worksheet

/-- Cut the steps after an assertion and some commands at each assertion. -/
def piecesFrom (sheet : Worksheet) (pre : NodeId) (commands : List NodeId) :
    List NodeId → List Piece
  | [] => []
  | id :: rest =>
      if sheet.bearsAssertion id then
        ⟨pre, commands, id⟩ :: sheet.piecesFrom id [] rest
      else sheet.piecesFrom pre (commands ++ [id]) rest

private theorem nodes_infix_of_mem_piecesFrom {sheet : Worksheet} {pre : NodeId}
    {commands rest : List NodeId} {piece : Piece}
    (mem : piece ∈ sheet.piecesFrom pre commands rest) :
    piece.nodes <:+: pre :: commands ++ rest := by
  induction rest generalizing pre commands with
  | nil => exact absurd mem List.not_mem_nil
  | cons id rest ih =>
      unfold piecesFrom at mem
      split at mem
      case isTrue bears =>
        rcases List.mem_cons.mp mem with rfl | mem
        · exact List.IsPrefix.isInfix ⟨rest, by simp [Piece.nodes]⟩
        · exact (ih mem).trans
            (List.IsSuffix.isInfix ⟨pre :: commands, by simp⟩)
      case isFalse =>
        have inside := ih mem
        simpa using inside

private theorem isCommand_of_isCore {sheet : Worksheet} {id : NodeId}
    (core : sheet.isCore id = true) (bare : ¬ sheet.bearsAssertion id = true) :
    sheet.isCommand id = true := by
  unfold isCore at core
  unfold bearsAssertion at bare
  unfold isCommand
  cases found : sheet.get? id with
  | none => simp [found] at core
  | some node =>
      cases node <;>
        simp_all [Node.isCore, Node.bearsAssertion, Node.isCommand]

private theorem program?_of_bearsAssertion {sheet : Worksheet} {id : NodeId}
    (bears : sheet.bearsAssertion id = true) : sheet.program? id = none := by
  unfold bearsAssertion at bears
  unfold program?
  cases found : sheet.get? id with
  | none => rfl
  | some node => cases node <;> simp_all [Node.bearsAssertion]

private theorem shaped_of_mem_piecesFrom {sheet : Worksheet} {pre : NodeId}
    {commands rest : List NodeId} {piece : Piece}
    (bears : sheet.bearsAssertion pre = true)
    (areCommands : ∀ id ∈ commands, sheet.isCommand id = true)
    (core : ∀ id ∈ rest, sheet.isCore id = true)
    (mem : piece ∈ sheet.piecesFrom pre commands rest) :
    piece.Shaped sheet := by
  induction rest generalizing pre commands with
  | nil => exact absurd mem List.not_mem_nil
  | cons id rest ih =>
      obtain ⟨coreFirst, coreRest⟩ := List.forall_mem_cons.mp core
      unfold piecesFrom at mem
      split at mem
      case isTrue here =>
        rcases List.mem_cons.mp mem with rfl | mem
        · exact ⟨bears, areCommands, here⟩
        · exact ih here (by simp) coreRest mem
      case isFalse bare =>
        refine ih bears (fun other among => ?_) coreRest mem
        rcases List.mem_append.mp among with old | new
        · exact areCommands other old
        · cases List.mem_singleton.mp new
          exact isCommand_of_isCore coreFirst bare

private theorem leads_of_piecesFrom {sheet : Worksheet} {pre final : NodeId}
    {commands rest : List NodeId}
    (areCommands : ∀ id ∈ commands, sheet.isCommand id = true)
    (core : ∀ id ∈ rest, sheet.isCore id = true)
    (last : (pre :: commands ++ rest).getLast? = some final)
    (bears : sheet.bearsAssertion final = true)
    (valid : ∀ piece ∈ sheet.piecesFrom pre commands rest,
      piece.Valid sheet)
    {first : Assertion} (written : sheet.written? pre = some first) :
    ∃ post, sheet.written? final = some post ∧
      Leads first ((commands ++ rest).filterMap sheet.program?) post := by
  -- Commands are collected until the next assertion closes a piece.
  induction rest generalizing pre commands first with
  | nil =>
      have alone : commands = [] := by
        refine List.eq_nil_iff_forall_not_mem.mpr fun id mem => ?_
        have among : final ∈ commands := by
          have nonempty := List.ne_nil_of_mem mem
          rw [List.append_nil, List.getLast?_cons_of_ne_nil nonempty] at last
          exact List.mem_of_getLast? last
        have bare := bearsAssertion_of_isCommand (areCommands final among)
        simp [bare] at bears
      subst alone
      have same : pre = final := by simpa using last
      exact ⟨first, same ▸ written, .refl first⟩
  | cons id rest ih =>
      obtain ⟨coreFirst, coreRest⟩ := List.forall_mem_cons.mp core
      unfold piecesFrom at valid
      by_cases here : sheet.bearsAssertion id = true
      · rw [if_pos here, List.forall_mem_cons] at valid
        obtain ⟨⟨start, mid, startWritten, midWritten, left⟩, others⟩ := valid
        cases written.symm.trans startWritten
        have lastRest : (id :: [] ++ rest).getLast? = some final := by
          simpa [List.getLast?_cons] using last
        obtain ⟨post, postWritten, right⟩ :=
          ih (by simp) coreRest lastRest others midWritten
        refine ⟨post, postWritten, ?_⟩
        have joined := left.append right
        simpa [List.filterMap_cons, program?_of_bearsAssertion here]
          using joined
      · rw [if_neg here] at valid
        have isCommand := isCommand_of_isCore coreFirst here
        have collected : ∀ other ∈ commands ++ [id],
            sheet.isCommand other = true := by
          simpa [or_imp, forall_and, isCommand] using areCommands
        have whole := ih collected coreRest (by simpa using last) valid written
        simpa using whole

def Alternates (sheet : Worksheet) (steps : List NodeId) : Prop :=
  (∀ id ∈ steps.head?, sheet.bearsAssertion id = true) ∧
    steps.IsChain fun id next =>
      sheet.bearsAssertion id ≠ sheet.bearsAssertion next

private theorem not_isGap_of_alternating {sheet : Worksheet} {pre : NodeId}
    {commands rest : List NodeId} {piece : Piece}
    (bears : sheet.bearsAssertion pre = true)
    (bare : ∀ id ∈ commands, sheet.bearsAssertion id = false)
    (few : commands.length ≤ 1)
    (alternates : (pre :: commands ++ rest).IsChain fun id next =>
      sheet.bearsAssertion id ≠ sheet.bearsAssertion next)
    (mem : piece ∈ sheet.piecesFrom pre commands rest) :
    piece.isGap = false := by
  induction rest generalizing pre commands with
  | nil => exact absurd mem List.not_mem_nil
  | cons id rest ih =>
      unfold piecesFrom at mem
      rcases commands with _ | ⟨command, _ | ⟨other, commands⟩⟩
      case cons.cons => simp at few
      case nil =>
        obtain ⟨differ, -⟩ := List.isChain_cons_cons.mp alternates
        have isBare : sheet.bearsAssertion id = false := by
          simpa [bears] using differ
        rw [isBare] at mem
        exact ih bears (by simpa using isBare) (by simp) alternates mem
      case cons.nil =>
        obtain ⟨-, others⟩ := List.isChain_cons_cons.mp alternates
        obtain ⟨differ, later⟩ := List.isChain_cons_cons.mp others
        have isBare := bare command List.mem_cons_self
        have closes : sheet.bearsAssertion id = true := by
          simpa [isBare] using differ
        rw [closes] at mem
        rcases List.mem_cons.mp mem with rfl | mem
        · rfl
        · exact ih closes (List.forall_mem_nil _) (Nat.zero_le _) later mem

private theorem exists_piece_of_bearsAssertion {sheet : Worksheet}
    {pre final : NodeId} {commands rest : List NodeId} (mem : final ∈ rest)
    (bears : sheet.bearsAssertion final = true) :
    ∃ piece ∈ sheet.piecesFrom pre commands rest, piece.pre = pre := by
  induction rest generalizing commands with
  | nil => exact absurd mem List.not_mem_nil
  | cons id rest ih =>
      unfold piecesFrom
      by_cases here : sheet.bearsAssertion id = true
      · rw [if_pos here]
        exact ⟨_, List.mem_cons_self, rfl⟩
      · rw [if_neg here]
        rcases List.mem_cons.mp mem with rfl | mem
        · exact absurd bears here
        · exact ih mem

end Worksheet

namespace Session

/-! ## From the first assertion to the last -/

def core (session : Session) : List NodeId :=
  session.order.filter session.sheet.isCore

def programs (session : Session) : List Program :=
  session.order.filterMap session.sheet.program?

def pieces (session : Session) : List Piece :=
  match session.core with
  | [] => []
  | first :: rest => session.sheet.piecesFrom first [] rest

/-- The pieces of the proof that no triple covers. -/
def gaps (session : Session) : List Piece :=
  session.pieces.filter Piece.isGap

theorem gaps_of_alternates {session : Session}
    (alternates : session.sheet.Alternates session.core) :
    session.gaps = [] := by
  obtain ⟨opens, chain⟩ := alternates
  refine List.filter_eq_nil_iff.mpr fun piece mem => ?_
  unfold pieces at mem
  cases steps : session.core with
  | nil =>
      rw [steps] at mem
      exact absurd mem List.not_mem_nil
  | cons first rest =>
      rw [steps] at mem opens chain
      have whole := Worksheet.not_isGap_of_alternating (opens first rfl)
        (by simp) (by simp) chain mem
      simp [whole]

def LeadsFrom (session : Session) (first final : NodeId) : Prop :=
  ∀ pre, session.sheet.written? first = some pre →
    ∃ post, session.sheet.written? final = some post ∧
      Leads pre session.programs post

private theorem programs_eq (session : Session) :
    session.programs = session.core.filterMap session.sheet.program? := by
  rw [core, List.filterMap_filter]
  have same : session.sheet.program? = fun id =>
      if session.sheet.isCore id then session.sheet.program? id else none := by
    funext id
    unfold Worksheet.isCore Worksheet.program?
    cases session.sheet.get? id with
    | none => rfl
    | some node => cases node <;> rfl
  exact congrArg (session.order.filterMap ·) same

private theorem mem_triples_of_piece {session : Session} {first : NodeId}
    {rest : List NodeId} (steps : session.core = first :: rest)
    (bears : session.sheet.bearsAssertion first = true)
    {pre command post : NodeId}
    (mem : ⟨pre, [command], post⟩ ∈ session.pieces) :
    ⟨pre, command, post⟩ ∈ session.triples := by
  simp only [pieces, steps] at mem
  have inside := Worksheet.nodes_infix_of_mem_piecesFrom mem
  have shaped := Worksheet.shaped_of_mem_piecesFrom bears (by simp)
    (fun id among => by
      have inCore : id ∈ session.core := by simp [steps, among]
      exact (List.mem_filter.mp inCore).2) mem
  refine List.mem_filter.mpr ⟨Worksheet.mem_windows_of_infix ?_, ?_⟩
  · simpa [Piece.nodes, core, ← steps] using inside
  · have isCommand := shaped.commands command List.mem_cons_self
    simp [Worksheet.isTriple, shaped.pre, isCommand, shaped.post]

private theorem valid_of_mem_pieces {session : Session} {first : NodeId}
    {rest : List NodeId} (steps : session.core = first :: rest)
    (bears : session.sheet.bearsAssertion first = true)
    (triples : ∀ triple ∈ session.triples, ∃ value,
      session.sheet.triple? triple = some value ∧ value.Valid)
    (gaps : ∀ gap ∈ session.gaps, gap.Valid session.sheet)
    {piece : Piece} (mem : piece ∈ session.pieces) :
    piece.Valid session.sheet := by
  by_cases gap : piece.isGap = true
  · exact gaps piece (List.mem_filter.mpr ⟨mem, gap⟩)
  · obtain ⟨pre, commands, post⟩ := piece
    have single : commands.length = 1 := by simpa [Piece.isGap] using gap
    obtain ⟨command, rfl⟩ := List.length_eq_one_iff.mp single
    have among := mem_triples_of_piece steps bears mem
    obtain ⟨value, found, holds⟩ := triples _ among
    simp only [Worksheet.triple?] at found
    split at found
    case h_2 => cases found
    case h_1 preFound programFound postFound =>
      cases found
      refine ⟨_, _, Worksheet.written?_of_assertion? preFound,
        Worksheet.written?_of_assertion? postFound, ?_⟩
      simp only [List.filterMap_cons, programFound, List.filterMap_nil]
      exact holds

/--
With a solver trusted on unsatisfiability alone, a completed submission after
any run makes the whole proof valid from its first assertion to its last, up
to the gaps between its triples.
-/
theorem completed_whole {σ : Type} (solver : Solver σ)
    (sound : solver.Sound) (config : CheckerConfig) (steps : List Step)
    (start : σ) (actions : List Action) (session after : Session)
    (state last : σ) (checked : List TripleRef)
    (reached : Session.run (config.checker solver) steps start actions =
      (session, state))
    (completed : session.submit (config.checker solver) state =
      (.ok ⟨checked, .completed⟩, after, last))
    (first final : NodeId) (opens : after.core.head? = some first)
    (closes : after.core.getLast? = some final)
    (firstBears : after.sheet.bearsAssertion first = true)
    (finalBears : after.sheet.bearsAssertion final = true)
    (gaps : ∀ gap ∈ after.gaps, gap.Valid after.sheet) :
    after.LeadsFrom first final ∧
      (first = final ∨ ∃ pre, after.sheet.written? first = some pre) := by
  have clearing : session.sheet.OnlyClearing := by
    have := onlyClearing_run (config.checker solver) steps start actions
    rwa [reached] at this
  have triples := Session.valid_of_submit (config.sound_checker sound)
    clearing completed
  obtain ⟨rest, cut⟩ := List.head?_eq_some_iff.mp opens
  have valid : ∀ piece ∈ after.sheet.piecesFrom first [] rest,
      piece.Valid after.sheet := by
    intro piece mem
    refine valid_of_mem_pieces cut firstBears triples gaps ?_
    simpa [pieces, cut] using mem
  have core : ∀ id ∈ rest, after.sheet.isCore id = true := by
    intro id mem
    have among : id ∈ after.core := by simp [cut, mem]
    exact (List.mem_filter.mp among).2
  rw [cut] at closes
  constructor
  · intro pre written
    have leads := Worksheet.leads_of_piecesFrom (by simp) core
      (by simpa using closes) finalBears valid written
    simpa [programs_eq, cut, List.filterMap_cons,
      Worksheet.program?_of_bearsAssertion firstBears] using leads
  · cases rest with
    | nil => exact .inl (by simpa using closes)
    | cons id rest =>
        have mem : final ∈ id :: rest := List.mem_of_getLast?
          (by simpa [List.getLast?_cons] using closes)
        obtain ⟨piece, among, starts⟩ :=
          Worksheet.exists_piece_of_bearsAssertion mem finalBears
        obtain ⟨pre, -, written, -⟩ := valid piece among
        exact .inr ⟨pre, starts ▸ written⟩

/-! ## A proof with gaps -/

namespace Gapped

def name : Name := ⟨"z", by decide⟩

def shifted : Formula :=
  .compare .eq (.binary .plus (.var name) (.lit 1)) (.lit 1)

def one : Assertion := ⟨"\x7b z = 1 \x7d", .compare .eq (.var name) (.lit 1)⟩

def attempted : Assertion := ⟨"\x7b z + 1 = 1 \x7d", shifted⟩

def steps (first : Assertion) : List Step :=
  [.assertion first,
    .remark "by consequence",
    .hole Step.defaultPrompt,
    .command
      ⟨"z := z + 1;", .assign name (.binary .plus (.var name) (.lit 1))⟩,
    .assertion one,
    .command ⟨"skip;", .skip⟩,
    .command ⟨"skip;", .skip⟩,
    .assertion one]

def checker : Checker Unit := ({} : CheckerConfig).checker .syntactic

def filled (first : Assertion) : Session × Unit :=
  run checker (steps first) () [.setAttempt 2 attempted.source, .prevalidate 2]

def submitted (first : Assertion) :
    Except VerifyError Submission × Session × Unit :=
  (filled first).1.submit checker (filled first).2

def stronger : Assertion :=
  ⟨"\x7b z + 1 = 1 && true \x7d", .connect .and shifted (.truth true)⟩

def unrelated : Assertion := ⟨"\x7b true \x7d", .truth true⟩

private theorem valid_gaps :
    ∀ gap ∈ (submitted stronger).2.1.gaps,
      gap.Valid (submitted stronger).2.1.sheet := by
  have gaps : (submitted stronger).2.1.gaps =
      [⟨0, [], 2⟩, ⟨4, [5, 6], 7⟩] := by
    decide +kernel
  rw [gaps]
  intro gap mem
  rcases List.mem_cons.mp mem with rfl | mem
  · refine ⟨stronger, attempted, by decide +kernel, by decide +kernel, ?_⟩
    intro interpretation valuation holds
    simpa [stronger, attempted, Formula.holds, Connective.combine,
      Program.execAll] using holds
  · cases List.mem_singleton.mp mem
    have programs : [5, 6].filterMap (submitted stronger).2.1.sheet.program? =
        [⟨"skip;", .skip⟩, ⟨"skip;", .skip⟩] := by
      decide +kernel
    refine ⟨one, one, by decide +kernel, by decide +kernel, ?_⟩
    intro interpretation valuation holds
    rw [programs]
    exact holds

/-- Both gaps are filled, and the whole proof is valid. -/
theorem completed_whole_gapped :
    (submitted stronger).1 = .ok ⟨[⟨2, 3, 4⟩], .completed⟩ ∧
      (∀ gap ∈ (submitted stronger).2.1.gaps,
        gap.Valid (submitted stronger).2.1.sheet) ∧
      (submitted stronger).2.1.LeadsFrom 0 7 ∧
      ((0 : NodeId) = 7 ∨
        ∃ pre, (submitted stronger).2.1.sheet.written? 0 = some pre) := by
  have completed :
      (submitted stronger).1 = .ok ⟨[⟨2, 3, 4⟩], .completed⟩ :=
    eq_ok_of_toOption (by decide +kernel)
  refine ⟨completed, valid_gaps, ?_⟩
  exact completed_whole .syntactic Solver.sound_syntactic {} (steps stronger)
    () _ (filled stronger).1 (submitted stronger).2.1 (filled stronger).2
    (submitted stronger).2.2 _ rfl (Prod.ext completed rfl) 0 7
    (by decide +kernel) (by decide +kernel) (by decide +kernel)
    (by decide +kernel) valid_gaps

/-- Completed although nothing leads from the first assertion to the hole. -/
theorem completed_not_whole :
    Solver.syntactic.Sound ∧
      (submitted unrelated).1 = .ok ⟨[⟨2, 3, 4⟩], .completed⟩ ∧
      (submitted unrelated).2.1.core.head? = some 0 ∧
      (submitted unrelated).2.1.core.getLast? = some 7 ∧
      (submitted unrelated).2.1.sheet.bearsAssertion 0 = true ∧
      (submitted unrelated).2.1.sheet.bearsAssertion 7 = true ∧
      ¬ (submitted unrelated).2.1.LeadsFrom 0 7 := by
  refine ⟨Solver.sound_syntactic, eq_ok_of_toOption (by decide +kernel),
    by decide +kernel, by decide +kernel, by decide +kernel,
    by decide +kernel, ?_⟩
  intro whole
  obtain ⟨post, written, leads⟩ := whole unrelated (by decide +kernel)
  have last : (submitted unrelated).2.1.sheet.written? 7 = some one := by
    decide +kernel
  cases written.symm.trans last
  have holds := leads (fun _ _ => true) (fun _ => 5) rfl
  exact absurd holds (by decide +kernel)

end Gapped

end Session

end ProofOutline
