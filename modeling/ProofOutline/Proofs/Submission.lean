import ProofOutline.Proofs.Precondition
import ProofOutline.Proofs.Run

/-!
# Completed submissions are sound

A solver is trusted for one thing only: what it calls unsatisfiable has no
model.  Then praise from the checker means that a triple is valid, a completed
submission means that all triples between neighbouring steps are, and triples
that share their middle assertion join to one over a whole stretch of the
proof.
-/

namespace ProofOutline

/-! ## Commands one after another -/

def Command.inOrder (first : Command) (rest : List Command) : Command :=
  ⟨first.first, first.rest ++ rest.flatMap primitives⟩

@[simp] theorem Command.inOrder_nil (command : Command) :
    command.inOrder [] = command := by
  simp [inOrder]

private theorem Command.exec_inOrder_cons (first next : Command)
    (rest : List Command) (valuation : Valuation) :
    (first.inOrder (next :: rest)).exec valuation =
      (next.inOrder rest).exec (first.exec valuation) := by
  simp [exec, inOrder, primitives, List.foldl_append]

def Program.inOrder (first : Program) (rest : List Program) : Program where
  source := " ".intercalate ((first :: rest).map Program.source)
  command := first.command.inOrder (rest.map Program.command)

private theorem Triple.Valid.inOrder_cons {pre mid post : Assertion}
    {first next : Program} {rest : List Program}
    (left : Triple.Valid ⟨pre, first, mid⟩)
    (right : Triple.Valid ⟨mid, next.inOrder rest, post⟩) :
    Triple.Valid ⟨pre, first.inOrder (next :: rest), post⟩ := by
  intro interpretation valuation holds
  have reached := right interpretation _ (left interpretation _ holds)
  simp only [Program.inOrder, List.map_cons, Command.exec_inOrder_cons]
  exact reached

private theorem Triple.Valid.inOrder_nil {pre post : Assertion}
    {program : Program} (valid : Triple.Valid ⟨pre, program, post⟩) :
    Triple.Valid ⟨pre, program.inOrder [], post⟩ := by
  intro interpretation valuation holds
  simp only [Program.inOrder, List.map_nil, Command.inOrder_nil]
  exact valid interpretation valuation holds

/-! ## Solvers and checkers -/

/-- What the solver calls unsatisfiable is false everywhere. -/
def Solver.Sound {σ : Type} (solver : Solver σ) : Prop :=
  ∀ (formula : Formula) (state after : σ),
    solver formula state = (.ok .unsat, after) →
      ∀ (interpretation : Interpretation) (valuation : Valuation),
        formula.holds interpretation valuation = false

/-- Triples that the checker praises are valid. -/
def Checker.Sound {σ : Type} (checker : Checker σ) : Prop :=
  ∀ (triple : Triple) (state after : σ) (feedback : Feedback),
    checker triple state = (.ok feedback, after) →
      feedback.isCorrect = true → triple.Valid

private theorem Verdict.eq_valid_of_isCorrect {triple : Triple}
    {verdict : Verdict}
    (h : (verdict.feedback triple).isCorrect = true) : verdict = .valid := by
  cases verdict with
  | valid => rfl
  | refuted model => cases h
  | undecided reason => cases h

private theorem Verdict.eq_unsat_of_ofAnswer {answer : Answer}
    (h : Verdict.ofAnswer answer = .valid) : answer = .unsat := by
  cases answer with
  | unsat => rfl
  | sat model => cases h
  | unknown reason => cases h

private theorem Triple.valid_of_unsat {σ : Type} {solver : Solver σ}
    (sound : solver.Sound) {triple : Triple} {state after : σ}
    (h : solver (.neg triple.query) state = (.ok .unsat, after)) :
    triple.Valid := by
  rw [← Triple.valid_query_iff]
  intro interpretation valuation
  have refuted := sound _ _ _ h interpretation valuation
  simpa [Formula.holds] using refuted

private theorem Checker.sound_ofSolver {σ : Type} {solver : Solver σ}
    (sound : solver.Sound) : (Checker.ofSolver solver).Sound := by
  intro triple state after feedback h correct
  unfold ofSolver Triple.decide at h
  rcases asked : solver (.neg triple.query) state with ⟨result, next⟩
  cases result with
  | error error => simp [asked, Except.map] at h
  | ok answer =>
      have given : (Verdict.ofAnswer answer).feedback triple = feedback := by
        simp [asked, Except.map] at h
        exact h.1
      have unsat := Verdict.eq_unsat_of_ofAnswer
        (Verdict.eq_valid_of_isCorrect (given ▸ correct))
      exact Triple.valid_of_unsat sound (unsat ▸ asked)

private theorem Checker.sound_rejectingFalse {σ : Type} {inner : Checker σ}
    (sound : inner.Sound) : inner.rejectingFalse.Sound := by
  intro triple state after feedback h correct
  unfold rejectingFalse at h
  split at h
  · cases h
    cases correct
  · exact sound triple state after feedback h correct

theorem CheckerConfig.sound_checker {σ : Type} {solver : Solver σ}
    (config : CheckerConfig) (sound : solver.Sound) :
    (config.checker solver).Sound := by
  unfold checker wrap
  split
  · exact Checker.sound_rejectingFalse (Checker.sound_ofSolver sound)
  · exact Checker.sound_ofSolver sound

/-! ## Submissions -/

namespace Worksheet

private theorem valid_of_submitFrom {σ : Type} {checker : Checker σ}
    (sound : checker.Sound) {triples checked total : List TripleRef}
    {sheet after : Worksheet} {state last : σ} (h : sheet.OnlyClearing)
    (completed : sheet.submitFrom checker triples checked state =
      (.ok ⟨total, .completed⟩, after, last)) :
    ∀ triple ∈ triples, ∃ value, sheet.triple? triple = some value ∧
      value.Valid := by
  induction triples generalizing checked sheet state with
  | nil => exact fun _ mem => nomatch mem
  | cons triple rest ih =>
      unfold submitFrom at completed
      split at completed
      · cases completed
      case h_2 value found =>
        split at completed
        · cases completed
        case h_2 feedback next asked =>
          simp only at completed
          split at completed
          case isTrue correct =>
            have routed := keeps_route triple feedback h
            intro other mem
            rcases List.mem_cons.mp mem with rfl | mem
            · exact ⟨value, found, sound value state next _ asked correct⟩
            · rw [← triple?_of_contents routed.contents]
              exact ih routed.onlyClearing completed other mem
          case isFalse => cases completed

end Worksheet

theorem Session.valid_of_submit {σ : Type} {checker : Checker σ}
    (sound : checker.Sound) {session after : Session} {state last : σ}
    {checked : List TripleRef} (h : session.sheet.OnlyClearing)
    (completed : session.submit checker state =
      (.ok ⟨checked, .completed⟩, after, last)) :
    ∀ triple ∈ after.triples, ∃ value,
      after.sheet.triple? triple = some value ∧ value.Valid := by
  have kept := keeps_submit checker state h
  have order : after.order = session.order :=
    (congrArg (fun result => result.2.1.order) completed).symm
  rw [completed] at kept
  have triples : after.triples = session.triples := by
    simp only [Session.triples, order,
      Worksheet.segment_of_contents kept.contents]
  have passed : session.sheet.submitFrom checker session.triples.reverse []
      state = (.ok ⟨checked, .completed⟩, after.sheet, last) := by
    unfold submit at completed
    rcases walk : session.sheet.submitFrom checker session.triples.reverse []
      state with ⟨result, sheet, next⟩
    rw [walk] at completed
    cases completed
    rfl
  intro triple mem
  rw [Worksheet.triple?_of_contents kept.contents]
  exact Worksheet.valid_of_submitFrom sound h passed triple
    (List.mem_reverse.mpr (triples ▸ mem))

/-! ## Stretches of a proof -/

namespace Worksheet

private theorem mem_windows_cons {triple : TripleRef} {id : NodeId}
    {order : List NodeId} (h : triple ∈ windows order) :
    triple ∈ windows (id :: order) := by
  match order, h with
  | command :: post :: rest, h =>
      exact List.mem_cons_of_mem _ h

theorem mem_windows_of_infix {pre command post : NodeId}
    {order : List NodeId} (h : [pre, command, post] <:+: order) :
    ⟨pre, command, post⟩ ∈ windows order := by
  obtain ⟨before, after, rfl⟩ := h
  induction before with
  | nil => exact List.mem_cons_self
  | cons id before ih => exact mem_windows_cons ih

theorem bearsAssertion_of_isCommand {sheet : Worksheet} {id : NodeId}
    (isCommand : sheet.isCommand id = true) :
    sheet.bearsAssertion id = false := by
  unfold Worksheet.isCommand at isCommand
  unfold bearsAssertion
  cases found : sheet.get? id with
  | none => simp
  | some node =>
      cases node <;>
        simp_all [Node.bearsAssertion, Node.isCommand]

def written? (sheet : Worksheet) (id : NodeId) : Option Assertion :=
  match sheet.get? id with
  | some (.given assertion _) => some assertion
  | some (.hole hole) => (Source.parseAssertion hole.attempt).toOption
  | _ => none

theorem written?_of_assertion? {sheet : Worksheet} {id : NodeId}
    {assertion : Assertion} (h : sheet.assertion? id = some assertion) :
    sheet.written? id = some assertion := by
  rw [assertion?_eq] at h
  unfold written?
  cases found : sheet.get? id with
  | none => simp [found] at h
  | some node =>
      simp only [found, Option.bind_some] at h
      cases node with
      | given _ _ => exact h
      | hole hole =>
          simp only [Node.assertion?] at h
          split at h
          · exact h
          · cases h
      | command _ _ => cases h
      | remark _ => cases h

end Worksheet

/--
Neighbouring steps in which assertions and commands alternate: a first
assertion, then commands, each with the assertion after it.
-/
structure Stretch where
  first : NodeId
  links : List (NodeId × NodeId)
  deriving DecidableEq, Repr

namespace Stretch

def nodes (stretch : Stretch) : List NodeId :=
  stretch.first :: stretch.links.flatMap fun link => [link.1, link.2]

def last (stretch : Stretch) : NodeId :=
  (stretch.links.getLast?.map Prod.snd).getD stretch.first

/-- At least one command, and all steps stand next to each other. -/
structure Within (stretch : Stretch) (session : Session) : Prop where
  nonempty : stretch.links ≠ []
  neighbours :
    stretch.nodes <:+: session.order.filter session.sheet.isCore
  first : session.sheet.bearsAssertion stretch.first = true
  commands : ∀ link ∈ stretch.links,
    session.sheet.isCommand link.1 = true
  assertions : ∀ link ∈ stretch.links,
    session.sheet.bearsAssertion link.2 = true

def Valid (stretch : Stretch) (sheet : Worksheet) : Prop :=
  ∃ (pre : Assertion) (first : Program) (rest : List Program)
    (post : Assertion),
    sheet.written? stretch.first = some pre ∧
    stretch.links.map (fun link => sheet.program? link.1) =
      (first :: rest).map some ∧
    sheet.written? stretch.last = some post ∧
    Triple.Valid ⟨pre, first.inOrder rest, post⟩

private theorem mem_triples {first command next : NodeId}
    {rest : List (NodeId × NodeId)} {session : Session}
    (h : Within ⟨first, (command, next) :: rest⟩ session) :
    ⟨first, command, next⟩ ∈ session.triples := by
  refine List.mem_filter.mpr ⟨Worksheet.mem_windows_of_infix ?_, ?_⟩
  · have start : [first, command, next] <:+:
        nodes ⟨first, (command, next) :: rest⟩ :=
      List.IsPrefix.isInfix ⟨_, rfl⟩
    exact start.trans h.neighbours
  · have isCommand := h.commands _ List.mem_cons_self
    have bears := h.assertions _ List.mem_cons_self
    simp [Worksheet.isTriple, h.first, isCommand, bears]

theorem Within.tail {first command next : NodeId}
    {link : NodeId × NodeId} {rest : List (NodeId × NodeId)}
    {session : Session}
    (h : Within ⟨first, (command, next) :: link :: rest⟩ session) :
    Within ⟨next, link :: rest⟩ session where
  nonempty := List.cons_ne_nil _ _
  neighbours := by
    have tail : nodes ⟨next, link :: rest⟩ <:+:
        nodes ⟨first, (command, next) :: link :: rest⟩ :=
      List.IsSuffix.isInfix ⟨[first, command], rfl⟩
    exact tail.trans h.neighbours
  first := h.assertions _ List.mem_cons_self
  commands link mem := h.commands link (List.mem_cons_of_mem _ mem)
  assertions link mem := h.assertions link (List.mem_cons_of_mem _ mem)

private theorem valid_of_triples {session : Session}
    (valid : ∀ triple ∈ session.triples, ∃ value,
      session.sheet.triple? triple = some value ∧ value.Valid)
    {first : NodeId} {links : List (NodeId × NodeId)}
    (h : Within ⟨first, links⟩ session) :
    Valid ⟨first, links⟩ session.sheet := by
  induction links generalizing first with
  | nil => exact absurd rfl h.nonempty
  | cons link rest ih =>
      obtain ⟨command, next⟩ := link
      obtain ⟨⟨pre, program, post⟩, found, holds⟩ := valid _ (mem_triples h)
      simp only [Worksheet.triple?] at found
      split at found
      case h_2 => cases found
      case h_1 preFound programFound postFound =>
        cases found
        have preWritten := Worksheet.written?_of_assertion? preFound
        have postWritten := Worksheet.written?_of_assertion? postFound
        cases rest with
        | nil =>
            exact ⟨pre, program, [], post, preWritten,
              by simp [programFound], postWritten, holds.inOrder_nil⟩
        | cons link rest =>
            obtain ⟨mid, second, more, final, midWritten, programs,
              finalWritten, joined⟩ := ih h.tail
            have same : post = mid :=
              Option.some.inj (postWritten.symm.trans midWritten)
            subst same
            refine ⟨pre, program, second :: more, final, preWritten, ?_,
              finalWritten, holds.inOrder_cons joined⟩
            simp only [List.map_cons, programFound] at programs ⊢
            rw [programs]

end Stretch

/--
With a solver trusted on unsatisfiability alone, a completed submission after
any run makes every stretch of the proof valid.
-/
theorem Session.completed_sound {σ : Type} (solver : Solver σ)
    (sound : solver.Sound) (config : CheckerConfig) (steps : List Step)
    (start : σ) (actions : List Action) (session after : Session)
    (state last : σ) (checked : List TripleRef)
    (reached : Session.run (config.checker solver) steps start actions =
      (session, state))
    (completed : session.submit (config.checker solver) state =
      (.ok ⟨checked, .completed⟩, after, last))
    (stretch : Stretch) (within : stretch.Within after) :
    stretch.Valid after.sheet := by
  have clearing : session.sheet.OnlyClearing := by
    have := onlyClearing_run (config.checker solver) steps start actions
    rwa [reached] at this
  have valid := Session.valid_of_submit (config.sound_checker sound) clearing
    completed
  exact Stretch.valid_of_triples valid within

/-- Refutes the negation of an implication between equal formulas only. -/
def Solver.syntactic : Solver Unit := fun formula _ =>
  match formula with
  | .neg (.connect .implies left right) =>
      if left = right then (.ok .unsat, ())
      else (.ok (.unknown "the sides differ"), ())
  | _ => (.ok (.unknown "no negated implication"), ())

theorem Solver.sound_syntactic : Solver.syntactic.Sound := by
  intro formula state after h interpretation valuation
  unfold syntactic at h
  split at h
  case h_1 left right =>
    split at h
    case isTrue same =>
      subst same
      simp [Formula.holds, Connective.combine]
    case isFalse => cases h
  case h_2 => cases h

def Session.sampleSteps : List Step :=
  let x : Name := ⟨"x", by decide⟩
  let y : Name := ⟨"y", by decide⟩
  let shifted (name : Name) : Formula :=
    .compare .eq (.binary .plus (.var name) (.lit 1)) (.lit 1)
  [.assertion ⟨"\x7b y + 1 = 1 \x7d", shifted y⟩,
    .command ⟨"x := y;", .assign x (.var y)⟩,
    .hole Step.defaultPrompt,
    .remark "halfway",
    .command ⟨"x := x + 1;", .assign x (.binary .plus (.var x) (.lit 1))⟩,
    .assertion ⟨"\x7b x = 1 \x7d", .compare .eq (.var x) (.lit 1)⟩]

def Session.sampleRun : Session × Unit :=
  Session.run (({} : CheckerConfig).checker .syntactic) sampleSteps ()
    [.submit, .setAttempt 2 "\x7b x + 1 = 1 \x7d", .prevalidate 2]

def Session.sampleSubmit : Except VerifyError Submission × Session × Unit :=
  sampleRun.1.submit (({} : CheckerConfig).checker .syntactic) sampleRun.2

/-- The sample proof is completed and valid from its first step to its last. -/
theorem Session.completed_sound_sample :
    sampleSubmit.1 = .ok ⟨[⟨2, 4, 5⟩, ⟨0, 1, 2⟩], .completed⟩ ∧
      Stretch.Within ⟨0, [(1, 2), (4, 5)]⟩ sampleSubmit.2.1 ∧
      Stretch.Valid ⟨0, [(1, 2), (4, 5)]⟩ sampleSubmit.2.1.sheet := by
  have completed :
      sampleSubmit.1 = .ok ⟨[⟨2, 4, 5⟩, ⟨0, 1, 2⟩], .completed⟩ := by
    have kept : sampleSubmit.1.toOption =
        some ⟨[⟨2, 4, 5⟩, ⟨0, 1, 2⟩], .completed⟩ := by
      decide +kernel
    match sampleSubmit.1, kept with
    | .ok _, kept => exact congrArg Except.ok (Option.some.inj kept)
  have within : Stretch.Within ⟨0, [(1, 2), (4, 5)]⟩ sampleSubmit.2.1 :=
    ⟨by decide, by decide +kernel, by decide +kernel, by decide +kernel,
      by decide +kernel⟩
  refine ⟨completed, within, ?_⟩
  exact completed_sound .syntactic Solver.sound_syntactic {} sampleSteps ()
    _ sampleRun.1 sampleSubmit.2.1 sampleRun.2 sampleSubmit.2.2 _ rfl
    (Prod.ext completed rfl) _ within

end ProofOutline
