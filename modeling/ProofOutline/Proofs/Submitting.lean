import ProofOutline.Proofs.Calls

/-!
# What a submission asks and returns

The triples of a session come in the order of the steps, and a triple has a
value exactly when its holes are prevalidated.  So the walk behind a submission
can be told in terms of the session: who is asked about what, where it ends, and
which result that gives.
-/

namespace ProofOutline

/-! ## Complete triples -/

namespace Worksheet

/-- Its assertions are given or prevalidated. -/
def Ready (sheet : Worksheet) (triple : TripleRef) : Prop :=
  ∀ id ∈ [triple.pre, triple.post], ∀ hole, sheet.hole? id = some hole →
    hole.state = .prevalidated

structure Denotes (sheet : Worksheet) (triple : TripleRef) (value : Triple) :
    Prop where
  pre : sheet.written? triple.pre = some value.pre
  program : sheet.program? triple.command = some value.program
  post : sheet.written? triple.post = some value.post

private theorem denotes_of_triple? {sheet : Worksheet} {triple : TripleRef}
    {value : Triple} (found : sheet.triple? triple = some value) :
    sheet.Denotes triple value := by
  unfold triple? at found
  split at found
  case h_2 => cases found
  case h_1 preFound programFound postFound =>
    cases found
    exact ⟨written?_of_assertion? preFound, programFound,
      written?_of_assertion? postFound⟩

theorem ready_of_triple? {sheet : Worksheet} {triple : TripleRef}
    {value : Triple} (found : sheet.triple? triple = some value) :
    sheet.Ready triple := by
  intro id mem hole there
  have inside : id ∈ triple.nodes := by
    simp only [TripleRef.nodes, List.mem_cons, List.not_mem_nil, or_false]
      at mem ⊢
    rcases mem with rfl | rfl <;> simp
  obtain ⟨node, same, complete⟩ := complete_of_triple? found inside
  cases (hole?_eq_some_iff.mp there).symm.trans same
  exact (Node.prevalidated_of_complete complete).1

private theorem Steady.exists_assertion? {sheet : Worksheet} (h : sheet.Steady)
    {id : NodeId} (bears : sheet.bearsAssertion id = true)
    (ready : ∀ hole, sheet.hole? id = some hole → hole.state = .prevalidated) :
    ∃ assertion, sheet.assertion? id = some assertion := by
  rw [assertion?_eq]
  unfold bearsAssertion at bears
  cases found : sheet.get? id with
  | none => simp [found] at bears
  | some node =>
      cases node with
      | given assertion feedback => exact ⟨assertion, rfl⟩
      | hole hole =>
          have passed := ready hole (hole?_eq_some_iff.mpr found)
          obtain ⟨assertion, parsed⟩ := (h.truthful found).parses passed
          exact ⟨assertion, by
            simp [Node.assertion?, passed, parsed, Except.toOption]⟩
      | command program feedback => simp [found, Node.bearsAssertion] at bears
      | remark body => simp [found, Node.bearsAssertion] at bears

theorem Steady.triple?_eq_none_iff {sheet : Worksheet} (h : sheet.Steady)
    {triple : TripleRef} (isTriple : sheet.isTriple triple = true) :
    sheet.triple? triple = none ↔ ¬ sheet.Ready triple := by
  constructor
  · intro none ready
    simp only [Worksheet.isTriple, Bool.and_eq_true] at isTriple
    obtain ⟨⟨bearsPre, isCommand⟩, bearsPost⟩ := isTriple
    obtain ⟨pre, preFound⟩ :=
      h.exists_assertion? bearsPre (ready _ (by simp))
    obtain ⟨post, postFound⟩ :=
      h.exists_assertion? bearsPost (ready _ (by simp))
    obtain ⟨program, programFound⟩ :
        ∃ program, sheet.program? triple.command = some program := by
      rw [program?_eq]
      unfold Worksheet.isCommand at isCommand
      cases found : sheet.get? triple.command with
      | none => simp [found] at isCommand
      | some node =>
          cases node with
          | command program feedback => exact ⟨program, rfl⟩
          | given assertion feedback =>
              simp [found, Node.isCommand] at isCommand
          | hole hole => simp [found, Node.isCommand] at isCommand
          | remark body => simp [found, Node.isCommand] at isCommand
    simp [triple?, preFound, programFound, postFound] at none
  · intro unready
    cases found : sheet.triple? triple with
    | none => rfl
    | some value => exact absurd (ready_of_triple? found) unready

end Worksheet

/-! ## Triples in the order of the steps -/

namespace Worksheet

theorem command_mem_of_windows {first : NodeId} {order : List NodeId}
    {triple : TripleRef} (mem : triple ∈ windows (first :: order)) :
    triple.command ∈ order := by
  induction order generalizing first with
  | nil => exact absurd mem List.not_mem_nil
  | cons command order ih =>
      cases order with
      | nil => exact absurd mem List.not_mem_nil
      | cons post rest =>
          rcases List.mem_cons.mp mem with rfl | mem
          · exact List.mem_cons_self
          · exact List.mem_cons_of_mem _ (ih mem)

theorem nodes_sublist_of_windows {order : List NodeId} {triple : TripleRef}
    (mem : triple ∈ windows order) : triple.nodes.Sublist order := by
  induction order with
  | nil => exact absurd mem List.not_mem_nil
  | cons pre order ih =>
      match order, mem, ih with
      | command :: post :: rest, mem, ih =>
          rcases List.mem_cons.mp mem with rfl | mem
          · exact List.sublist_append_left [pre, command, post] rest
          · exact (ih mem).cons pre

private theorem pairwise_windows {order : List NodeId}
    (increasing : order.Pairwise (· < ·)) :
    (windows order).Pairwise fun first second =>
      first.command < second.command := by
  induction order with
  | nil => exact .nil
  | cons pre order ih =>
      obtain ⟨-, later⟩ := List.pairwise_cons.mp increasing
      match order, ih, later with
      | [], _, _ => exact .nil
      | [command], _, _ => exact .nil
      | command :: post :: rest, ih, later =>
          refine .cons (fun triple mem => ?_) (ih later)
          exact (List.pairwise_cons.mp later).1 _ (command_mem_of_windows mem)

end Worksheet

namespace Session

theorem Reachable.order_increasing {session : Session}
    (h : session.Reachable) : session.order.Pairwise (· < ·) := by
  refine h.invariant (fun session => session.order.Pairwise (· < ·))
    (fun steps => List.pairwise_lt_range) ?_
  intro σ checker session state action increasing
  cases action with
  | setAttempt id attempt => exact increasing
  | prevalidate id => exact increasing
  | submit => exact increasing

theorem Reachable.triples_increasing {session : Session}
    (h : session.Reachable) :
    session.triples.Pairwise fun first second =>
      first.command < second.command :=
  (Worksheet.pairwise_windows (h.order_increasing.filter _)).filter _

end Session

/-! ## Calls and results of a submission -/

/-- What the calls are, and what the result says about them. -/
structure Worksheet.Walked (sheet : Worksheet) (triples : List TripleRef)
    (calls : List Call) (result : Except VerifyError Submission) : Prop where
  /-- The calls go along the triples, one for each. -/
  asks : ∀ (place : Nat) (call : Call), calls[place]? = some call →
    ∃ triple, triples[place]? = some triple ∧ sheet.Ready triple ∧
      sheet.Denotes triple call.question
  checked : ∀ submission, result = .ok submission →
    submission.checked = triples.take calls.length ∧
      ∀ call ∈ calls, ∃ feedback, call.answer = .ok feedback
  completed : (∃ checked, result = .ok ⟨checked, .completed⟩) ↔
    (∀ triple ∈ triples, sheet.Ready triple) ∧
      calls.length = triples.length ∧ ∀ call ∈ calls, call.praises = true
  incomplete : ∀ triple,
    (∃ checked, result = .ok ⟨checked, .incomplete triple⟩) ↔
      StopsAt triples calls triple [] ∧ ¬ sheet.Ready triple
  incorrect : ∀ triple,
    (∃ checked, result = .ok ⟨checked, .incorrect triple⟩) ↔
      ∃ question feedback,
        StopsAt triples calls triple [⟨question, .ok feedback⟩] ∧
          feedback.isCorrect = false
  failed : ∀ error, result = .error error ↔ ∃ triple question,
    StopsAt triples calls triple [⟨question, .error error⟩]

theorem Walks.walked {σ : Type} {checker : Checker σ} {sheet : Worksheet}
    {triples : List TripleRef} {state last : σ} {calls : List Call}
    {ending : Except VerifyError StopReason}
    (h : Walks checker sheet.triple? triples state calls ending last)
    (steady : sheet.Steady)
    (areTriples : ∀ triple ∈ triples, sheet.isTriple triple = true) :
    sheet.Walked triples calls
      (report (triples.take calls.length) ending) where
  asks place call called := by
    obtain ⟨triple, there, found⟩ := h.asks called
    exact ⟨triple, there, Worksheet.ready_of_triple? found,
      Worksheet.denotes_of_triple? found⟩
  checked submission done := by
    obtain ⟨checked, stopped⟩ := report_eq_ok_iff.mp done
    exact ⟨checked, h.answered stopped⟩
  completed := by
    simp only [report_eq_ok_iff, exists_eq_left, h.completed_iff]
    refine (and_iff_right_of_imp ?_).symm
    rintro ⟨all, -⟩ triple mem
    obtain ⟨place, there⟩ := List.mem_iff_getElem?.mp mem
    have inside : place < calls.length := by
      rw [all]
      exact (List.getElem?_eq_some_iff.mp there).1
    obtain ⟨other, same, found⟩ :=
      h.asks (List.getElem?_eq_getElem inside)
    cases there.symm.trans same
    exact Worksheet.ready_of_triple? found
  incomplete triple := by
    simp only [report_eq_ok_iff, exists_eq_left, h.incomplete_iff]
    refine and_congr_right fun stops => ?_
    exact steady.triple?_eq_none_iff (areTriples triple stops.mem)
  incorrect triple := by
    simp only [report_eq_ok_iff, exists_eq_left, h.incorrect_iff]
  failed error := by
    rw [report_eq_error_iff, h.error_iff]

namespace Session

variable {σ : Type}

theorem walks_submit (checker : Checker σ) {session : Session}
    (h : session.sheet.OnlyClearing) (state : σ) :
    ∃ calls ending last,
      Walks checker session.sheet.triple? session.triples.reverse state calls
        ending last ∧
      session.submit checker state =
        (report (session.triples.reverse.take calls.length) ending,
          { session with
            sheet := session.sheet.routeAll
              (verdicts session.triples.reverse calls) },
          last) ∧
      session.submit checker.recording (state, []) =
        (report (session.triples.reverse.take calls.length) ending,
          { session with
            sheet := session.sheet.routeAll
              (verdicts session.triples.reverse calls) },
          last, calls) := by
  obtain ⟨calls, ending, last, walk, plain, recorded⟩ :=
    Worksheet.walks_submitFrom checker session.triples.reverse [] h rfl state
      []
  refine ⟨calls, ending, last, walk, ?_, ?_⟩
  · simp [submit, plain]
  · simp [submit, recorded]

theorem isTriple_of_mem_triples {session : Session} {triple : TripleRef}
    (mem : triple ∈ session.triples) :
    session.sheet.isTriple triple = true :=
  (List.mem_filter.mp mem).2

/--
A submission has the triples checked from the last step to the first and ends
where its calls do.  Notes of the calls change nothing else.
-/
theorem submit_walks {session : Session} (reachable : session.Reachable)
    (checker : Checker σ) (state : σ) :
    let plain := session.submit checker state
    let recorded := session.submit checker.recording (state, [])
    recorded.1 = plain.1 ∧ recorded.2.1 = plain.2.1 ∧
      recorded.2.2.1 = plain.2.2 ∧
      checker.Replays state recorded.2.2.2 plain.2.2 ∧
      (session.triples.Pairwise fun first second =>
        first.command < second.command) ∧
      session.sheet.Walked session.triples.reverse recorded.2.2.2 plain.1 := by
  have steady := reachable.steady
  obtain ⟨calls, ending, last, walk, plain, recorded⟩ :=
    walks_submit checker steady.settled.orderly.onlyClearing state
  have areTriples (triple : TripleRef)
      (mem : triple ∈ session.triples.reverse) :
      session.sheet.isTriple triple = true :=
    isTriple_of_mem_triples (List.mem_reverse.mp mem)
  simp only [plain, recorded, true_and]
  exact ⟨walk.replays, reachable.triples_increasing,
    walk.walked steady areTriples⟩

def filledRun : Session × Prepared Feedback Triple :=
  run .scripted sampleSteps ⟨[.correct "fine", .incorrect "no"], []⟩
    [.setAttempt 2 "\x7b x + 1 = 1 \x7d", .prevalidate 2]

theorem filledRun_submit :
    (filledRun.1.submit .scripted filledRun.2).1 =
      .ok ⟨[⟨2, 4, 5⟩, ⟨0, 1, 2⟩], .incorrect ⟨0, 1, 2⟩⟩ := by
  have kept : (filledRun.1.submit .scripted filledRun.2).1.toOption =
      some ⟨[⟨2, 4, 5⟩, ⟨0, 1, 2⟩], .incorrect ⟨0, 1, 2⟩⟩ := by
    decide +kernel
  cases answer : (filledRun.1.submit .scripted filledRun.2).1 with
  | ok submission =>
      rw [answer] at kept
      exact congrArg Except.ok (Option.some.inj kept)
  | error error =>
      rw [answer] at kept
      cases kept

/-- Praise for the second triple, then a complaint about the first. -/
theorem submit_walks_refused :
    filledRun.1.triples.reverse = [⟨2, 4, 5⟩, ⟨0, 1, 2⟩] ∧
      ∃ question feedback,
        StopsAt filledRun.1.triples.reverse
          (filledRun.1.submit Checker.scripted.recording
            (filledRun.2, [])).2.2.2
          ⟨0, 1, 2⟩ [⟨question, .ok feedback⟩] ∧
        feedback.isCorrect = false := by
  have reachable : filledRun.1.Reachable := ⟨_, _, _, _, _, rfl⟩
  obtain ⟨-, -, -, -, -, walked⟩ :=
    submit_walks reachable .scripted filledRun.2
  exact ⟨by decide +kernel,
    (walked.incorrect ⟨0, 1, 2⟩).mp ⟨_, filledRun_submit⟩⟩

end Session

end ProofOutline
