import ProofOutline.Proofs.Submitting

/-!
# Feedback after a submission

The verdicts of a submission go onto the worksheet one after another, and
triples that share an assertion write to the same node.  In the end a node shows
the last verdict on a triple that it belongs to.  As the walk goes backwards,
that is the triple which comes first in the proof.
-/

namespace ProofOutline

/-! ## Verdicts of a walk -/

theorem verdicts_sublist (triples : List TripleRef) (calls : List Call) :
    ((verdicts triples calls).map Prod.fst).Sublist triples := by
  induction triples generalizing calls with
  | nil => exact .slnil
  | cons triple triples ih =>
      cases calls with
      | nil => simp
      | cons call calls =>
          obtain ⟨question, answer⟩ := call
          cases answer with
          | ok feedback => exact (ih calls).cons_cons triple
          | error error => exact (ih calls).cons triple

theorem mem_of_mem_verdicts {triples : List TripleRef} {calls : List Call}
    {verdict : TripleRef × Feedback} (mem : verdict ∈ verdicts triples calls) :
    verdict.1 ∈ triples :=
  (verdicts_sublist triples calls).subset (List.mem_map_of_mem mem)

namespace Walks

variable {σ : Type} {checker : Checker σ}
  {value? : TripleRef → Option Triple} {triples : List TripleRef}
  {state last : σ} {calls : List Call}
  {ending : Except VerifyError StopReason}

private theorem checked_eq
    (h : Walks checker value? triples state calls ending last)
    {stop : StopReason} (stopped : ending = .ok stop) :
    triples.take calls.length = (verdicts triples calls).map Prod.fst := by
  induction h with
  | completed => rfl
  | incomplete missing => simp
  | failed found answered => cases stopped
  | incorrect found answered refused => simp
  | correct found answered praised more ih => simp [ih stopped]

private theorem praised_or_stopped
    (h : Walks checker value? triples state calls ending last) :
    ∀ verdict ∈ verdicts triples calls, verdict.2.isCorrect = true ∨
      ending = .ok (.incorrect verdict.1) := by
  induction h with
  | completed => simp
  | incomplete missing => simp
  | failed found answered => simp
  | incorrect found answered refused => simp
  | correct found answered praised more ih =>
      intro verdict mem
      rw [verdicts_ok] at mem
      rcases List.mem_cons.mp mem with rfl | mem
      · exact .inl praised
      · exact ih verdict mem

private theorem refused_last
    (h : Walks checker value? triples state calls ending last)
    {triple : TripleRef} (stopped : ending = .ok (.incorrect triple)) :
    ∃ before feedback,
      verdicts triples calls = before ++ [(triple, feedback)] ∧
        feedback.isCorrect = false := by
  induction h with
  | completed => cases stopped
  | incomplete missing => cases stopped
  | failed found answered => cases stopped
  | @incorrect triple _ _ _ _ feedback found answered refused =>
      cases stopped
      exact ⟨[], feedback, by simp, refused⟩
  | @correct first _ _ _ _ _ praise _ _ found answered praised more ih =>
      obtain ⟨before, feedback, same, refused⟩ := ih stopped
      exact ⟨(first, praise) :: before, feedback, by simp [same], refused⟩

end Walks

/-! ## Writing verdicts -/

namespace Worksheet

theorem Settled.routeAll {sheet : Worksheet} (h : sheet.Settled)
    (verdicts : List (TripleRef × Feedback)) :
    (sheet.routeAll verdicts).Settled := by
  induction verdicts generalizing sheet with
  | nil => exact h
  | cons verdict verdicts ih => exact ih (h.route verdict.1 verdict.2)

theorem keeps_routeAll {sheet : Worksheet} (h : sheet.OnlyClearing)
    (verdicts : List (TripleRef × Feedback)) :
    Keeps sheet (sheet.routeAll verdicts) :=
  Keeps.foldl h fun verdict _ _ clearing =>
    keeps_route verdict.1 verdict.2 clearing

theorem attempt?_of_contents {sheet other : Worksheet}
    (same : sheet.contents = other.contents) :
    sheet.attempt? = other.attempt? := by
  funext id
  rw [attempt?_eq, attempt?_eq]
  exact bind_get?_of_contents same _ (fun node => by cases node <;> rfl) id

theorem holeState?_of_contents {sheet other : Worksheet}
    (same : sheet.contents = other.contents) :
    sheet.holeState? = other.holeState? := by
  funext id
  exact bind_get?_of_contents same _ (fun node => by cases node <;> rfl) id

theorem isHole_of_contents {sheet other : Worksheet}
    (same : sheet.contents = other.contents) :
    sheet.isHole = other.isHole := by
  funext id
  rw [isHole_eq, isHole_eq, attempt?_of_contents same]

theorem shown_of_contents {sheet other : Worksheet}
    (same : sheet.contents = other.contents) :
    sheet.shown = other.shown := by
  funext triple feedback id
  rw [shown, shown, carrier, carrier, isHole_of_contents same]

theorem Settled.get?_routeAll {sheet : Worksheet} (h : sheet.Settled)
    {verdicts : List (TripleRef × Feedback)} {id : NodeId}
    (outside : ∀ verdict ∈ verdicts, id ∉ verdict.1.nodes) :
    (sheet.routeAll verdicts).get? id = sheet.get? id := by
  induction verdicts generalizing sheet with
  | nil => rfl
  | cons verdict verdicts ih =>
      have rest := ih (h.route verdict.1 verdict.2)
        fun other mem => outside other (List.mem_cons_of_mem _ mem)
      refine rest.trans ?_
      rw [h.get?_route]
      simp [outside verdict List.mem_cons_self]

theorem Settled.feedback?_routeAll {sheet : Worksheet} (h : sheet.Settled)
    {before after : List (TripleRef × Feedback)}
    {verdict : TripleRef × Feedback} {id : NodeId}
    (core : sheet.isCore id = true) (inside : id ∈ verdict.1.nodes)
    (outside : ∀ other ∈ after, id ∉ other.1.nodes) :
    (sheet.routeAll (before ++ verdict :: after)).feedback? id =
      some (sheet.shown verdict.1 verdict.2 id) := by
  have kept := keeps_routeAll h.orderly.onlyClearing before
  have middle := h.routeAll before
  have split : sheet.routeAll (before ++ verdict :: after) =
      ((sheet.routeAll before).route verdict.1 verdict.2).routeAll after := by
    simp [Worksheet.routeAll]
  rw [← isCore_of_contents kept.contents] at core
  rw [split, feedback?, (middle.route _ _).get?_routeAll outside,
    middle.get?_route, shown_of_contents kept.contents]
  unfold isCore at core
  cases found : (sheet.routeAll before).get? id with
  | none => simp [found] at core
  | some node =>
      rw [found] at core
      simp only [inside, if_true, Option.map_some, Option.bind_some]
      exact Node.feedback?_mark core _

end Worksheet

namespace Session

private theorem isCore_of_mem_triples {session : Session} {triple : TripleRef}
    (mem : triple ∈ session.triples) {id : NodeId}
    (inside : id ∈ triple.nodes) : session.sheet.isCore id = true := by
  have among := Worksheet.nodes_sublist_of_windows (List.mem_filter.mp mem).1
  exact (List.mem_filter.mp (among.subset inside)).2

theorem Reachable.nodes_nodup {session : Session} (h : session.Reachable)
    {triple : TripleRef} (mem : triple ∈ session.triples) :
    triple.nodes.Nodup := by
  have among := Worksheet.nodes_sublist_of_windows (List.mem_filter.mp mem).1
  exact ((h.order_increasing.filter _).sublist among).imp Nat.ne_of_lt

end Session

/-! ## What the nodes show after a submission -/

/-- What a submission with these verdicts and this result leaves behind. -/
structure Worksheet.Shows (sheet : Worksheet)
    (verdicts : List (TripleRef × Feedback))
    (result : Except VerifyError Submission) (after : Worksheet) : Prop where
  checked : ∀ submission, result = .ok submission →
    submission.checked = verdicts.map Prod.fst
  /-- The message is on one node; the others are incorrect without one. -/
  refused : ∀ checked triple, result = .ok ⟨checked, .incorrect triple⟩ →
    triple.nodes.Nodup ∧ ∃ feedback, (triple, feedback) ∈ verdicts ∧
      feedback.isCorrect = false ∧ ∀ id ∈ triple.nodes,
        after.feedback? id = some
          (if id = sheet.carrier triple then feedback else ⟨.incorrect, none⟩)
  /-- Any other node shows praise of the first of its checked triples. -/
  praised : ∀ id,
    (∀ checked triple, result = .ok ⟨checked, .incorrect triple⟩ →
      id ∉ triple.nodes) →
    (∃ verdict ∈ verdicts, id ∈ verdict.1.nodes) →
    ∃ first ∈ verdicts, id ∈ first.1.nodes ∧ first.2.isCorrect = true ∧
      after.feedback? id = some first.2 ∧
      ∀ other ∈ verdicts, id ∈ other.1.nodes →
        other = first ∨ first.1.command < other.1.command
  untouched : ∀ id, (∀ verdict ∈ verdicts, id ∉ verdict.1.nodes) →
    after.feedback? id = sheet.feedback? id
  typed : ∀ id, after.attempt? id = sheet.attempt? id ∧
    after.holeState? id = sheet.holeState? id
  flagged : ∀ id hole, after.hole? id = some hole →
    (hole.mustAddress = true ↔
      (∃ message, hole.feedback.message = some message) ∧
        hole.feedback.outcome ≠ .correct)

private theorem exists_last {α : Type} {holds : α → Prop} {items : List α}
    (h : ∃ item ∈ items, holds item) :
    ∃ before item after, items = before ++ item :: after ∧ holds item ∧
      ∀ other ∈ after, ¬ holds other := by
  induction items with
  | nil =>
      obtain ⟨item, mem, -⟩ := h
      exact absurd mem List.not_mem_nil
  | cons first rest ih =>
      by_cases later : ∃ item ∈ rest, holds item
      · obtain ⟨before, item, after, rfl, here, none⟩ := ih later
        exact ⟨first :: before, item, after, rfl, here, none⟩
      · obtain ⟨item, mem, here⟩ := h
        rcases List.mem_cons.mp mem with rfl | mem
        · exact ⟨[], item, rest, rfl, here,
            fun other there holds => later ⟨other, there, holds⟩⟩
        · exact absurd ⟨item, mem, here⟩ later

theorem Walks.shows {σ : Type} {checker : Checker σ} {session : Session}
    {state last : σ} {calls : List Call}
    {ending : Except VerifyError StopReason}
    (h : Walks checker session.sheet.triple? session.triples.reverse state
      calls ending last)
    (reachable : session.Reachable)
    (steady : (session.sheet.routeAll
      (verdicts session.triples.reverse calls)).Steady) :
    session.sheet.Shows (verdicts session.triples.reverse calls)
      (report (session.triples.reverse.take calls.length) ending)
      (session.sheet.routeAll (verdicts session.triples.reverse calls)) := by
  have settled := reachable.steady.settled
  have kept := Worksheet.keeps_routeAll settled.orderly.onlyClearing
    (verdicts session.triples.reverse calls)
  have inTriples {verdict : TripleRef × Feedback}
      (mem : verdict ∈ verdicts session.triples.reverse calls) :
      verdict.1 ∈ session.triples :=
    List.mem_reverse.mp (mem_of_mem_verdicts mem)
  constructor
  case checked =>
    intro submission done
    obtain ⟨checked, stopped⟩ := report_eq_ok_iff.mp done
    rw [checked, h.checked_eq stopped]
  case refused =>
    intro checked triple done
    obtain ⟨-, stopped⟩ := report_eq_ok_iff.mp done
    obtain ⟨before, feedback, same, refused⟩ := h.refused_last stopped
    have mem : (triple, feedback) ∈
        verdicts session.triples.reverse calls := by
      simp [same]
    refine ⟨reachable.nodes_nodup (inTriples mem), feedback, mem, refused,
      fun id inside => ?_⟩
    have core := Session.isCore_of_mem_triples (inTriples mem) inside
    rw [same, settled.feedback?_routeAll core inside (by simp)]
    simp [Worksheet.shown, refused, Feedback.incorrectMark]
  case praised =>
    intro id elsewhere present
    obtain ⟨before, verdict, after, split, inside, outside⟩ :=
      exists_last present
    have mem : verdict ∈ verdicts session.triples.reverse calls := by
      simp [split]
    have praised : verdict.2.isCorrect = true := by
      refine (h.praised_or_stopped verdict mem).resolve_right fun stopped => ?_
      exact elsewhere _ verdict.1 (report_eq_ok_iff.mpr ⟨rfl, stopped⟩) inside
    refine ⟨verdict, mem, inside, praised, ?_, fun other there among => ?_⟩
    · have core := Session.isCore_of_mem_triples (inTriples mem) inside
      rw [split, settled.feedback?_routeAll core inside outside]
      simp [Worksheet.shown, praised]
    · -- The walk goes backwards: what was judged earlier comes later.
      have ordered := List.pairwise_map.mp
        ((List.pairwise_reverse.mpr reachable.triples_increasing).sublist
          (verdicts_sublist session.triples.reverse calls))
      rw [split] at there ordered
      rcases List.mem_append.mp there with earlier | later
      · exact .inr ((List.pairwise_append.mp ordered).2.2 other earlier
          verdict List.mem_cons_self)
      · rcases List.mem_cons.mp later with same | later
        · exact .inl same
        · exact absurd among (outside other later)
  case untouched =>
    intro id outside
    rw [Worksheet.feedback?, settled.get?_routeAll outside]
    rfl
  case typed =>
    intro id
    rw [Worksheet.attempt?_of_contents kept.contents,
      Worksheet.holeState?_of_contents kept.contents]
    exact ⟨rfl, rfl⟩
  case flagged =>
    intro id hole found
    have truthful := steady.truthful (Worksheet.hole?_eq_some_iff.mp found)
    rw [truthful.flag, hole.feedback.shouldBeAddressed_iff]

namespace Session

/-- After a submission, every node shows what the verdicts make of it. -/
theorem submit_shows {σ : Type} {session : Session}
    (reachable : session.Reachable) (checker : Checker σ) (state : σ) :
    let plain := session.submit checker state
    let calls := (session.submit checker.recording (state, [])).2.2.2
    checker.Replays state calls plain.2.2 ∧
      session.sheet.Shows (verdicts session.triples.reverse calls) plain.1
        plain.2.1.sheet := by
  have steady := reachable.steady
  obtain ⟨calls, ending, last, walk, plain, recorded⟩ :=
    walks_submit checker steady.settled.orderly.onlyClearing state
  have afterwards : (session.submit checker state).2.1.sheet.Steady :=
    steady.submitFrom checker session.triples.reverse [] state
  rw [plain] at afterwards
  simp only [plain, recorded]
  exact ⟨walk.replays, walk.shows reachable afterwards⟩

/-- The hole of the sample proof carries the complaint. -/
theorem submit_shows_refused :
    ∃ feedback, feedback.isCorrect = false ∧ ∀ id ∈ [0, 1, 2],
      (filledRun.1.submit .scripted filledRun.2).2.1.sheet.feedback? id =
        some (if id = 2 then feedback else ⟨.incorrect, none⟩) := by
  have reachable : filledRun.1.Reachable := ⟨_, _, _, _, _, rfl⟩
  have carrier : filledRun.1.sheet.carrier ⟨0, 1, 2⟩ = 2 := by
    decide +kernel
  obtain ⟨-, shows⟩ := submit_shows reachable .scripted filledRun.2
  obtain ⟨-, feedback, -, refused, shown⟩ :=
    shows.refused _ _ filledRun_submit
  rw [carrier] at shown
  exact ⟨feedback, refused, shown⟩

end Session

end ProofOutline
