import ProofOutline.Proofs.Holes

/-!
# Editing a hole

The first edit of a hole after a complaint clears the triples that the hole
belongs to and that still have listeners.  Clearing sends notifications of its
own, in the midst of which further triples of the same hole are cleared.  All
this comes to an end, clears each triple once, and leaves alone whatever is not
part of such a triple.
-/

namespace ProofOutline

namespace Worksheet

/-! ## What an edit does -/

/-- The hole has a new attempt and the triples have been cleared. -/
structure Edited (before : Worksheet) (hole : NodeId) (text : String)
    (cleared : List TripleRef) (after : Worksheet) : Prop where
  /-- The notifications end by themselves, and this is what they clear. -/
  ends : Settles [.tell hole before.subscriptions] (before.edit hole text)
    cleared after
  /-- The depth to which notifications are followed does not matter. -/
  anyDepth : ∀ depth, before.subscriptions.length < depth →
    publishWithin depth hole (before.edit hole text) = after
  once : cleared.Nodup
  which : ∀ triple, triple ∈ cleared ↔
    hole ∈ triple.nodes ∧ before.Awaits triple
  wiped : ∀ triple ∈ cleared, ∀ id ∈ triple.nodes,
    after.feedback? id = some .empty
  kept : ∀ id, (∀ triple ∈ cleared, id ∉ triple.nodes) →
    after.feedback? id = before.feedback? id ∧
      after.mustAddress id = before.mustAddress id
  others : ∀ id, id ≠ hole → (∀ triple ∈ cleared, id ∉ triple.nodes) →
    after.get? id = before.get? id
  typed : ∀ id, id ≠ hole →
    after.attempt? id = before.attempt? id ∧
      after.holeState? id = before.holeState? id
  changed : after.attempt? hole = some text ∧
    after.holeState? hole = some .unvalidated
  gone : after.subscriptions = before.subscriptions.filter
    fun sub => !sub.listener.clearsAny cleared

section

variable {sheet : Worksheet} {target : NodeId} {text : String}

theorem get?_edit_self {content : Hole}
    (found : sheet.get? target = some (.hole content)) :
    (sheet.edit target text).get? target =
      some (.hole { content with attempt := text, state := .unvalidated }) := by
  rw [edit, get?_alter, found]
  simp [Node.mapHole]

theorem get?_edit_other {id : NodeId} (other : id ≠ target) :
    (sheet.edit target text).get? id = sheet.get? id := by
  rw [edit, get?_alter]
  simp [Ne.symm other]

theorem edit_told (sheet : Worksheet) (target : NodeId) (text : String)
    (id : NodeId) :
    (sheet.edit target text).feedback? id = sheet.feedback? id ∧
      (sheet.edit target text).mustAddress id = sheet.mustAddress id := by
  unfold feedback? mustAddress hole?
  rw [edit, get?_alter]
  cases sheet.get? id with
  | none => exact ⟨rfl, rfl⟩
  | some node =>
      by_cases same : target = id
      · cases node <;> simp [same, Node.mapHole, Node.feedback?, Node.hole?]
      · simp [same]

end

section

variable {edited : Option NodeId} {changed : NodeId}
  {subs : List Subscription} {sheet after : Worksheet}
  {cleared : List TripleRef}

theorem Cleared.get?_inside
    (h : Cleared edited [.tell changed subs] sheet cleared after)
    {id : NodeId} (inside : ∃ triple ∈ cleared, id ∈ triple.nodes) :
    after.get? id = (sheet.get? id).map (Node.mark .empty) := by
  rw [h.nodes]
  simp [Duty.wipes, inside]

theorem Cleared.get?_outside
    (h : Cleared edited [.tell changed subs] sheet cleared after)
    {id : NodeId} (outside : ∀ triple ∈ cleared, id ∉ triple.nodes) :
    after.get? id = sheet.get? id := by
  have never : ¬ ∃ triple ∈ cleared, id ∈ triple.nodes :=
    fun ⟨triple, mem, inside⟩ => outside triple mem inside
  rw [h.nodes]
  simp [Duty.wipes, never]

private theorem Cleared.contents_of_tell
    (h : Cleared edited [.tell changed subs] sheet cleared after)
    (id : NodeId) :
    after.attempt? id = sheet.attempt? id ∧
      after.holeState? id = sheet.holeState? id := by
  rw [attempt?_eq, attempt?_eq, holeState?, holeState?]
  by_cases inside : ∃ triple ∈ cleared, id ∈ triple.nodes
  · rw [h.get?_inside inside]
    cases sheet.get? id <;> simp
  · have outside : ∀ triple ∈ cleared, id ∉ triple.nodes :=
      fun triple mem there => inside ⟨triple, mem, there⟩
    rw [h.get?_outside outside]
    exact ⟨rfl, rfl⟩

end

theorem Steady.edited {sheet : Worksheet} (h : sheet.Steady)
    {target : NodeId} {content : Hole}
    (found : sheet.get? target = some (.hole content)) {text : String}
    (different : text ≠ content.attempt) :
    ∃ cleared,
      sheet.Edited target text cleared (sheet.setAttempt target text) := by
  have attempt := attempt?_of_hole found
  obtain ⟨orderly, -⟩ := h.settled.edit attempt different
  obtain ⟨cleared, run, effect, which⟩ :=
    h.settled.setAttempt_cleared attempt different
  refine ⟨cleared, {
    ends := run
    once := effect.once
    which := which
    gone := effect.subscriptions
    anyDepth := fun depth enough =>
      run.publishWithin_eq orderly.grouped_self enough
    wiped := ?wiped
    kept := ?kept
    others := ?others
    typed := ?typed
    changed := ?changed }⟩
  case wiped =>
    intro triple mem id inside
    obtain ⟨-, number, clearing, listens, rfl⟩ := (which triple).mp mem
    have core : (sheet.edit target text).isCore id = true := by
      rw [isCore_edit]
      exact h.inProof listens id inside
    unfold isCore at core
    cases there : (sheet.edit target text).get? id with
    | none => simp [there] at core
    | some node =>
        rw [there] at core
        rw [feedback?, effect.get?_inside ⟨_, mem, inside⟩, there]
        exact Node.feedback?_mark core .empty
  case kept =>
    intro id outside
    have told := edit_told sheet target text id
    unfold feedback? mustAddress hole? at told ⊢
    rw [effect.get?_outside outside]
    exact told
  case others =>
    intro id other outside
    rw [effect.get?_outside outside, get?_edit_other other]
  case typed =>
    intro id other
    have contents := effect.contents_of_tell id
    unfold holeState? at contents ⊢
    rw [attempt?_eq (sheet.edit target text), get?_edit_other other,
      ← attempt?_eq] at contents
    exact contents
  case changed =>
    have contents := effect.contents_of_tell target
    unfold holeState? at contents ⊢
    rw [attempt?_eq (sheet.edit target text), get?_edit_self found] at contents
    exact contents

end Worksheet

namespace Session

/-- Editing a hole clears the triples that await it, and nothing else. -/
theorem setAttempt_clears {session : Session} (reachable : session.Reachable)
    {hole : NodeId} {content : Hole}
    (found : session.sheet.hole? hole = some content) (text : String) :
    (text ≠ content.attempt → ∃ cleared,
      session.sheet.Edited hole text cleared
        (session.setAttempt hole text).sheet) ∧
    (text = content.attempt →
      (∀ id, (session.setAttempt hole text).sheet.feedback? id =
          session.sheet.feedback? id ∧
        (session.setAttempt hole text).sheet.mustAddress id =
          session.sheet.mustAddress id) ∧
      (session.setAttempt hole text).sheet.subscriptions =
        session.sheet.subscriptions) := by
  have steady := reachable.steady
  constructor
  · exact steady.edited (Worksheet.hole?_eq_some_iff.mp found)
  · rintro rfl
    have attempt :=
      Worksheet.attempt?_of_hole (Worksheet.hole?_eq_some_iff.mp found)
    have same : (session.setAttempt hole content.attempt).sheet =
        session.sheet.edit hole content.attempt :=
      steady.settled.setAttempt_same attempt
    rw [same]
    exact ⟨Worksheet.edit_told session.sheet hole content.attempt, rfl⟩

def twiceRefused : Session × Prepared Feedback Triple :=
  run .scripted sampleSteps
    ⟨[.correct "fine", .incorrect "first", .incorrect "second"], []⟩
    [.setAttempt 2 "\x7b x + 1 = 1 \x7d", .prevalidate 2, .submit, .submit]

/-- One edit of the hole between them clears the two triples. -/
theorem setAttempt_clears_both :
    ∃ cleared,
      twiceRefused.1.sheet.Edited 2 "\x7b true \x7d" cleared
        (twiceRefused.1.setAttempt 2 "\x7b true \x7d").sheet ∧
      ⟨0, 1, 2⟩ ∈ cleared ∧ ⟨2, 4, 5⟩ ∈ cleared := by
  have seen : (twiceRefused.1.sheet.hole? 2).map Hole.attempt =
      some "\x7b x + 1 = 1 \x7d" := by
    decide +kernel
  obtain ⟨content, found, attempt⟩ := Option.map_eq_some_iff.mp seen
  obtain ⟨cleared, edited⟩ :=
    (setAttempt_clears ⟨_, _, _, _, _, rfl⟩ found "\x7b true \x7d").1
      (by rw [attempt]; decide)
  refine ⟨cleared, edited, (edited.which _).mpr ⟨by decide, ?_⟩,
    (edited.which _).mpr ⟨by decide, ?_⟩⟩
  · refine ⟨0, ⟨⟨0, 1, 2⟩, 2, "\x7b x + 1 = 1 \x7d", 0⟩, ?_, rfl⟩
    unfold Worksheet.Listens
    decide +kernel
  · refine ⟨1, ⟨⟨2, 4, 5⟩, 2, "\x7b x + 1 = 1 \x7d", 1⟩, ?_, rfl⟩
    unfold Worksheet.Listens
    decide +kernel

end Session

end ProofOutline
