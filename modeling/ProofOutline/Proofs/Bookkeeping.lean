import Mathlib.Data.List.Nodup
import Mathlib.Data.List.Perm.Subperm
import ProofOutline.Proofs.Overlap

/-!
# No listener too many

A listener is posted at a hole on behalf of a triple, and no post is taken
twice: a verdict first takes the old listeners of its triple off the worksheet
and then posts one at each hole.  All posts lie on holes of the triples of the
session, which bounds the number of subscriptions however often the proof is
submitted.  Only an edit makes a group of listeners fire.
-/

namespace ProofOutline

def Listener.post? : Listener → Option (TripleRef × NodeId)
  | clearing listener => some (listener.triple, listener.hole)
  | observer _ => none

namespace Worksheet

/-! ## Posts -/

def posts (sheet : Worksheet) : List (TripleRef × NodeId) :=
  sheet.subscriptions.filterMap fun sub => sub.listener.post?

@[simp] theorem mem_posts {sheet : Worksheet} {triple : TripleRef}
    {hole : NodeId} :
    (triple, hole) ∈ sheet.posts ↔ ∃ id clearing,
      sheet.Listens id clearing ∧ clearing.triple = triple ∧
        clearing.hole = hole := by
  rw [posts, List.mem_filterMap]
  constructor
  · rintro ⟨⟨id, listener⟩, mem, posted⟩
    cases listener with
    | clearing clearing =>
        cases posted
        exact ⟨id, clearing, mem, rfl, rfl⟩
    | observer observer => cases posted
  · rintro ⟨id, clearing, listens, rfl, rfl⟩
    exact ⟨_, listens, rfl⟩

private theorem awaits_of_mem_posts {sheet : Worksheet} {triple : TripleRef}
    {hole : NodeId} (mem : (triple, hole) ∈ sheet.posts) :
    sheet.Awaits triple := by
  obtain ⟨id, clearing, listens, same, -⟩ := mem_posts.mp mem
  exact ⟨id, clearing, listens, same⟩

private theorem posts_sublist {sheet after : Worksheet}
    (fewer : after.subscriptions.Sublist sheet.subscriptions) :
    after.posts.Sublist sheet.posts :=
  fewer.filterMap _

private theorem OnlyClearing.length_posts {sheet : Worksheet}
    (h : sheet.OnlyClearing) :
    sheet.posts.length = sheet.subscriptions.length := by
  rw [posts, List.length_filterMap_eq_countP, List.countP_eq_length]
  intro sub mem
  obtain ⟨clearing, same, -⟩ := h.exists_listens mem
  rw [same]
  rfl

@[simp] theorem posts_clearOnFirstEdit (sheet : Worksheet) (triple : TripleRef)
    (holes : List NodeId) :
    (sheet.clearOnFirstEdit triple holes).posts =
      sheet.posts ++ holes.map fun hole => (triple, hole) := by
  rw [posts, filterMap_clearOnFirstEdit]
  exact congrArg (sheet.posts ++ ·) (congrFun List.filterMap_eq_map holes)

theorem Settled.mem_posts_iff {sheet : Worksheet} (h : sheet.Settled)
    {triple : TripleRef} (awaits : sheet.Awaits triple) {hole : NodeId} :
    (triple, hole) ∈ sheet.posts ↔
      hole ∈ triple.nodes ∧ sheet.isHole hole = true := by
  rw [mem_posts, isHole_eq]
  constructor
  · rintro ⟨id, clearing, listens, rfl, rfl⟩
    have recalled := (h.recalls listens).mpr (by simp)
    exact ⟨h.orderly.inTriple listens, by simp [recalled]⟩
  · rintro ⟨inside, isHole⟩
    obtain ⟨id, clearing, listens, rfl⟩ := awaits
    exact h.orderly.everyHole listens inside isHole

/-! ## No post is taken twice -/

private theorem Settled.subscriptions_setAttempt {sheet : Worksheet}
    (h : sheet.Settled) (hole : NodeId) (text : String) :
    (sheet.setAttempt hole text).subscriptions.Sublist
      sheet.subscriptions := by
  cases found : sheet.attempt? hole with
  | none => rw [setAttempt_of_not_hole found]
  | some old =>
      by_cases same : text = old
      · subst same
        rw [h.setAttempt_same found]
        exact .refl _
      · obtain ⟨cleared, run, -⟩ := h.setAttempt_cleared found same
        exact run.narrows.subscriptions

private theorem Settled.exists_prevalidate_eq {sheet : Worksheet}
    (h : sheet.Settled) (id : NodeId) :
    ∃ nodes, (sheet.prevalidate id).2 = { sheet with nodes } := by
  cases present : sheet.hole? id with
  | none => exact ⟨sheet.nodes, prevalidate_of_not_hole present⟩
  | some hole => exact ⟨_, h.prevalidate (hole?_eq_some_iff.mp present)⟩

/-- The posts of a triple are given up before they are taken again. -/
theorem Settled.nodup_posts_route {sheet : Worksheet} (h : sheet.Settled)
    (nodup : sheet.posts.Nodup) {triple : TripleRef}
    (distinct : triple.nodes.Nodup) (feedback : Feedback) :
    (sheet.route triple feedback).posts.Nodup := by
  have fewer : ((sheet.forget triple).markAll triple.nodes
      (sheet.shown triple feedback)).posts.Sublist sheet.posts := by
    refine posts_sublist ?_
    rw [forget_eq]
    exact List.filter_sublist
  rw [h.route_eq]
  cases feedback.isCorrect with
  | true => exact fewer.nodup nodup
  | false =>
      simp only [Bool.false_eq_true, if_false, posts_clearOnFirstEdit]
      refine List.Nodup.append (fewer.nodup nodup) ?_ ?_
      · exact (distinct.filter _).map fun _ _ same => congrArg Prod.snd same
      · rintro ⟨other, hole⟩ old new
        obtain ⟨_, -, same⟩ := List.mem_map.mp new
        obtain ⟨id, clearing, listens, rfl, rfl⟩ := mem_posts.mp old
        exact (h.listens_marked.mp listens).2 (congrArg Prod.fst same).symm

private theorem Settled.nodup_posts_routeAll {sheet : Worksheet}
    (h : sheet.Settled)
    (nodup : sheet.posts.Nodup) {verdicts : List (TripleRef × Feedback)}
    (distinct : ∀ verdict ∈ verdicts, verdict.1.nodes.Nodup) :
    (sheet.routeAll verdicts).posts.Nodup := by
  induction verdicts generalizing sheet with
  | nil => exact nodup
  | cons verdict verdicts ih =>
      exact ih (h.route verdict.1 verdict.2)
        (h.nodup_posts_route nodup (distinct _ List.mem_cons_self) _)
        fun other mem => distinct other (List.mem_cons_of_mem _ mem)

/-! ## Who fires -/

def Extends (sheet after : Worksheet) : Prop :=
  ∃ fresh, after.groups = sheet.groups ++ fresh ∧
    ∀ group ∈ fresh, group.fired = false

private theorem Settled.extends_route {sheet : Worksheet} (h : sheet.Settled)
    (triple : TripleRef) (feedback : Feedback) :
    sheet.Extends (sheet.route triple feedback) := by
  have marked : ((sheet.forget triple).markAll triple.nodes
      (sheet.shown triple feedback)).groups = sheet.groups := by
    rw [forget_eq]
    rfl
  rw [h.route_eq]
  cases feedback.isCorrect with
  | true => exact ⟨[], by simpa using marked, by simp⟩
  | false =>
      simp only [Bool.false_eq_true, if_false, clearOnFirstEdit_eq]
      exact ⟨_, by rw [marked], by simp⟩

private theorem Settled.extends_routeAll {sheet : Worksheet} (h : sheet.Settled)
    (verdicts : List (TripleRef × Feedback)) :
    sheet.Extends (sheet.routeAll verdicts) := by
  induction verdicts generalizing sheet with
  | nil => exact ⟨[], (List.append_nil _).symm, by simp⟩
  | cons verdict verdicts ih =>
      obtain ⟨first, added, unfired⟩ :=
        h.extends_route verdict.1 verdict.2
      obtain ⟨more, rest, idle⟩ := ih (h.route verdict.1 verdict.2)
      refine ⟨first ++ more, ?_, fun group mem => ?_⟩
      · rw [← List.append_assoc, ← added]
        exact rest
      · exact (List.mem_append.mp mem).elim (unfired group) (idle group)

end Worksheet

namespace Session

private theorem Reachable.exists_recorded {session : Session}
    (h : session.Reachable) : ∃ receipts, session.Recorded receipts := by
  obtain ⟨σ, checker, steps, start, actions, rfl⟩ := h
  exact ⟨_, σ, checker, steps, start, actions, by rw [runNoting_fst], rfl⟩

private theorem Reachable.nodup_posts {session : Session}
    (h : session.Reachable) :
    session.sheet.posts.Nodup := by
  obtain ⟨receipts, recorded⟩ := h.exists_recorded
  refine recorded.invariant (fun session _ => session.sheet.posts.Nodup)
    (fun steps => List.nodup_nil) ?_
  intro session after receipts later reachable nodup step
  have settled := reachable.steady.settled
  cases step with
  | setAttempt id text =>
      exact (Worksheet.posts_sublist
        (settled.subscriptions_setAttempt id text)).nodup nodup
  | prevalidate id =>
      obtain ⟨nodes, same⟩ := settled.exists_prevalidate_eq id
      simp only [Session.prevalidate, same]
      exact nodup
  | submit walk =>
      refine settled.nodup_posts_routeAll nodup fun verdict mem => ?_
      exact reachable.nodes_nodup
        (List.mem_reverse.mp (mem_of_mem_verdicts mem))

private theorem Reachable.mem_triples_of_awaits {session : Session}
    (h : session.Reachable) {triple : TripleRef}
    (awaits : session.sheet.Awaits triple) : triple ∈ session.triples := by
  obtain ⟨receipts, recorded⟩ := h.exists_recorded
  exact recorded.chronological.waiting awaits

private theorem Reachable.length_subscriptions_le {session : Session}
    (h : session.Reachable) :
    session.sheet.subscriptions.length ≤
      (session.triples.flatMap fun triple =>
        triple.nodes.filter session.sheet.isHole).length := by
  have settled := h.steady.settled
  have among : session.sheet.posts ⊆ session.triples.flatMap fun triple =>
      (triple.nodes.filter session.sheet.isHole).map (triple, ·) := by
    rintro ⟨triple, hole⟩ mem
    have awaits := Worksheet.awaits_of_mem_posts mem
    refine List.mem_flatMap.mpr ⟨triple, h.mem_triples_of_awaits awaits, ?_⟩
    exact List.mem_map_of_mem
      (List.mem_filter.mpr ((settled.mem_posts_iff awaits).mp mem))
  have fits := (List.subperm_of_subset h.nodup_posts among).length_le
  rw [settled.orderly.onlyClearing.length_posts] at fits
  simpa [List.length_flatMap] using fits

/--
In every session that can come about, each listener is recorded for its triple
and for no other, knows the text of its hole and has yet to fire, and a triple
has either no listener or one at each hole.  So neither prevalidation nor a
submission makes a listener fire, and there are never more listeners than
holes of triples.
-/
theorem listeners_accounted_for {session : Session}
    (reachable : session.Reachable) :
    let sheet := session.sheet
    (sheet.subscriptions.map Subscription.id).Nodup ∧
      (∀ sub ∈ sheet.subscriptions, ∃ clearing,
        sub.listener = .clearing clearing ∧
          clearing.triple ∈ session.triples ∧
          (∀ triple, sub.id ∈ sheet.recorded triple ↔
            triple = clearing.triple) ∧
          sheet.attempt? clearing.hole = some clearing.before ∧
          sheet.hasFired clearing.group = false) ∧
      (∀ triple, (∀ hole, sheet.posts.count (triple, hole) = 0) ∨
        ∀ hole, sheet.posts.count (triple, hole) =
          if hole ∈ triple.nodes ∧ sheet.isHole hole = true then 1 else 0) ∧
      (∀ id, (session.prevalidate id).2.sheet.groups = sheet.groups) ∧
      (∀ (σ : Type) (checker : Checker σ) (state : σ),
        sheet.Extends (session.submit checker state).2.1.sheet) ∧
      sheet.subscriptions.length ≤
        (session.triples.flatMap fun triple =>
          triple.nodes.filter sheet.isHole).length := by
  intro sheet
  have settled := reachable.steady.settled
  have orderly := settled.orderly
  refine ⟨orderly.distinct, fun sub mem => ?_, fun triple => ?_,
    fun id => ?_, fun σ checker state => ?_,
    reachable.length_subscriptions_le⟩
  · obtain ⟨clearing, same, listens⟩ := orderly.onlyClearing.exists_listens mem
    refine ⟨clearing, congrArg Subscription.listener same,
      reachable.mem_triples_of_awaits ⟨_, _, listens, rfl⟩, fun triple => ?_,
      (settled.recalls listens).mpr (by simp), orderly.waiting listens⟩
    exact (orderly.recorded listens).trans eq_comm
  · by_cases awaits : sheet.Awaits triple
    · refine .inr fun hole => ?_
      rw [reachable.nodup_posts.count]
      exact if_congr (settled.mem_posts_iff awaits) rfl rfl
    · refine .inl fun hole => List.count_eq_zero.mpr fun mem => ?_
      exact awaits (Worksheet.awaits_of_mem_posts mem)
  · obtain ⟨nodes, same⟩ := settled.exists_prevalidate_eq id
    simp only [Session.prevalidate, same, sheet]
  · obtain ⟨calls, ending, last, -, submitted, -⟩ :=
      walks_submit checker orderly.onlyClearing state
    rw [submitted]
    exact settled.extends_routeAll _

def resubmittedRun : Session × Prepared Feedback Triple :=
  run .scripted twoHoles
    ⟨[.incorrect "first", .incorrect "second", .incorrect "third"], []⟩
    [.setAttempt 0 "\x7b true \x7d", .prevalidate 0,
      .setAttempt 2 "\x7b true \x7d", .prevalidate 2, .submit, .submit,
      .submit]

/-- Of the six listeners that were subscribed, one for each hole is left. -/
theorem listeners_accounted_for_resubmitted :
    resubmittedRun.1.sheet.nextId = 6 ∧
      resubmittedRun.1.sheet.subscriptions.length ≤ 2 ∧
      resubmittedRun.1.sheet.posts.count (⟨0, 1, 2⟩, 0) = 1 ∧
      resubmittedRun.1.sheet.posts.count (⟨0, 1, 2⟩, 1) = 0 ∧
      resubmittedRun.1.sheet.posts.count (⟨0, 1, 2⟩, 2) = 1 := by
  obtain ⟨-, -, posted, -, -, bounded⟩ :=
    @listeners_accounted_for resubmittedRun.1 ⟨_, _, _, _, _, rfl⟩
  have holes : (resubmittedRun.1.triples.flatMap fun triple =>
      triple.nodes.filter resubmittedRun.1.sheet.isHole).length = 2 := by
    decide +kernel
  have kinds : resubmittedRun.1.sheet.isHole 0 = true ∧
      resubmittedRun.1.sheet.isHole 1 = false ∧
      resubmittedRun.1.sheet.isHole 2 = true := by
    decide +kernel
  have some : resubmittedRun.1.sheet.posts.count (⟨0, 1, 2⟩, 0) ≠ 0 := by
    decide +kernel
  have each := (posted ⟨0, 1, 2⟩).resolve_left fun none => some (none 0)
  refine ⟨by decide +kernel, holes ▸ bounded, ?_, ?_, ?_⟩
  all_goals simp [each, TripleRef.nodes, kinds]

end Session

end ProofOutline
