import ProofOutline.Proofs.Bookkeeping

/-!
# Submitting again

If the answers of a checker depend on nothing but the questions, a second
submission without an edit in between is told the same as the first.  It writes
the same feedback to the same nodes, the last verdict on a node winning both
times, and takes the listeners of a triple off before it posts them again.  So
nothing is changed.
-/

namespace ProofOutline

/-! ## The same walk -/

/-- The answer does not depend on the state of the checker. -/
def Checker.Consistent {σ : Type} (checker : Checker σ) : Prop :=
  ∀ (triple : Triple) (first second : σ),
    (checker triple first).1 = (checker triple second).1

def walkBy (answer : Triple → Except VerifyError Feedback)
    (value? : TripleRef → Option Triple) :
    List TripleRef → List Call × Except VerifyError StopReason
  | [] => ([], .ok .completed)
  | triple :: rest =>
      match value? triple with
      | none => ([], .ok (.incomplete triple))
      | some value =>
          match answer value with
          | .error error => ([⟨value, .error error⟩], .error error)
          | .ok feedback =>
              if feedback.isCorrect then
                let (calls, ending) := walkBy answer value? rest
                (⟨value, .ok feedback⟩ :: calls, ending)
              else ([⟨value, .ok feedback⟩], .ok (.incorrect triple))

private theorem Walks.eq_walkBy {σ : Type} {checker : Checker σ}
    {answer : Triple → Except VerifyError Feedback}
    {value? : TripleRef → Option Triple} {triples : List TripleRef}
    {state last : σ} {calls : List Call}
    {ending : Except VerifyError StopReason}
    (answers : ∀ triple state, (checker triple state).1 = answer triple)
    (h : Walks checker value? triples state calls ending last) :
    (calls, ending) = walkBy answer value? triples := by
  induction h with
  | completed => rfl
  | incomplete missing => simp [walkBy, missing]
  | @failed _ _ state _ value _ found answered =>
      have told := answers value state
      rw [answered] at told
      simp [walkBy, found, ← told]
  | @incorrect _ _ state _ value _ found answered refused =>
      have told := answers value state
      rw [answered] at told
      simp [walkBy, found, ← told, refused]
  | @correct _ _ state _ _ value _ _ _ found answered praised _ ih =>
      have told := answers value state
      rw [answered] at told
      simp [walkBy, found, ← told, praised, ← ih]

/-! ## The same feedback -/

namespace Worksheet

variable {sheet : Worksheet}

private theorem exists_get?_routeAll (sheet : Worksheet)
    (verdicts : List (TripleRef × Feedback)) (id : NodeId) :
    ∃ final : Option Feedback, ∀ other : Worksheet, other.Settled →
      other.contents = sheet.contents →
      (other.routeAll verdicts).get? id =
        (other.get? id).map fun node => final.elim node node.mark := by
  induction verdicts with
  | nil => exact ⟨none, fun other _ _ => Option.map_id.symm ▸ rfl⟩
  | cons verdict rest ih =>
      obtain ⟨final, later⟩ := ih
      have split {other : Worksheet} (h : other.Settled)
          (same : other.contents = sheet.contents) :
          (other.routeAll (verdict :: rest)).get? id =
            ((other.get? id).map fun node =>
              if id ∈ verdict.1.nodes then
                node.mark (sheet.shown verdict.1 verdict.2 id)
              else node).map fun node => final.elim node node.mark := by
        have kept := keeps_route verdict.1 verdict.2 h.orderly.onlyClearing
        rw [← shown_of_contents same, ← h.get?_route]
        exact later _ (h.route _ _) (kept.contents.trans same)
      by_cases inside : id ∈ verdict.1.nodes
      · refine ⟨some (final.getD (sheet.shown verdict.1 verdict.2 id)),
          fun other h same => ?_⟩
        rw [split h same, Option.map_map]
        cases final <;> simp [inside, Function.comp_def]
      · refine ⟨final, fun other h same => ?_⟩
        rw [split h same]
        simp [inside]

private theorem Settled.nodes_routeAll_again (h : sheet.Settled)
    (verdicts : List (TripleRef × Feedback)) :
    ((sheet.routeAll verdicts).routeAll verdicts).nodes =
      (sheet.routeAll verdicts).nodes := by
  have kept := keeps_routeAll h.orderly.onlyClearing verdicts
  apply List.ext_getElem?
  intro id
  obtain ⟨final, marks⟩ := sheet.exists_get?_routeAll verdicts id
  show ((sheet.routeAll verdicts).routeAll verdicts).get? id =
    (sheet.routeAll verdicts).get? id
  rw [marks _ (h.routeAll verdicts) kept.contents, marks sheet h rfl,
    Option.map_map]
  cases final <;> simp [Function.comp_def]

end Worksheet

/-! ## The same listeners -/

/-- What a clearing listener is there for, and the text that it remembers. -/
structure Watch where
  triple : TripleRef
  hole : NodeId
  text : String
  deriving DecidableEq, Repr

def Listener.watch? : Listener → Option Watch
  | clearing listener =>
      some ⟨listener.triple, listener.hole, listener.before⟩
  | observer _ => none

namespace Worksheet

variable {sheet : Worksheet}

def watches (sheet : Worksheet) : List Watch :=
  sheet.subscriptions.filterMap fun sub => sub.listener.watch?

def posted (sheet : Worksheet) (triple : TripleRef) (feedback : Feedback) :
    List Watch :=
  if feedback.isCorrect then []
  else (triple.nodes.filter sheet.isHole).map fun hole =>
    ⟨triple, hole, (sheet.attempt? hole).getD ""⟩

private theorem triple_of_mem_posted {triple : TripleRef} {feedback : Feedback}
    {watch : Watch} (mem : watch ∈ sheet.posted triple feedback) :
    watch.triple = triple := by
  unfold posted at mem
  split at mem
  case isTrue => exact absurd mem List.not_mem_nil
  case isFalse =>
    obtain ⟨hole, -, rfl⟩ := List.mem_map.mp mem
    rfl

private theorem posted_of_contents {other : Worksheet}
    (same : sheet.contents = other.contents) :
    sheet.posted = other.posted := by
  funext triple feedback
  rw [posted, posted, isHole_of_contents same, attempt?_of_contents same]

private theorem Orderly.watches_forget (h : sheet.Orderly)
    (triple : TripleRef) :
    (sheet.forget triple).watches =
      sheet.watches.filter (·.triple ≠ triple) := by
  rw [forget_eq, watches, watches, List.filterMap_filter,
    List.filter_filterMap]
  refine List.filterMap_congr fun sub mem => ?_
  obtain ⟨clearing, same, listens⟩ := h.onlyClearing.exists_listens mem
  have owner := @Orderly.recorded _ h _ _ triple listens
  rw [same]
  by_cases own : clearing.triple = triple
  · rw [if_neg (by simpa using owner.mpr own), Listener.watch?,
      Option.filter_some_neg (by simpa using own)]
  · rw [if_pos (by simpa using mt owner.mp own), Listener.watch?,
      Option.filter_some_pos (by simpa using own)]

private theorem Settled.watches_route (h : sheet.Settled) (triple : TripleRef)
    (feedback : Feedback) :
    (sheet.route triple feedback).watches =
      sheet.watches.filter (·.triple ≠ triple) ++
        sheet.posted triple feedback := by
  have forgotten := h.orderly.watches_forget triple
  rw [h.route_eq, posted]
  cases feedback.isCorrect with
  | true => exact forgotten.trans (List.append_nil _).symm
  | false =>
      simp only [Bool.false_eq_true, if_false]
      rw [watches, filterMap_clearOnFirstEdit, attempt?_marked, ← forgotten]
      exact congrArg _ (congrFun List.filterMap_eq_map _)

private theorem exists_watches_routeAll (sheet : Worksheet)
    (verdicts : List (TripleRef × Feedback)) :
    ∃ fresh : List Watch,
      (∀ watch ∈ fresh, watch.triple ∈ verdicts.map Prod.fst) ∧
      ∀ other : Worksheet, other.Settled →
        other.contents = sheet.contents →
        (other.routeAll verdicts).watches =
          other.watches.filter (·.triple ∉ verdicts.map Prod.fst) ++
            fresh := by
  induction verdicts with
  | nil => exact ⟨[], by simp, fun other _ _ => by simp [routeAll]⟩
  | cons verdict rest ih =>
      obtain ⟨fresh, among, later⟩ := ih
      refine ⟨(sheet.posted verdict.1 verdict.2).filter
        (·.triple ∉ rest.map Prod.fst) ++ fresh, ?_, fun other h same => ?_⟩
      · intro watch mem
        rw [List.map_cons, List.mem_cons]
        rcases List.mem_append.mp mem with new | later
        · exact .inl (triple_of_mem_posted (List.mem_of_mem_filter new))
        · exact .inr (among watch later)
      · have kept := keeps_route verdict.1 verdict.2 h.orderly.onlyClearing
        have rest := later _ (h.route verdict.1 verdict.2)
          (kept.contents.trans same)
        show ((other.route _ _).routeAll _).watches = _
        rw [rest, h.watches_route, posted_of_contents same,
          List.filter_append, List.filter_filter, List.append_assoc]
        refine congrArg (· ++ _) (List.filter_congr fun watch _ => ?_)
        rw [List.map_cons, Bool.eq_iff_iff]
        simp only [Bool.and_eq_true, decide_eq_true_eq, List.mem_cons, not_or,
          and_comm, ne_eq]

private theorem Settled.watches_routeAll_again (h : sheet.Settled)
    (verdicts : List (TripleRef × Feedback)) :
    ((sheet.routeAll verdicts).routeAll verdicts).watches =
      (sheet.routeAll verdicts).watches := by
  have kept := keeps_routeAll h.orderly.onlyClearing verdicts
  obtain ⟨fresh, among, posts⟩ := sheet.exists_watches_routeAll verdicts
  rw [posts _ (h.routeAll verdicts) kept.contents, posts sheet h rfl,
    List.filter_append, List.filter_filter]
  have gone : fresh.filter (·.triple ∉ verdicts.map Prod.fst) = [] :=
    List.filter_eq_nil_iff.mpr fun watch mem => by simpa using among watch mem
  rw [gone, List.append_nil]
  simp only [Bool.and_self]

end Worksheet

namespace Session

variable {σ : Type} {checker : Checker σ}

private theorem exists_submit_eq {answer : Triple → Except VerifyError Feedback}
    (answers : ∀ triple state, (checker triple state).1 = answer triple)
    {session : Session} (h : session.sheet.OnlyClearing) (state : σ) :
    let walk := walkBy answer session.sheet.triple? session.triples.reverse
    ∃ last, session.submit checker state =
      (report (session.triples.reverse.take walk.1.length) walk.2,
        { session with
          sheet := session.sheet.routeAll
            (verdicts session.triples.reverse walk.1) },
        last) := by
  obtain ⟨calls, ending, last, walk, submitted, -⟩ :=
    walks_submit checker h state
  rw [← walk.eq_walkBy answers]
  exact ⟨last, submitted⟩

/--
A submission that follows another without an edit ends as that one did, and
leaves all nodes and listeners as they are.
-/
theorem resubmission_changes_nothing (consistent : checker.Consistent)
    {session : Session} (reachable : session.Reachable) (state : σ) :
    let first := session.submit checker state
    let second := first.2.1.submit checker first.2.2
    second.1 = first.1 ∧
      second.2.1.sheet.nodes = first.2.1.sheet.nodes ∧
      second.2.1.sheet.watches = first.2.1.sheet.watches := by
  have answers (triple : Triple) (other : σ) :
      (checker triple other).1 = (checker triple state).1 :=
    consistent triple other state
  have settled := reachable.steady.settled
  have clearing := settled.orderly.onlyClearing
  obtain ⟨last, submitted⟩ := exists_submit_eq answers clearing state
  rw [submitted]
  generalize reached : verdicts session.triples.reverse _ = found
  have kept := Worksheet.keeps_routeAll clearing found
  obtain ⟨final, again⟩ := @exists_submit_eq σ checker _ answers
    { session with sheet := session.sheet.routeAll found } kept.onlyClearing
    last
  -- Feedback is no part of the contents, so the same questions come up.
  have places :
      triples { session with sheet := session.sheet.routeAll found } =
        session.triples := by
    rw [triples, Worksheet.segment_of_contents kept.contents]
    rfl
  have values : (session.sheet.routeAll found).triple? =
      session.sheet.triple? :=
    funext (Worksheet.triple?_of_contents kept.contents)
  rw [places, values, reached] at again
  simp only [again, true_and]
  exact ⟨settled.nodes_routeAll_again found,
    settled.watches_routeAll_again found⟩

def countingChecker : Checker Nat := fun triple asked =>
  (.ok (if triple.program.source = "x := y;" then .incorrect "no"
    else .correct "fine"), asked + 1)

def firstSubmit : Except VerifyError Submission × Session × Nat :=
  filledRun.1.submit countingChecker 0

/--
The checker is asked about both triples twice, and the hole between them has
the complaint and its one listener as before.
-/
theorem resubmission_changes_nothing_refused :
    let second := firstSubmit.2.1.submit countingChecker firstSubmit.2.2
    firstSubmit.2.2 = 2 ∧ second.2.2 = 4 ∧
      second.1.toOption =
        some ⟨[⟨2, 4, 5⟩, ⟨0, 1, 2⟩], .incorrect ⟨0, 1, 2⟩⟩ ∧
      second.2.1.sheet.nodes.map Node.feedback? =
        [some .incorrectMark, some .incorrectMark, some (.incorrect "no"),
          none, some (.correct "fine"), some (.correct "fine")] ∧
      second.2.1.sheet.watches =
        [⟨⟨0, 1, 2⟩, 2, "\x7b x + 1 = 1 \x7d"⟩] := by
  have consistent : countingChecker.Consistent := fun _ _ _ => rfl
  have reachable : filledRun.1.Reachable := ⟨_, _, _, _, _, rfl⟩
  obtain ⟨result, nodes, watches⟩ :=
    resubmission_changes_nothing consistent reachable 0
  refine ⟨by decide +kernel, by decide +kernel, ?_, ?_, ?_⟩
  · exact (congrArg Except.toOption result).trans (by decide +kernel)
  · exact (congrArg (List.map Node.feedback?) nodes).trans (by decide +kernel)
  · exact watches.trans (by decide +kernel)

end Session

end ProofOutline
