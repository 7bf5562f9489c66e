import Mathlib.Data.List.TakeWhile
import ProofOutline.Proofs.Filling
import ProofOutline.Proofs.Overlap

/-!
# Where a pass over an exercise stops

A pass prevalidates the holes that are not blank and then submits.  A hole is
visited once, so its state afterwards depends on its text alone.  A triple has
no value exactly if there is a gap at one of its ends, which is a hole with a
text that is blank or does not parse.  So a submission finds the proof
incomplete at the last gap, if the triples after it are right.
-/

namespace ProofOutline

/-! ## Blank texts -/

namespace Text

theorem isEmpty_trimChars (text : List Char) :
    (trimChars text).isEmpty = true ↔ ∀ c ∈ text, isBlank c = true := by
  have all : (trimChars text).isEmpty = true ↔
      ∀ c ∈ trimLeft text, isBlank c = true := by
    rw [trimChars, trimRight, List.isEmpty_reverse, List.isEmpty_iff,
      List.dropWhile_eq_nil_iff]
    simp
  rw [all]
  constructor
  · intro blank c mem
    rw [← List.takeWhile_append_dropWhile (p := isBlank) (l := text)] at mem
    rcases List.mem_append.mp mem with first | rest
    · exact List.mem_takeWhile_imp first
    · exact blank c rest
  · intro blank c mem
    exact blank c ((List.dropWhile_sublist isBlank).subset mem)

end Text

namespace Attempt

def Blank (text : String) : Prop :=
  ∀ c ∈ text.toList, Text.isBlank c = true

def Parses (text : String) : Prop :=
  ∃ assertion, Source.parseAssertion text = .ok assertion

/-- An end of the triple is a hole that was not filled in properly. -/
def Gap (steps : List Step) (given : List (Nat × String))
    (triple : TripleRef) : Prop :=
  ∃ id ∈ [triple.pre, triple.post],
    (∃ prompt, steps[id]? = some (.hole prompt)) ∧
      (Blank (lastText given id) ∨ ¬ Parses (lastText given id))

end Attempt

/-! ## Prevalidation of a hole that is not blank -/

namespace Hole

def examined (hole : Hole) : Hole :=
  if (Text.trimChars hole.attempt.toList).isEmpty then hole else hole.checked

@[simp] theorem attempt_examined (hole : Hole) :
    hole.examined.attempt = hole.attempt := by
  unfold examined
  split
  · rfl
  · exact hole.attempt_checked

private theorem state_checked (hole : Hole) :
    (hole.checked.state = .prevalidated ∧ Attempt.Parses hole.attempt) ∨
      (hole.checked.state = .prevalidationFailed ∧
        ¬ Attempt.Parses hole.attempt) := by
  unfold checked Attempt.Parses
  cases Source.parseAssertion hole.attempt with
  | ok assertion =>
      refine .inl ⟨?_, assertion, rfl⟩
      by_cases marked : hole.parseFeedback = true <;> simp [marked, mark]
  | error error => exact .inr ⟨rfl, by simp⟩

theorem state_examined {hole : Hole} (fresh : hole.state = .unvalidated) :
    (hole.examined.state = .prevalidated ↔
        ¬ Attempt.Blank hole.attempt ∧ Attempt.Parses hole.attempt) ∧
      (hole.examined.state = .prevalidationFailed ↔
        ¬ Attempt.Blank hole.attempt ∧ ¬ Attempt.Parses hole.attempt) ∧
      (hole.examined.state = .unvalidated ↔
        Attempt.Blank hole.attempt) := by
  have blank := Text.isEmpty_trimChars hole.attempt.toList
  unfold examined
  split
  case isTrue empty =>
    have isBlank : Attempt.Blank hole.attempt := blank.mp empty
    simp [fresh, isBlank]
  case isFalse filled =>
    have notBlank : ¬ Attempt.Blank hole.attempt := mt blank.mpr filled
    rcases hole.state_checked with ⟨state, parses⟩ | ⟨state, fails⟩
    · simp [state, notBlank, parses]
    · simp [state, notBlank, fails]

end Hole

@[simp] theorem Node.kindName_mapHole (change : Hole → Hole) (node : Node) :
    (node.mapHole change).kindName = node.kindName := by
  cases node <;> rfl

/-! ## Prevalidation of a whole session -/

namespace Session

structure Examined (session : Session) (ids : List NodeId)
    (after : Session) : Prop where
  order : after.order = session.order
  steady : after.sheet.Steady
  nodes : ∀ id, after.sheet.get? id =
    (session.sheet.get? id).map fun node =>
      if id ∈ ids then node.mapHole Hole.examined else node

private theorem examined_one {session : Session} (h : session.sheet.Steady)
    (id : NodeId) :
    session.Examined [id]
      (if session.isBlankHole id then session
        else (session.prevalidate id).2) := by
  cases present : session.sheet.hole? id with
  | none =>
      have blank : session.isBlankHole id = true := by
        simp [isBlankHole, Worksheet.attempt?, present]
      rw [if_pos blank]
      refine ⟨rfl, h, fun other => ?_⟩
      cases there : session.sheet.get? other with
      | none => rfl
      | some node =>
          by_cases same : other = id
          · subst same
            rw [Worksheet.hole?, there] at present
            cases node with
            | hole content => cases present
            | given assertion feedback => simp [Node.mapHole]
            | command program feedback => simp [Node.mapHole]
            | remark body => simp [Node.mapHole]
          · simp [same]
  | some hole =>
      have found := Worksheet.hole?_eq_some_iff.mp present
      have blank : session.isBlankHole id =
          (Text.trimChars hole.attempt.toList).isEmpty := by
        simp [isBlankHole, Worksheet.attempt?_of_hole found]
      have nodes (other : NodeId) :
          (if id = other then some (.hole hole.examined)
            else session.sheet.get? other) =
          (session.sheet.get? other).map fun node =>
            if other ∈ [id] then node.mapHole Hole.examined else node := by
        by_cases same : id = other
        · subst same
          simp [found, Node.mapHole]
        · simp [same, Ne.symm same]
      rw [blank]
      split
      case isTrue empty =>
        refine ⟨rfl, h, fun other => ?_⟩
        rw [← nodes, Hole.examined, if_pos empty]
        split
        case isTrue same => rw [← same, found]
        case isFalse => rfl
      case isFalse filled =>
        refine ⟨rfl, h.prevalidate id, fun other => ?_⟩
        rw [← nodes, Hole.examined, if_neg filled]
        simp only [prevalidate, h.settled.prevalidate found,
          Worksheet.get?_setNode found]

private theorem examined_all {session : Session} (h : session.sheet.Steady)
    {ids : List NodeId} (distinct : ids.Nodup) :
    session.Examined ids
      (ids.foldl
        (fun session id =>
          if session.isBlankHole id then session
          else (session.prevalidate id).2)
        session) := by
  induction ids generalizing session with
  | nil => exact ⟨rfl, h, fun id => by simp⟩
  | cons id ids ih =>
      obtain ⟨absent, others⟩ := List.nodup_cons.mp distinct
      have first := examined_one h id
      have rest := ih first.steady others
      refine ⟨rest.order.trans first.order, rest.steady, fun other => ?_⟩
      rw [List.foldl_cons, rest.nodes, first.nodes, Option.map_map]
      congr 1
      funext node
      by_cases same : other = id
      · simp [same, absent]
      · simp [same]

private theorem steady_fill {session filled : Session}
    {given : List (Nat × String)} (h : session.sheet.Steady)
    (done : session.fill given = .ok filled) : filled.sheet.Steady := by
  unfold fill at done
  induction given generalizing session with
  | nil =>
      cases done
      exact h
  | cons attempt given ih =>
      rw [List.foldlM_cons] at done
      obtain ⟨next, first, rest⟩ := bind_eq_ok_iff.mp done
      refine ih ?_ rest
      unfold fillOne at first
      split at first
      case h_1 => cases first
      case h_2 id _ =>
        split at first
        case isTrue =>
          cases first
          exact h.setAttempt id attempt.2
        case isFalse => cases first

end Session

/-! ## The triple at which a walk finds a gap -/

private theorem Walks.incomplete_iff_praised {σ : Type} {checker : Checker σ}
    {value? : TripleRef → Option Triple} {triples : List TripleRef}
    {state last : σ} {calls : List Call}
    {ending : Except VerifyError StopReason}
    (h : Walks checker value? triples state calls ending last)
    (distinct : triples.Nodup) (triple : TripleRef) :
    ending = .ok (.incomplete triple) ↔
      ∃ before after, triples = before ++ triple :: after ∧
        value? triple = none ∧
        ∀ earlier ∈ before, value? earlier ≠ none ∧
          ∃ feedback, (earlier, feedback) ∈ verdicts triples calls ∧
            feedback.isCorrect = true := by
  induction h with
  | completed => simp
  | @incomplete first rest _ missing =>
      constructor
      · rintro ⟨⟩
        exact ⟨[], rest, rfl, missing, by simp⟩
      · rintro ⟨before, after, split, -, praised⟩
        cases before with
        | nil =>
            cases split
            rfl
        | cons head before =>
            cases split
            exact absurd missing (praised _ List.mem_cons_self).1
  | @failed first _ _ _ _ _ found answered =>
      refine iff_of_false (by simp) ?_
      rintro ⟨before, after, split, missing, praised⟩
      cases before with
      | nil =>
          cases split
          simp [found] at missing
      | cons head before =>
          cases split
          obtain ⟨-, feedback, judged, -⟩ := praised _ List.mem_cons_self
          simp at judged
  | @incorrect first _ _ _ _ _ found answered refused =>
      refine iff_of_false (by simp) ?_
      rintro ⟨before, after, split, missing, praised⟩
      cases before with
      | nil =>
          cases split
          simp [found] at missing
      | cons head before =>
          cases split
          obtain ⟨-, feedback, judged, praise⟩ := praised _ List.mem_cons_self
          simp only [verdicts_ok, verdicts_nil, List.mem_singleton,
            Prod.mk.injEq, true_and] at judged
          simp [judged, refused] at praise
  | @correct first rest _ _ _ _ feedback calls _ found _ praise _ ih =>
      obtain ⟨fresh, others⟩ := List.nodup_cons.mp distinct
      rw [ih others]
      constructor
      · rintro ⟨before, after, rfl, missing, praised⟩
        refine ⟨first :: before, after, rfl, missing, fun earlier mem => ?_⟩
        rw [verdicts_ok]
        rcases List.mem_cons.mp mem with rfl | mem
        · exact ⟨by simp [found], feedback, List.mem_cons_self, praise⟩
        · obtain ⟨value, verdict, judged, correct⟩ := praised earlier mem
          exact ⟨value, verdict, List.mem_cons_of_mem _ judged, correct⟩
      · rintro ⟨before, after, split, missing, praised⟩
        cases before with
        | nil =>
            cases split
            simp [found] at missing
        | cons head before =>
            cases split
            refine ⟨before, after, rfl, missing, fun earlier mem => ?_⟩
            obtain ⟨value, verdict, judged, correct⟩ :=
              praised earlier (List.mem_cons_of_mem _ mem)
            rw [verdicts_ok] at judged
            -- No triple comes twice, so this verdict is a later one.
            have other : earlier ≠ first := by
              rintro rfl
              exact fresh (List.mem_append_left _ mem)
            refine ⟨value, verdict, ?_, correct⟩
            exact (List.mem_cons.mp judged).resolve_left fun same =>
              other (congrArg Prod.fst same)

/-! ## A pass over an exercise -/

/-- The hole has this text, and its state is what a pass makes of that. -/
structure Worksheet.Holds (sheet : Worksheet) (id : NodeId) (text : String) :
    Prop where
  typed : sheet.attempt? id = some text
  prevalidated : sheet.holeState? id = some .prevalidated ↔
    ¬ Attempt.Blank text ∧ Attempt.Parses text
  failed : sheet.holeState? id = some .prevalidationFailed ↔
    ¬ Attempt.Blank text ∧ ¬ Attempt.Parses text
  unvalidated : sheet.holeState? id = some .unvalidated ↔
    Attempt.Blank text

/--
What a pass over these steps leaves behind, if these attempts were filled in
and these calls of the checker were made.
-/
structure Passed (steps : List Step) (given : List (Nat × String))
    (calls : List Call) (result : Except VerifyError Submission)
    (sheet : Worksheet) : Prop where
  holes : ∀ {id : NodeId} {prompt : String},
    steps[id]? = some (.hole prompt) →
      sheet.Holds id (Attempt.lastText given id)
  /-- The triple is the last with a gap, and those after it were praised. -/
  incomplete : ∀ triple : TripleRef,
    (∃ checked, result = .ok ⟨checked, .incomplete triple⟩) ↔
      ∃ before after,
        (Session.ofSteps steps).triples = before ++ triple :: after ∧
        Attempt.Gap steps given triple ∧
        ∀ later ∈ after, ¬ Attempt.Gap steps given later ∧
          ∃ feedback,
            (later, feedback) ∈
              verdicts (Session.ofSteps steps).triples.reverse calls ∧
            feedback.isCorrect = true

namespace Session

private theorem nodup_triples (steps : List Step) :
    (ofSteps steps).triples.Nodup := by
  have reachable : (ofSteps steps).Reachable :=
    ⟨_, .scripted, steps, ⟨[], []⟩, [], rfl⟩
  exact reachable.triples_increasing.imp fun less same => by simp [same] at less

section

variable {steps : List Step} {given : List (Nat × String)} {after : Session}
  (h : (withTexts steps given).Examined (withTexts steps given).holes after)

include h

theorem Examined.hole?_eq_some_iff {id : NodeId} {hole : Hole} :
    after.sheet.hole? id = some hole ↔
      ∃ prompt, steps[id]? = some (.hole prompt) ∧
        hole = Hole.examined
          { prompt, attempt := Attempt.lastText given id } := by
  rw [Worksheet.hole?_eq_some_iff, h.nodes, get?_withTexts]
  cases found : steps[id]? with
  | none => simp
  | some step =>
      cases step with
      | hole prompt =>
          have inside := (List.getElem?_eq_some_iff.mp found).1
          have visited : id ∈ (withTexts steps given).holes :=
            List.mem_filter.mpr ⟨List.mem_range.mpr inside,
              (isHole_withTexts steps given id).mpr ⟨prompt, found⟩⟩
          simp [visited, Node.ofStep, Node.mapHole, eq_comm]
      | assertion assertion => simp [Node.ofStep, Node.mapHole]
      | command program => simp [Node.ofStep, Node.mapHole]
      | remark body => simp [Node.ofStep, Node.mapHole]

theorem Examined.triples_eq : after.triples = (ofSteps steps).triples := by
  have kinds : after.sheet.kind? = (ofSteps steps).sheet.kind? := by
    funext id
    have fresh : (ofSteps steps).sheet.get? id = steps[id]?.map .ofStep :=
      List.getElem?_map
    unfold Worksheet.kind?
    rw [h.nodes, get?_withTexts, fresh, Option.map_map, Option.map_map,
      Option.map_map]
    congr 1
    funext step
    simp only [Function.comp_apply]
    split <;> simp
  rw [triples, triples, Worksheet.segment_of_kinds kinds, h.order]
  rfl

theorem Examined.ready_iff (triple : TripleRef) :
    after.sheet.Ready triple ↔ ¬ Attempt.Gap steps given triple := by
  constructor
  · rintro ready ⟨id, mem, ⟨prompt, found⟩, gap⟩
    have state := ready id mem _ (h.hole?_eq_some_iff.mpr ⟨prompt, found, rfl⟩)
    obtain ⟨filled, parses⟩ := (Hole.state_examined rfl).1.mp state
    exact gap.elim filled (absurd parses)
  · intro noGap id mem hole there
    obtain ⟨prompt, found, rfl⟩ := h.hole?_eq_some_iff.mp there
    refine (Hole.state_examined rfl).1.mpr ⟨fun blank => ?_, ?_⟩
    · exact noGap ⟨id, mem, ⟨prompt, found⟩, .inl blank⟩
    · refine not_not.mp fun fails => ?_
      exact noGap ⟨id, mem, ⟨prompt, found⟩, .inr fails⟩

theorem Examined.triple?_eq_none_iff {triple : TripleRef}
    (mem : triple ∈ after.triples) :
    after.sheet.triple? triple = none ↔ Attempt.Gap steps given triple := by
  rw [h.steady.triple?_eq_none_iff (isTriple_of_mem_triples mem),
    h.ready_iff, not_not]

theorem Examined.holds {sheet : Worksheet}
    (kept : sheet.contents = after.sheet.contents) {id : NodeId}
    {prompt : String} (found : steps[id]? = some (.hole prompt)) :
    sheet.Holds id (Attempt.lastText given id) := by
  have hole := Worksheet.hole?_eq_some_iff.mp
    (h.hole?_eq_some_iff.mpr ⟨prompt, found, rfl⟩)
  have state : sheet.holeState? id = some (Hole.examined
      { prompt, attempt := Attempt.lastText given id }).state := by
    rw [Worksheet.holeState?_of_contents kept, Worksheet.holeState?, hole]
    rfl
  obtain ⟨prevalidated, failed, unvalidated⟩ :=
    @Hole.state_examined { prompt, attempt := Attempt.lastText given id } rfl
  constructor
  · rw [Worksheet.attempt?_of_contents kept, Worksheet.attempt?_of_hole hole,
      Hole.attempt_examined]
  · rw [state, Option.some_inj, prevalidated]
  · rw [state, Option.some_inj, failed]
  · rw [state, Option.some_inj, unvalidated]

theorem Examined.incomplete_iff {σ : Type} {checker : Checker σ}
    {state last : σ} {calls : List Call}
    {ending : Except VerifyError StopReason}
    (walk : Walks checker after.sheet.triple? (ofSteps steps).triples.reverse
      state calls ending last)
    (triple : TripleRef) :
    ending = .ok (.incomplete triple) ↔
      ∃ before after,
        (ofSteps steps).triples = before ++ triple :: after ∧
        Attempt.Gap steps given triple ∧
        ∀ later ∈ after, ¬ Attempt.Gap steps given later ∧
          ∃ feedback,
            (later, feedback) ∈
              verdicts (ofSteps steps).triples.reverse calls ∧
            feedback.isCorrect = true := by
  have gap {other : TripleRef} (mem : other ∈ (ofSteps steps).triples) :
      after.sheet.triple? other = none ↔ Attempt.Gap steps given other :=
    h.triple?_eq_none_iff (h.triples_eq ▸ mem)
  rw [walk.incomplete_iff_praised
    (List.nodup_reverse.mpr (nodup_triples steps))]
  constructor
  · rintro ⟨before, rest, split, missing, praised⟩
    have order : (ofSteps steps).triples =
        rest.reverse ++ triple :: before.reverse := by
      rw [← List.reverse_reverse (ofSteps steps).triples, split]
      simp
    refine ⟨rest.reverse, before.reverse, order,
      (gap (by simp [order])).mp missing, fun later mem => ?_⟩
    obtain ⟨value, judged⟩ := praised later (List.mem_reverse.mp mem)
    refine ⟨fun gapped => value ((gap ?_).mpr gapped), judged⟩
    rw [order]
    exact List.mem_append_right _ (List.mem_cons_of_mem _ mem)
  · rintro ⟨before, rest, order, missing, praised⟩
    refine ⟨rest.reverse, before.reverse, by simp [order],
      (gap (by simp [order])).mpr missing, fun later mem => ?_⟩
    obtain ⟨filled, judged⟩ := praised later (List.mem_reverse.mp mem)
    refine ⟨fun missing => filled ((gap ?_).mp missing), judged⟩
    rw [order]
    exact List.mem_append_right _
      (List.mem_cons_of_mem _ (List.mem_reverse.mp mem))

end

private theorem passed_runPass {steps : List Step} {given : List (Nat × String)}
    (steady : (withTexts steps given).sheet.Steady) {σ : Type}
    (checker : Checker σ) (state : σ) :
    let pass := (withTexts steps given).runPass checker state
    let recorded :=
      (withTexts steps given).runPass checker.recording (state, [])
    Passed steps given recorded.2.2.2 pass.1 pass.2.1.sheet := by
  have examined : (withTexts steps given).Examined
      (withTexts steps given).holes (withTexts steps given).prevalidateFilled :=
    examined_all steady (List.nodup_range.filter _)
  have onlyClearing := examined.steady.settled.orderly.onlyClearing
  obtain ⟨calls, ending, last, walk, plain, recorded⟩ :=
    walks_submit checker onlyClearing state
  rw [examined.triples_eq] at walk plain recorded
  simp only [runPass, plain, recorded]
  refine ⟨examined.holds (Worksheet.keeps_routeAll onlyClearing _).contents,
    fun triple => ?_⟩
  simp only [report_eq_ok_iff, exists_eq_left]
  exact examined.incomplete_iff walk triple

end Session

namespace Exercise

section

variable {σ : Type} {exercise : Exercise} {attempts : List (Nat × String)}
  {solver : Solver σ} {state : σ}

theorem check_eq_fill_error_iff {error : FillError} :
    exercise.check attempts solver state = .error (.fill error) ↔
      (Session.ofSteps exercise.steps).fill (exercise.attempts ++ attempts) =
        .error error := by
  unfold check
  rw [bind_eq_error_iff]
  constructor
  · rintro (refused | ⟨session, -, failed⟩)
    · obtain ⟨_, refused, same⟩ := mapError_eq_error_iff.mp refused
      cases same
      exact refused
    · rcases bind_eq_error_iff.mp failed with unjudged | ⟨_, -, done⟩
      · obtain ⟨_, -, same⟩ := mapError_eq_error_iff.mp unjudged
        cases same
      · cases done
  · intro refused
    exact .inl (mapError_eq_error_iff.mpr ⟨error, refused, rfl⟩)

theorem check_eq_ok_iff {result : CheckResult} :
    exercise.check attempts solver state = .ok result ↔
      ∃ session last,
        (Session.ofSteps exercise.steps).fill
            (exercise.attempts ++ attempts) = .ok session ∧
          session.runPass (exercise.config.checker solver) state =
            (.ok result.submission, result.session, last) ∧
          result.exercise = exercise := by
  unfold check
  rw [bind_eq_ok_iff]
  simp only [mapError_eq_ok_iff]
  constructor
  · rintro ⟨session, filled, done⟩
    obtain ⟨submission, judged, done⟩ := bind_eq_ok_iff.mp done
    cases done
    rw [mapError_eq_ok_iff] at judged
    exact ⟨session, _, filled, by rw [← judged], rfl⟩
  · rintro ⟨session, last, filled, passed, rfl⟩
    exact ⟨session, filled, by rw [passed]; rfl⟩

end

def filledFile : ExerciseFile :=
  let hole : StepEntry :=
    { kind := .hole, attempt := some "\x7b true \x7d" }
  let skip : StepEntry := { kind := .command, text := "skip;" }
  { steps := [hole, skip, hole, skip, hole] }

def filledExercise : Exercise where
  title := none
  config := {}
  steps :=
    [.hole Step.defaultPrompt, .command ⟨"skip;", .skip⟩,
      .hole Step.defaultPrompt, .command ⟨"skip;", .skip⟩,
      .hole Step.defaultPrompt]
  attempts :=
    [(0, "\x7b true \x7d"), (2, "\x7b true \x7d"), (4, "\x7b true \x7d")]

private theorem ofFile_filledFile : ofFile filledFile = .ok filledExercise :=
  eq_ok_of_toOption (by decide +kernel)

def blankedAttempts : List (Nat × String) :=
  filledExercise.attempts ++ [(0, " ")]

def blankedSession : Session :=
  .withTexts filledExercise.steps blankedAttempts

def blankedPass :
    Except VerifyError Submission × Session × Prepared Feedback Triple :=
  blankedSession.runPass .scripted ⟨[.correct "fine"], []⟩

end Exercise

end ProofOutline
