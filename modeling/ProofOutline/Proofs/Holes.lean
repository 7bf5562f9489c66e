import ProofOutline.Proofs.Clearing
import ProofOutline.Proofs.Routing
import ProofOutline.Proofs.Submission

/-!
# The states of holes

Feedback reaches a hole from four sides: a verdict, the clearing of a triple, a
parse error, and the end of a parse error.  Through all of them a hole that is
prevalidated holds an assertion, and one whose prevalidation failed goes on to
show why.  What wipes feedback at an edit elsewhere is a listener of the triple,
and listeners are on holes whose attempts can be parsed.
-/

namespace ProofOutline

/-! ## One hole -/

theorem Feedback.shouldBeAddressed_iff (feedback : Feedback) :
    feedback.shouldBeAddressed = true ↔
      (∃ message, feedback.message = some message) ∧
        feedback.outcome ≠ .correct := by
  simp [shouldBeAddressed, isCorrect, Option.isSome_iff_exists]

structure Hole.Truthful (hole : Hole) : Prop where
  flag : hole.mustAddress = hole.feedback.shouldBeAddressed
  settled : hole.state ≠ .prevalidating
  parses : hole.state = .prevalidated →
    ∃ assertion, Source.parseAssertion hole.attempt = .ok assertion
  failed : hole.state = .prevalidationFailed →
    ∃ error, Source.parseAssertion hole.attempt = .error error ∧
      hole.feedback = .incorrect ("Parse error:\n" ++ error.message)

namespace Hole

def checked (hole : Hole) : Hole :=
  match Source.parseAssertion hole.attempt with
  | .ok _ =>
      let passed := { hole with state := .prevalidated }
      if hole.parseFeedback then passed.mark .empty else passed
  | .error error =>
      { hole.mark (.incorrect ("Parse error:\n" ++ error.message)) with
        state := .prevalidationFailed
        parseFeedback := true }

@[simp] theorem attempt_checked (hole : Hole) :
    hole.checked.attempt = hole.attempt := by
  unfold checked
  cases Source.parseAssertion hole.attempt with
  | ok assertion =>
      by_cases marked : hole.parseFeedback = true <;> simp [marked, mark]
  | error error => rfl

theorem Truthful.mark {hole : Hole} (h : hole.Truthful)
    (notFailed : hole.state ≠ .prevalidationFailed) (feedback : Feedback) :
    (hole.mark feedback).Truthful where
  flag := rfl
  settled := h.settled
  parses := h.parses
  failed failed := absurd failed notFailed

theorem Truthful.edit {hole : Hole} (h : hole.Truthful) (attempt : String) :
    Truthful { hole with attempt, state := .unvalidated } :=
  ⟨h.flag, by simp, by simp, by simp⟩

theorem Truthful.checked {hole : Hole} (h : hole.Truthful) :
    hole.checked.Truthful := by
  unfold Hole.checked
  cases parsed : Source.parseAssertion hole.attempt with
  | ok assertion =>
      have passed : Truthful { hole with state := .prevalidated } :=
        ⟨h.flag, by simp, fun _ => ⟨assertion, parsed⟩, by simp⟩
      by_cases marked : hole.parseFeedback = true
      · simp only [marked, if_true]
        simpa [marked] using passed.mark (by simp) .empty
      · simpa [marked] using passed
  | error error =>
      exact ⟨rfl, by simp, by simp, fun _ => ⟨error, parsed, rfl⟩⟩

end Hole

private theorem Node.isCore_of_complete {node : Node}
    (complete : node.assertion?.isSome ∨ node.program?.isSome) :
    node.isCore = true := by
  cases node with
  | remark body => simp [assertion?, program?] at complete
  | given assertion feedback => rfl
  | hole content => rfl
  | command program feedback => rfl

theorem Node.prevalidated_of_complete {hole : Hole}
    (complete : (Node.hole hole).assertion?.isSome ∨
      (Node.hole hole).program?.isSome) :
    hole.state = .prevalidated ∧
      ∃ assertion, Source.parseAssertion hole.attempt = .ok assertion := by
  by_cases passed : hole.state = .prevalidated
  · refine ⟨passed, ?_⟩
    cases parsed : Source.parseAssertion hole.attempt with
    | ok assertion => exact ⟨assertion, rfl⟩
    | error error =>
        simp [assertion?, program?, parsed, Except.toOption] at complete
  · simp [assertion?, program?, passed] at complete

namespace Worksheet

/-! ## Prevalidation of a settled worksheet -/

private theorem Settled.setHoleState_twice {sheet : Worksheet}
    (h : sheet.Settled)
    {id : NodeId} {hole : Hole} (found : sheet.get? id = some (.hole hole))
    (first second : HoleState) :
    (sheet.setHoleState id first).setHoleState id second =
      sheet.setNode id (.hole { hole with state := second }) := by
  have written : (sheet.setNode id (.hole { hole with state := first })).Settled
    := h.setNode found rfl
  rw [h.setHoleState found, written.setHoleState (get?_setNode_self found _),
    setNode_setNode]

theorem Settled.prevalidate {sheet : Worksheet} (h : sheet.Settled)
    {id : NodeId} {hole : Hole} (found : sheet.get? id = some (.hole hole)) :
    (sheet.prevalidate id).2 = sheet.setNode id (.hole hole.checked) := by
  have attempt := attempt?_of_hole found
  have there (hole : Hole) := get?_setNode_self found (.hole hole)
  have quiet (state : HoleState) :
      (sheet.setNode id (.hole { hole with state })).Settled :=
    h.setNode found rfl
  unfold Worksheet.prevalidate Hole.checked
  rw [attempt]
  cases parsed : Source.parseAssertion hole.attempt with
  | ok assertion =>
      have verdict : prevalidation hole.attempt = .empty := by
        simp [prevalidation, parsed]
      simp only [verdict, show Feedback.empty.isEmpty = true from rfl, if_true,
        h.setHoleState_twice found, hole?_eq_some_iff.mpr (there _)]
      by_cases marked : hole.parseFeedback = true
      · simp only [marked, if_true]
        have cleared := (quiet .prevalidated).setFeedback_hole (there _) .empty
        rw [setNode_setNode] at cleared
        simpa [marked] using cleared
      · simp [marked]
  | error error =>
      have verdict : prevalidation hole.attempt =
          .incorrect ("Parse error:\n" ++ error.message) := by
        simp [prevalidation, parsed]
      have told (message : String) : (Feedback.incorrect message).isEmpty =
        false := rfl
      simp only [verdict, told, Bool.false_eq_true, if_false,
        h.setHoleState_twice found,
        (quiet .prevalidationFailed).setParseFeedback (there _),
        setNode_setNode]
      rfl

theorem prevalidate_of_not_hole {sheet : Worksheet} {id : NodeId}
    (none : sheet.hole? id = none) : (sheet.prevalidate id).2 = sheet := by
  simp [prevalidate, attempt?, none]

/-! ## The invariant of a session -/

/-- What holds of the worksheet of a session between two actions. -/
structure Steady (sheet : Worksheet) : Prop where
  settled : sheet.Settled
  inProof : ∀ {id : Nat} {clearing : Clearing},
    sheet.Listens id clearing → ∀ node ∈ clearing.triple.nodes,
      sheet.isCore node = true
  readable : ∀ {id : Nat} {clearing : Clearing},
    sheet.Listens id clearing →
      ∃ assertion, Source.parseAssertion clearing.before = .ok assertion
  truthful : ∀ {id : NodeId} {hole : Hole},
    sheet.get? id = some (.hole hole) → hole.Truthful

theorem steady_ofSteps (steps : List Step) : (ofSteps steps).Steady := by
  have nobody {id : Nat} {clearing : Clearing}
      (listens : (ofSteps steps).Listens id clearing) : False :=
    List.not_mem_nil listens
  refine ⟨⟨?_, fun listens => (nobody listens).elim⟩,
    fun listens => (nobody listens).elim,
    fun listens => (nobody listens).elim, ?_⟩
  · exact {
      onlyClearing := onlyClearing_ofSteps steps
      distinct := List.nodup_nil
      issued := fun listens => (nobody listens).elim
      issuedMembers := fun mem => absurd mem List.not_mem_nil
      issuedRecords := fun mem => absurd mem List.not_mem_nil
      waiting := fun listens => (nobody listens).elim
      grouped := fun listens => (nobody listens).elim
      recorded := fun listens => (nobody listens).elim
      inTriple := fun listens => (nobody listens).elim
      everyHole := fun listens => (nobody listens).elim }
  · intro id hole found
    have placed : (steps.map Node.ofStep)[id]? = some (.hole hole) := found
    rw [List.getElem?_map, Option.map_eq_some_iff] at placed
    obtain ⟨step, -, same⟩ := placed
    cases step with
    | hole prompt =>
        cases same
        exact ⟨rfl, by simp, by simp, by simp⟩
    | assertion assertion => cases same
    | command program => cases same
    | remark body => cases same

private theorem Steady.not_failed {sheet : Worksheet} (h : sheet.Steady)
    {triple : TripleRef} {id : NodeId} {hole : Hole}
    (awaits : sheet.Awaits triple) (mem : id ∈ triple.nodes)
    (found : sheet.get? id = some (.hole hole)) :
    hole.state ≠ .prevalidationFailed := by
  intro failed
  have attempt := attempt?_of_hole found
  obtain ⟨number, clearing, listens, rfl⟩ := awaits
  obtain ⟨other, sibling, there, -, rfl⟩ :=
    h.settled.orderly.everyHole listens mem (by simp [attempt])
  have recalled := (h.settled.recalls there).mpr (by simp)
  obtain ⟨assertion, parsed⟩ := h.readable there
  obtain ⟨error, unparsed, -⟩ := (h.truthful found).failed failed
  rw [attempt] at recalled
  rw [Option.some.inj recalled, parsed] at unparsed
  cases unparsed

private theorem isCore_of_map {sheet after : Worksheet} {id : NodeId}
    {change : Node → Node} (nodes : after.get? id = (sheet.get? id).map change)
    (same : ∀ node, (change node).isCore = node.isCore) :
    after.isCore id = sheet.isCore id := by
  unfold isCore
  rw [nodes, Option.map_map]
  congr 2
  exact funext same

/-! ## Every action keeps it -/

private theorem get?_edit_hole {sheet : Worksheet} {target id : NodeId}
    {text : String} {hole : Hole}
    (found : (sheet.edit target text).get? id = some (.hole hole)) :
    (∃ old, sheet.get? id = some (.hole old) ∧
        hole = { old with attempt := text, state := .unvalidated }) ∨
      sheet.get? id = some (.hole hole) := by
  rw [edit, get?_alter, Option.map_eq_some_iff] at found
  obtain ⟨node, there, changed⟩ := found
  by_cases same : target = id
  · rw [if_pos same] at changed
    cases node with
    | hole content =>
        cases changed
        exact .inl ⟨content, there, rfl⟩
    | given assertion feedback => cases changed
    | command program feedback => cases changed
    | remark body => cases changed
  · rw [if_neg same] at changed
    exact .inr (changed ▸ there)

theorem Steady.truthful_edit {sheet : Worksheet} (h : sheet.Steady)
    (target : NodeId) (text : String) {id : NodeId} {hole : Hole}
    (found : (sheet.edit target text).get? id = some (.hole hole)) :
    hole.Truthful := by
  rcases get?_edit_hole found with ⟨old, there, rfl⟩ | there
  · exact (h.truthful there).edit text
  · exact h.truthful there

private theorem Steady.not_failed_edit {sheet : Worksheet} (h : sheet.Steady)
    {target id : NodeId} {text : String} {triple : TripleRef} {hole : Hole}
    (awaits : sheet.Awaits triple) (mem : id ∈ triple.nodes)
    (found : (sheet.edit target text).get? id = some (.hole hole)) :
    hole.state ≠ .prevalidationFailed := by
  rcases get?_edit_hole found with ⟨old, there, rfl⟩ | there
  · simp
  · exact h.not_failed awaits mem there

@[simp] theorem isCore_edit (sheet : Worksheet) (target : NodeId)
    (text : String) (id : NodeId) :
    (sheet.edit target text).isCore id = sheet.isCore id := by
  refine isCore_of_map (get?_alter sheet target id _) fun node => ?_
  split <;> simp

theorem Steady.setAttempt {sheet : Worksheet} (h : sheet.Steady)
    (target : NodeId) (text : String) :
    (sheet.setAttempt target text).Steady := by
  have settled := h.settled.setAttempt target text
  cases found : sheet.attempt? target with
  | none =>
      rw [setAttempt_of_not_hole found]
      exact h
  | some old =>
      by_cases same : text = old
      · subst same
        rw [h.settled.setAttempt_same found] at settled ⊢
        refine ⟨settled, fun listens node mem => ?_, h.readable,
          h.truthful_edit target text⟩
        rw [isCore_edit]
        exact h.inProof listens node mem
      · obtain ⟨cleared, -, effect, which⟩ :=
          h.settled.setAttempt_cleared found same
        have old {id : Nat} {clearing : Clearing}
            (listens : (sheet.setAttempt target text).Listens id clearing) :
            sheet.Listens id clearing := by
          unfold Listens at listens
          rw [effect.subscriptions] at listens
          exact (List.mem_filter.mp listens).1
        refine ⟨settled, fun listens node mem => ?_,
          fun listens => h.readable (old listens), ?_⟩
        · rw [isCore_of_map (effect.nodes node) (fun node => by
            split <;> simp), isCore_edit]
          exact h.inProof (old listens) node mem
        · intro id hole there
          rw [effect.nodes, Option.map_eq_some_iff] at there
          obtain ⟨node, written, marked⟩ := there
          split at marked
          case isTrue wiped =>
            obtain ⟨triple, mem, inside⟩ : ∃ triple ∈ cleared,
                id ∈ triple.nodes := by
              simpa [Duty.wipes] using wiped
            obtain ⟨content, rfl, rfl⟩ := Node.mark_eq_hole_iff.mp marked
            have notFailed :=
              h.not_failed_edit ((which triple).mp mem).2 inside written
            exact (h.truthful_edit target text written).mark notFailed .empty
          case isFalse => exact h.truthful_edit target text (marked ▸ written)

theorem Steady.prevalidate {sheet : Worksheet} (h : sheet.Steady)
    (target : NodeId) : (sheet.prevalidate target).2.Steady := by
  cases present : sheet.hole? target with
  | none =>
      rw [prevalidate_of_not_hole present]
      exact h
  | some hole =>
      have found := hole?_eq_some_iff.mp present
      rw [h.settled.prevalidate found]
      refine ⟨h.settled.setNode found ?_, fun listens node mem => ?_,
        h.readable, fun there => ?_⟩
      · exact congrArg some hole.attempt_checked
      · have core := h.inProof listens node mem
        unfold isCore at core ⊢
        rw [get?_setNode found]
        split
        case isTrue => rfl
        case isFalse => exact core
      · rw [get?_setNode found] at there
        split at there
        case isTrue =>
          cases there
          exact (h.truthful found).checked
        case isFalse => exact h.truthful there

theorem complete_of_triple? {sheet : Worksheet} {triple : TripleRef}
    {value : Triple} (found : sheet.triple? triple = some value)
    {id : NodeId} (mem : id ∈ triple.nodes) :
    ∃ node, sheet.get? id = some node ∧
      (node.assertion?.isSome ∨ node.program?.isSome) := by
  unfold triple? at found
  split at found
  case h_2 => cases found
  case h_1 pre program post preFound programFound postFound =>
    rw [assertion?_eq, Option.bind_eq_some_iff] at preFound postFound
    rw [program?_eq, Option.bind_eq_some_iff] at programFound
    rcases List.mem_cons.mp mem with rfl | mem
    · obtain ⟨node, there, reads⟩ := preFound
      exact ⟨node, there, .inl (by simp [reads])⟩
    rcases List.mem_cons.mp mem with rfl | mem
    · obtain ⟨node, there, reads⟩ := programFound
      exact ⟨node, there, .inr (by simp [reads])⟩
    · cases List.mem_singleton.mp mem
      obtain ⟨node, there, reads⟩ := postFound
      exact ⟨node, there, .inl (by simp [reads])⟩

theorem Steady.route {sheet : Worksheet} (h : sheet.Steady)
    {triple : TripleRef} {value : Triple}
    (found : sheet.triple? triple = some value) (feedback : Feedback) :
    (sheet.route triple feedback).Steady := by
  have kept := keeps_route triple feedback h.settled.orderly.onlyClearing
  refine ⟨h.settled.route triple feedback, fun listens node mem => ?_,
    fun listens => ?_, fun there => ?_⟩
  · rw [isCore_of_contents kept.contents]
    rcases h.settled.listens_route listens with old | ⟨rfl, -, -⟩
    · exact h.inProof old node mem
    · obtain ⟨content, there, complete⟩ := complete_of_triple? found mem
      simp [isCore, there, Node.isCore_of_complete complete]
  · rcases h.settled.listens_route listens with old | ⟨rfl, mem, attempt⟩
    · exact h.readable old
    · obtain ⟨content, there, complete⟩ := complete_of_triple? found mem
      rw [attempt?_eq, there, Option.bind_some] at attempt
      cases content with
      | hole hole =>
          rw [← Option.some.inj attempt]
          exact (Node.prevalidated_of_complete complete).2
      | given assertion feedback => cases attempt
      | command program feedback => cases attempt
      | remark body => cases attempt
  · rw [h.settled.get?_route, Option.map_eq_some_iff] at there
    obtain ⟨node, before, marked⟩ := there
    split at marked
    case isTrue mem =>
      obtain ⟨old, rfl, rfl⟩ := Node.mark_eq_hole_iff.mp marked
      obtain ⟨content, same, complete⟩ := complete_of_triple? found mem
      cases before.symm.trans same
      have passed := (Node.prevalidated_of_complete complete).1
      exact (h.truthful before).mark (by simp [passed]) _
    case isFalse => exact h.truthful (marked ▸ before)

theorem Steady.submitFrom {σ : Type} (checker : Checker σ)
    (triples checked : List TripleRef) {sheet : Worksheet} (h : sheet.Steady)
    (state : σ) :
    (sheet.submitFrom checker triples checked state).2.1.Steady := by
  induction triples generalizing checked sheet state with
  | nil => exact h
  | cons triple rest ih =>
      unfold Worksheet.submitFrom
      split
      case h_1 => exact h
      case h_2 value found =>
        split
        case h_1 => exact h
        case h_2 feedback next answered =>
          have routed := h.route found feedback
          simp only
          split
          case isTrue => exact ih _ routed next
          case isFalse => exact routed

end Worksheet

namespace Session

private theorem steady_act {σ : Type} (checker : Checker σ) (session : Session)
    (state : σ) (action : Action) (h : session.sheet.Steady) :
    (act checker (session, state) action).1.sheet.Steady := by
  cases action with
  | setAttempt id attempt => exact h.setAttempt id attempt
  | prevalidate id => exact h.prevalidate id
  | submit => exact h.submitFrom checker session.triples.reverse [] state

theorem Reachable.steady {session : Session} (h : session.Reachable) :
    session.sheet.Steady :=
  h.invariant (fun session => session.sheet.Steady)
    (fun steps => Worksheet.steady_ofSteps steps) steady_act

/-! ## What a hole says of itself -/

/-- In every session that can come about, holes are what their state says. -/
theorem hole_states_truthful {session : Session}
    (reachable : session.Reachable) {id : NodeId} {hole : Hole}
    (found : session.sheet.hole? id = some hole) :
    hole.state ≠ .prevalidating ∧
      (hole.state = .prevalidated → ∃ assertion,
        Source.parseAssertion hole.attempt = .ok assertion ∧
          session.sheet.holeAssertion? id = some assertion) ∧
      (hole.state = .prevalidationFailed → ∃ error,
        Source.parseAssertion hole.attempt = .error error ∧
          hole.feedback = .incorrect ("Parse error:\n" ++ error.message) ∧
          hole.mustAddress = true) ∧
      hole.mustAddress = hole.feedback.shouldBeAddressed ∧
      (session.sheet.canSubmit id = true ↔ hole.state = .prevalidated ∧
        ∀ message, hole.feedback.message = some message →
          hole.feedback.outcome = .correct) := by
  have truthful := reachable.steady.truthful
    (Worksheet.hole?_eq_some_iff.mp found)
  refine ⟨truthful.settled, fun passed => ?_, fun failed => ?_,
    truthful.flag, ?_⟩
  · obtain ⟨assertion, parsed⟩ := truthful.parses passed
    refine ⟨assertion, parsed, ?_⟩
    simp [Worksheet.holeAssertion?, found, passed, parsed, Except.toOption]
  · obtain ⟨error, unparsed, told⟩ := truthful.failed failed
    refine ⟨error, unparsed, told, ?_⟩
    rw [truthful.flag, told]
    rfl
  · rw [Worksheet.canSubmit, found]
    simp only [truthful.flag, Bool.and_eq_true, beq_iff_eq, Bool.not_eq_true',
      ← Bool.not_eq_true, hole.feedback.shouldBeAddressed_iff]
    simp

def twoHoles : List Step :=
  [.hole Step.defaultPrompt, .command ⟨"skip;", .skip⟩,
    .hole Step.defaultPrompt]

def spoiltRun : Session × Prepared Feedback Triple :=
  run .scripted twoHoles ⟨[.incorrect "no"], []⟩
    [.setAttempt 0 "\x7b true \x7d", .prevalidate 0,
      .setAttempt 2 "\x7b true \x7d", .prevalidate 2, .submit,
      .setAttempt 2 "\x7b x", .prevalidate 2,
      .setAttempt 0 "\x7b false \x7d"]

/-- The parse error of the second hole outlasts the edit of the first. -/
theorem hole_states_truthful_spoilt :
    ∃ hole, spoiltRun.1.sheet.hole? 2 = some hole ∧ hole.attempt = "\x7b x" ∧
      ∃ error, Source.parseAssertion hole.attempt = .error error ∧
        hole.feedback = .incorrect ("Parse error:\n" ++ error.message) ∧
        hole.mustAddress = true := by
  have seen : (spoiltRun.1.sheet.hole? 2).map
      (fun hole => (hole.state, hole.attempt)) =
        some (.prevalidationFailed, "\x7b x") := by
    decide +kernel
  obtain ⟨hole, found, same⟩ := Option.map_eq_some_iff.mp seen
  have truthful := hole_states_truthful ⟨_, _, _, _, _, rfl⟩ found
  exact ⟨hole, found, congrArg Prod.snd same,
    truthful.2.2.1 (congrArg Prod.fst same)⟩

end Session

end ProofOutline
