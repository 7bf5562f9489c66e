import Mathlib.Data.List.Induction
import ProofOutline.Proofs.Editing
import ProofOutline.Proofs.Verdicts

/-!
# The last verdict on every node

Worksheets do not remember which verdict their feedback comes from.  Here a run
is told together with receipts: for every node, the last verdict that was put
onto it and the attempt that stood there at the time.

Complaints are tied to the text that they are about.  A complaint leaves
listeners behind that wipe it with the first edit, so that a hole that shows one
still holds the text which was turned down.  Praise leaves no listeners behind.
It stays through any edit, unless an older complaint about a neighbouring triple
wipes it by chance.
-/

namespace ProofOutline

/-! ## Receipts -/

/-- A verdict as it reached a node. -/
structure Receipt where
  triple : TripleRef
  verdict : Feedback
  /-- The part of the verdict that the node got. -/
  feedback : Feedback
  /-- What stood in the node, if it is a hole. -/
  attempt : Option String
  deriving DecidableEq

abbrev Receipts := NodeId → Option Receipt

namespace Worksheet

def receipt (sheet : Worksheet) (verdict : TripleRef × Feedback)
    (id : NodeId) : Receipt where
  triple := verdict.1
  verdict := verdict.2
  feedback := sheet.shown verdict.1 verdict.2 id
  attempt := sheet.attempt? id

/-- A verdict replaces the receipts of its three nodes. -/
def note (sheet : Worksheet) (receipts : Receipts)
    (verdict : TripleRef × Feedback) : Receipts := fun id =>
  if id ∈ verdict.1.nodes then some (sheet.receipt verdict id)
  else receipts id

def noteAll (sheet : Worksheet) (verdicts : List (TripleRef × Feedback))
    (receipts : Receipts) : Receipts :=
  verdicts.foldl sheet.note receipts

theorem noteAll_cases (sheet : Worksheet)
    (verdicts : List (TripleRef × Feedback)) (receipts : Receipts)
    (id : NodeId) :
    ((∀ verdict ∈ verdicts, id ∉ verdict.1.nodes) ∧
        sheet.noteAll verdicts receipts id = receipts id) ∨
      ∃ before verdict after, verdicts = before ++ verdict :: after ∧
        id ∈ verdict.1.nodes ∧ (∀ other ∈ after, id ∉ other.1.nodes) ∧
        sheet.noteAll verdicts receipts id =
          some (sheet.receipt verdict id) := by
  induction verdicts generalizing receipts with
  | nil => exact .inl ⟨by simp, rfl⟩
  | cons verdict verdicts ih =>
      rcases ih (sheet.note receipts verdict) with
        ⟨outside, same⟩ | ⟨before, last, after, rfl, inside, outside, same⟩
      · by_cases here : id ∈ verdict.1.nodes
        · refine .inr ⟨[], verdict, verdicts, rfl, here, outside, ?_⟩
          exact same.trans (if_pos here)
        · refine .inl ⟨List.forall_mem_cons.mpr ⟨here, outside⟩, ?_⟩
          exact same.trans (if_neg here)
      · exact .inr ⟨verdict :: before, last, after, rfl, inside, outside,
          same⟩

end Worksheet

/-! ## Runs with receipts -/

namespace Session

def noted {σ : Type} (checker : Checker σ) (session : Session) (state : σ)
    (receipts : Receipts) : Action → Receipts
  | .setAttempt _ _ | .prevalidate _ => receipts
  | .submit =>
      let calls := (session.submit checker.recording (state, [])).2.2.2
      session.sheet.noteAll (verdicts session.triples.reverse calls) receipts

def actNoting {σ : Type} (checker : Checker σ)
    (current : (Session × σ) × Receipts) (action : Action) :
    (Session × σ) × Receipts :=
  (act checker current.1 action,
    noted checker current.1.1 current.1.2 current.2 action)

def runNoting {σ : Type} (checker : Checker σ) (steps : List Step)
    (state : σ) (actions : List Action) : (Session × σ) × Receipts :=
  actions.foldl (actNoting checker) ((ofSteps steps, state), fun _ => none)

@[simp] theorem runNoting_fst {σ : Type} (checker : Checker σ)
    (steps : List Step) (state : σ) (actions : List Action) :
    (runNoting checker steps state actions).1 =
      run checker steps state actions := by
  unfold runNoting run
  generalize (ofSteps steps, state) = start, (fun _ => none) = receipts
  induction actions generalizing start receipts with
  | nil => rfl
  | cons action actions ih => exact ih _ _

def Recorded (session : Session) (receipts : Receipts) : Prop :=
  ∃ (σ : Type) (checker : Checker σ) (steps : List Step) (start : σ)
    (actions : List Action),
    (runNoting checker steps start actions).1.1 = session ∧
      (runNoting checker steps start actions).2 = receipts

theorem Recorded.reachable {session : Session} {receipts : Receipts}
    (h : session.Recorded receipts) : session.Reachable := by
  obtain ⟨σ, checker, steps, start, actions, rfl, -⟩ := h
  exact ⟨σ, checker, steps, start, actions, by rw [runNoting_fst]⟩

inductive Noting (session : Session) (receipts : Receipts) :
    Session → Receipts → Prop
  | setAttempt (id : NodeId) (text : String) :
      Noting session receipts (session.setAttempt id text) receipts
  | prevalidate (id : NodeId) :
      Noting session receipts (session.prevalidate id).2 receipts
  | submit {σ : Type} {checker : Checker σ} {state last : σ}
      {calls : List Call} {ending : Except VerifyError StopReason}
      (walk : Walks checker session.sheet.triple? session.triples.reverse
        state calls ending last) :
      Noting session receipts
        { session with
          sheet := session.sheet.routeAll
            (verdicts session.triples.reverse calls) }
        (session.sheet.noteAll (verdicts session.triples.reverse calls)
          receipts)

private theorem noting_act {σ : Type} (checker : Checker σ) {session : Session}
    (h : session.sheet.OnlyClearing) (state : σ) (receipts : Receipts)
    (action : Action) :
    Noting session receipts (act checker (session, state) action).1
      (noted checker session state receipts action) := by
  cases action with
  | setAttempt id text => exact .setAttempt id text
  | prevalidate id => exact .prevalidate id
  | submit =>
      obtain ⟨calls, ending, last, walk, plain, recorded⟩ :=
        walks_submit checker h state
      simp only [act, noted, plain, recorded]
      exact .submit walk

theorem Recorded.invariant (holds : Session → Receipts → Prop)
    (start : ∀ steps, holds (ofSteps steps) fun _ => none)
    (kept : ∀ {session after : Session} {receipts later : Receipts},
      session.Reachable → holds session receipts →
        Noting session receipts after later → holds after later)
    {session : Session} {receipts : Receipts}
    (recorded : session.Recorded receipts) : holds session receipts := by
  obtain ⟨σ, checker, steps, state, actions, rfl, rfl⟩ := recorded
  -- The last action meets a session that is reachable by those before it.
  induction actions using List.reverseRecOn with
  | nil => exact start steps
  | append_singleton actions action ih =>
      have reachable : (runNoting checker steps state
          actions).1.1.Reachable :=
        Recorded.reachable ⟨σ, checker, steps, state, actions, rfl, rfl⟩
      have step := noting_act checker
        reachable.steady.settled.orderly.onlyClearing
        (runNoting checker steps state actions).1.2
        (runNoting checker steps state actions).2 action
      simp only [runNoting, List.foldl_append, List.foldl_cons,
        List.foldl_nil] at reachable ih step ⊢
      exact kept reachable ih step

end Session

/-! ## Which triples await an edit -/

namespace Worksheet

@[simp] theorem awaits_clearOnFirstEdit {sheet : Worksheet}
    {triple other : TripleRef} {holes : List NodeId} :
    (sheet.clearOnFirstEdit triple holes).Awaits other ↔
      sheet.Awaits other ∨ other = triple ∧ holes ≠ [] := by
  unfold Awaits
  simp only [listens_clearOnFirstEdit]
  constructor
  · rintro ⟨id, clearing, old | ⟨i, hole, found, -, rfl⟩, rfl⟩
    · exact .inl ⟨id, clearing, old, rfl⟩
    · exact .inr ⟨rfl, List.ne_nil_of_mem (List.mem_of_getElem? found)⟩
  · rintro (⟨id, clearing, old, same⟩ | ⟨rfl, nonempty⟩)
    · exact ⟨id, clearing, .inl old, same⟩
    · obtain ⟨hole, holes, rfl⟩ := List.exists_cons_of_ne_nil nonempty
      exact ⟨_, _, .inr ⟨0, hole, rfl, rfl, rfl⟩, rfl⟩

theorem Settled.awaits_route_iff {sheet : Worksheet} (h : sheet.Settled)
    {triple other : TripleRef} {feedback : Feedback} :
    (sheet.route triple feedback).Awaits other ↔
      if other = triple then
        feedback.isCorrect = false ∧ triple.nodes.filter sheet.isHole ≠ []
      else sheet.Awaits other := by
  have marked : ((sheet.forget triple).markAll triple.nodes
      (sheet.shown triple feedback)).Awaits other ↔
        sheet.Awaits other ∧ other ≠ triple := by
    unfold Awaits
    simp only [h.listens_marked]
    constructor
    · rintro ⟨id, clearing, ⟨listens, different⟩, rfl⟩
      exact ⟨⟨id, clearing, listens, rfl⟩, different⟩
    · rintro ⟨⟨id, clearing, listens, rfl⟩, different⟩
      exact ⟨id, clearing, ⟨listens, different⟩, rfl⟩
  rw [h.route_eq]
  by_cases same : other = triple
  · subst same
    cases praise : feedback.isCorrect with
    | true => simp [marked]
    | false => simp [marked]
  · cases praise : feedback.isCorrect with
    | true => simp [marked, same]
    | false => simp [marked, same]

theorem Settled.awaits_routeAll_iff {sheet : Worksheet} (h : sheet.Settled)
    {verdicts : List (TripleRef × Feedback)} {triple : TripleRef}
    (outside : ∀ verdict ∈ verdicts, triple ≠ verdict.1) :
    (sheet.routeAll verdicts).Awaits triple ↔ sheet.Awaits triple := by
  induction verdicts generalizing sheet with
  | nil => rfl
  | cons verdict verdicts ih =>
      obtain ⟨here, later⟩ := List.forall_mem_cons.mp outside
      refine (ih (h.route verdict.1 verdict.2) later).trans ?_
      rw [h.awaits_route_iff, if_neg here]

/-- After several verdicts, the last on a triple decides. -/
theorem Settled.awaits_routeAll_last {sheet : Worksheet} (h : sheet.Settled)
    {before after : List (TripleRef × Feedback)}
    {verdict : TripleRef × Feedback}
    (outside : ∀ other ∈ after, verdict.1 ≠ other.1) :
    (sheet.routeAll (before ++ verdict :: after)).Awaits verdict.1 ↔
      verdict.2.isCorrect = false ∧
        verdict.1.nodes.filter sheet.isHole ≠ [] := by
  have kept := keeps_routeAll h.orderly.onlyClearing before
  have middle := h.routeAll before
  have isHole : (sheet.routeAll before).isHole = sheet.isHole := by
    funext id
    rw [isHole_eq, isHole_eq, attempt?_of_contents kept.contents]
  have split : sheet.routeAll (before ++ verdict :: after) =
      ((sheet.routeAll before).route verdict.1 verdict.2).routeAll after := by
    simp [Worksheet.routeAll]
  rw [split, (middle.route _ _).awaits_routeAll_iff outside,
    middle.awaits_route_iff, if_pos rfl, isHole]

theorem Cleared.awaits_iff {edited : Option NodeId} {duties : List Duty}
    {sheet after : Worksheet} {cleared : List TripleRef}
    (h : Cleared edited duties sheet cleared after) {triple : TripleRef} :
    after.Awaits triple ↔ sheet.Awaits triple ∧ triple ∉ cleared := by
  unfold Awaits Listens
  simp only [h.subscriptions, List.mem_filter]
  constructor
  · rintro ⟨id, clearing, ⟨listens, spared⟩, rfl⟩
    exact ⟨⟨id, clearing, listens, rfl⟩, by
      simpa [Listener.clearsAny] using spared⟩
  · rintro ⟨⟨id, clearing, listens, rfl⟩, spared⟩
    exact ⟨id, clearing, ⟨listens, by
      simpa [Listener.clearsAny] using spared⟩, rfl⟩

end Worksheet

/-! ## Verdicts that holes show -/

/-- The hole shows what the receipt says, and a complaint on its own text. -/
structure Receipt.Backs (receipt : Receipt) (sheet : Worksheet) (id : NodeId)
    (hole : Hole) : Prop where
  shows : hole.feedback = receipt.feedback
  praised : hole.feedback.isCorrect = receipt.verdict.isCorrect
  /-- A complaint is still about the text, and waits for it to change. -/
  current : receipt.verdict.isCorrect = false →
    receipt.attempt = some hole.attempt ∧ id ∈ receipt.triple.nodes ∧
      sheet.Awaits receipt.triple

theorem Receipt.Backs.keep {receipt : Receipt} {sheet after : Worksheet}
    {id : NodeId} {hole later : Hole} (h : receipt.Backs sheet id hole)
    (feedback : later.feedback = hole.feedback)
    (current : receipt.verdict.isCorrect = false →
      id ∈ receipt.triple.nodes → sheet.Awaits receipt.triple →
        later.attempt = hole.attempt ∧ after.Awaits receipt.triple) :
    receipt.Backs after id later := by
  refine ⟨feedback.trans h.shows, ?_, fun refused => ?_⟩
  · rw [feedback]
    exact h.praised
  · obtain ⟨text, inside, awaits⟩ := h.current refused
    obtain ⟨same, still⟩ := current refused inside awaits
    exact ⟨same ▸ text, inside, still⟩

namespace Worksheet

/-- Feedback that is no parse error comes from the last verdict. -/
def Backed (sheet : Worksheet) (receipts : Receipts) : Prop :=
  ∀ (id : NodeId) (hole : Hole), sheet.get? id = some (.hole hole) →
    hole.parseFeedback = false → hole.feedback ≠ .empty →
      ∃ receipt, receipts id = some receipt ∧ receipt.Backs sheet id hole

@[simp] theorem isCorrect_shown (sheet : Worksheet) (triple : TripleRef)
    (feedback : Feedback) (id : NodeId) :
    (sheet.shown triple feedback id).isCorrect = feedback.isCorrect := by
  unfold shown
  cases praise : feedback.isCorrect with
  | true => simp [praise]
  | false =>
      by_cases carries : id = sheet.carrier triple
      · simp [carries, praise]
      · simp only [Bool.false_eq_true, carries, or_self, if_false]
        rfl

private theorem backed_ofSteps (steps : List Step) :
    (ofSteps steps).Backed fun _ => none := by
  intro id hole found _ shows
  have placed : (steps.map Node.ofStep)[id]? = some (.hole hole) := found
  rw [List.getElem?_map, Option.map_eq_some_iff] at placed
  obtain ⟨step, -, same⟩ := placed
  cases step with
  | hole prompt =>
      cases same
      exact absurd rfl shows
  | assertion assertion => cases same
  | command program => cases same
  | remark body => cases same

theorem Backed.edit_same {sheet : Worksheet} {receipts : Receipts}
    (h : sheet.Backed receipts) {target : NodeId} {text : String}
    (found : sheet.attempt? target = some text) :
    (sheet.edit target text).Backed receipts := by
  intro id hole there noError shows
  by_cases same : id = target
  · subst same
    obtain ⟨old, before, -⟩ := Option.map_eq_some_iff.mp found
    have before := hole?_eq_some_iff.mp before
    have text := Option.some.inj ((attempt?_of_hole before).symm.trans found)
    cases (get?_edit_self before).symm.trans there
    obtain ⟨receipt, noted, backs⟩ := h _ _ before noError shows
    exact ⟨receipt, noted, backs.keep rfl fun _ _ awaits =>
      ⟨text.symm, awaits⟩⟩
  · rw [get?_edit_other same] at there
    obtain ⟨receipt, noted, backs⟩ := h _ _ there noError shows
    exact ⟨receipt, noted, backs.keep rfl fun _ _ awaits => ⟨rfl, awaits⟩⟩

theorem Backed.setAttempt {sheet : Worksheet} {receipts : Receipts}
    (h : sheet.Backed receipts) (settled : sheet.Settled) (target : NodeId)
    (text : String) : (sheet.setAttempt target text).Backed receipts := by
  cases found : sheet.attempt? target with
  | none =>
      rw [setAttempt_of_not_hole found]
      exact h
  | some old =>
      by_cases same : text = old
      · subst same
        rw [settled.setAttempt_same found]
        exact h.edit_same found
      · obtain ⟨cleared, -, effect, which⟩ :=
          settled.setAttempt_cleared found same
        intro id hole there noError shows
        by_cases inside : ∃ triple ∈ cleared, id ∈ triple.nodes
        · rw [effect.get?_inside inside, Option.map_eq_some_iff] at there
          obtain ⟨node, -, marked⟩ := there
          obtain ⟨content, -, rfl⟩ := Node.mark_eq_hole_iff.mp marked
          exact absurd rfl shows
        · have outside : ∀ triple ∈ cleared, id ∉ triple.nodes :=
            fun triple mem among => inside ⟨triple, mem, among⟩
          rw [effect.get?_outside outside] at there
          have spared {triple : TripleRef} (among : id ∈ triple.nodes)
              (awaits : sheet.Awaits triple) :
              id ≠ target ∧ (sheet.setAttempt target text).Awaits triple := by
            constructor
            · rintro rfl
              exact outside triple ((which triple).mpr ⟨among, awaits⟩) among
            · exact effect.awaits_iff.mpr
                ⟨awaits, fun mem => outside triple mem among⟩
          by_cases edited : id = target
          · subst edited
            obtain ⟨content, before, -⟩ := Option.map_eq_some_iff.mp found
            have before := hole?_eq_some_iff.mp before
            cases (get?_edit_self before).symm.trans there
            obtain ⟨receipt, noted, backs⟩ := h _ _ before noError shows
            exact ⟨receipt, noted, backs.keep rfl fun _ among awaits =>
              absurd rfl (spared among awaits).1⟩
          · rw [get?_edit_other edited] at there
            obtain ⟨receipt, noted, backs⟩ := h _ _ there noError shows
            exact ⟨receipt, noted, backs.keep rfl fun _ among awaits =>
              ⟨rfl, (spared among awaits).2⟩⟩

theorem Backed.prevalidate {sheet : Worksheet} {receipts : Receipts}
    (h : sheet.Backed receipts) (settled : sheet.Settled) (target : NodeId) :
    (sheet.prevalidate target).2.Backed receipts := by
  cases present : sheet.hole? target with
  | none =>
      rw [prevalidate_of_not_hole present]
      exact h
  | some content =>
      have found := hole?_eq_some_iff.mp present
      rw [settled.prevalidate found]
      intro id hole there noError shows
      rw [get?_setNode found] at there
      by_cases same : target = id
      · subst same
        rw [if_pos rfl] at there
        cases there
        have text := content.attempt_checked
        have kept : content.parseFeedback = false ∧
            content.checked.feedback = content.feedback := by
          unfold Hole.checked at noError shows ⊢
          cases parsed : Source.parseAssertion content.attempt with
          | ok assertion =>
              cases marked : content.parseFeedback with
              | true => simp [parsed, marked, Hole.mark] at shows
              | false => simp
          | error error => simp [parsed] at noError
        rw [kept.2] at shows
        obtain ⟨receipt, noted, backs⟩ := h _ _ found kept.1 shows
        exact ⟨receipt, noted, backs.keep kept.2 fun _ _ awaits =>
          ⟨text, awaits⟩⟩
      · rw [if_neg same] at there
        obtain ⟨receipt, noted, backs⟩ := h _ _ there noError shows
        exact ⟨receipt, noted, backs.keep rfl fun _ _ awaits =>
          ⟨rfl, awaits⟩⟩

private theorem get?_hole_of_contents {sheet other : Worksheet}
    (same : sheet.contents = other.contents) {id : NodeId} {hole : Hole}
    (found : sheet.get? id = some (.hole hole)) :
    other.attempt? id = some hole.attempt := by
  rw [← attempt?_of_contents same]
  exact attempt?_of_hole found

theorem Backed.routeAll {sheet : Worksheet} {receipts : Receipts}
    (h : sheet.Backed receipts) (settled : sheet.Settled)
    (verdicts : List (TripleRef × Feedback)) :
    (sheet.routeAll verdicts).Backed (sheet.noteAll verdicts receipts) := by
  have kept := keeps_routeAll settled.orderly.onlyClearing verdicts
  intro id hole there noError shows
  rcases sheet.noteAll_cases verdicts receipts id with
    ⟨outside, noted⟩ | ⟨before, verdict, after, split, inside, outside, noted⟩
  · rw [settled.get?_routeAll outside] at there
    obtain ⟨receipt, same, backs⟩ := h _ _ there noError shows
    refine ⟨receipt, noted.trans same, backs.keep rfl fun _ among awaits =>
      ⟨rfl, ?_⟩⟩
    refine (settled.awaits_routeAll_iff fun verdict mem => ?_).mpr awaits
    rintro same
    exact outside verdict mem (same ▸ among)
  · have attempt := get?_hole_of_contents kept.contents there
    have core : sheet.isCore id = true := by
      rw [← isCore_of_contents kept.contents, isCore, there]
      rfl
    have isHole : sheet.isHole id = true := by simp [isHole_eq, attempt]
    have told : (sheet.routeAll verdicts).feedback? id =
        some (sheet.shown verdict.1 verdict.2 id) := by
      rw [split]
      exact settled.feedback?_routeAll core inside outside
    rw [feedback?, there] at told
    have shown : hole.feedback = sheet.shown verdict.1 verdict.2 id :=
      Option.some.inj told
    refine ⟨sheet.receipt verdict id, noted, shown, ?_, fun refused =>
      ⟨attempt, inside, ?_⟩⟩
    · rw [shown]
      exact isCorrect_shown sheet verdict.1 verdict.2 id
    · have holes := List.ne_nil_of_mem (List.mem_filter.mpr ⟨inside, isHole⟩)
      have last : ∀ other ∈ after, verdict.1 ≠ other.1 :=
        fun other mem same => outside other mem (same ▸ inside)
      rw [split]
      exact (settled.awaits_routeAll_last last).mpr ⟨refused, holes⟩

end Worksheet

namespace Session

theorem Recorded.backed {session : Session} {receipts : Receipts}
    (h : session.Recorded receipts) : session.sheet.Backed receipts := by
  refine h.invariant (fun session receipts => session.sheet.Backed receipts)
    Worksheet.backed_ofSteps fun reachable backed step => ?_
  have settled := reachable.steady.settled
  cases step with
  | setAttempt id text => exact backed.setAttempt settled id text
  | prevalidate id => exact backed.prevalidate settled id
  | submit walk => exact backed.routeAll settled _

/--
A hole that shows a complaint holds the text that was turned down, and any
other text removes the complaint.  Praise stays when the text changes, unless a
triple of the hole still awaits an edit.
-/
theorem complaint_current {session : Session} {receipts : Receipts}
    (recorded : session.Recorded receipts) {id : NodeId} {hole : Hole}
    (found : session.sheet.hole? id = some hole)
    (noError : hole.parseFeedback = false) (shows : hole.feedback ≠ .empty) :
    ∃ receipt, receipts id = some receipt ∧
      hole.feedback = receipt.feedback ∧
      (hole.feedback.isCorrect = false →
        receipt.attempt = some hole.attempt ∧
        ∀ text, text ≠ hole.attempt →
          (session.setAttempt id text).sheet.feedback? id = some .empty) ∧
      (hole.feedback.isCorrect = true → ∀ text, text ≠ hole.attempt →
        ((∃ triple, id ∈ triple.nodes ∧ session.sheet.Awaits triple) →
          (session.setAttempt id text).sheet.feedback? id = some .empty) ∧
        ((∀ triple, id ∈ triple.nodes → ¬ session.sheet.Awaits triple) →
          (session.setAttempt id text).sheet.feedback? id =
            some hole.feedback)) := by
  have there := Worksheet.hole?_eq_some_iff.mp found
  have steady := recorded.reachable.steady
  obtain ⟨receipt, noted, backs⟩ := recorded.backed _ _ there noError shows
  have clears {text : String} (different : text ≠ hole.attempt)
      {triple : TripleRef} (inside : id ∈ triple.nodes)
      (awaits : session.sheet.Awaits triple) :
      (session.setAttempt id text).sheet.feedback? id = some .empty := by
    obtain ⟨cleared, edited⟩ := steady.edited there different
    exact edited.wiped triple ((edited.which triple).mpr ⟨inside, awaits⟩) id
      inside
  refine ⟨receipt, noted, backs.shows, fun complaint => ?_,
    fun _ text different => ⟨?_, fun never => ?_⟩⟩
  · rw [backs.praised] at complaint
    obtain ⟨attempt, inside, awaits⟩ := backs.current complaint
    exact ⟨attempt, fun text different => clears different inside awaits⟩
  · rintro ⟨triple, inside, awaits⟩
    exact clears different inside awaits
  · obtain ⟨cleared, edited⟩ := steady.edited there different
    have outside : ∀ triple ∈ cleared, id ∉ triple.nodes :=
      fun triple mem inside =>
        never triple inside ((edited.which triple).mp mem).2
    rw [show (session.setAttempt id text).sheet.feedback? id =
      session.sheet.feedback? id from (edited.kept id outside).1]
    rw [Worksheet.feedback?, there]
    rfl

def judged (verdict : Feedback) (rest : List Action) :
    (Session × Prepared Feedback Triple) × Receipts :=
  runNoting .scripted twoHoles ⟨[verdict], []⟩
    ([.setAttempt 0 "\x7b true \x7d", .prevalidate 0,
      .setAttempt 2 "\x7b true \x7d", .prevalidate 2, .submit] ++ rest)

theorem complaint_current_judged :
    ∃ receipt, (judged (.incorrect "no") []).2 0 = some receipt ∧
      receipt.attempt = some "\x7b true \x7d" ∧
      ∀ text, text ≠ "\x7b true \x7d" →
        ((judged (.incorrect "no") []).1.1.setAttempt 0
          text).sheet.feedback? 0 = some .empty := by
  have seen : ((judged (.incorrect "no") []).1.1.sheet.hole? 0).map
      (fun hole => (hole.attempt, hole.parseFeedback, hole.feedback)) =
        some ("\x7b true \x7d", false, .incorrect "no") := by
    decide +kernel
  obtain ⟨hole, found, same⟩ := Option.map_eq_some_iff.mp seen
  obtain ⟨text, noError, told⟩ : hole.attempt = "\x7b true \x7d" ∧
      hole.parseFeedback = false ∧ hole.feedback = .incorrect "no" := by
    simpa using same
  obtain ⟨receipt, noted, -, current, -⟩ :=
    complaint_current ⟨_, _, _, _, _, rfl, rfl⟩ found noError
      (by rw [told]; decide)
  rw [told, text] at current
  exact ⟨receipt, noted, current rfl⟩

def praisedThenEdited : (Session × Prepared Feedback Triple) × Receipts :=
  judged (.correct "yes") [.setAttempt 0 "\x7b false \x7d"]

theorem praise_outlives_edit :
    praisedThenEdited.1.1.Recorded praisedThenEdited.2 ∧
      ∃ (hole : Hole) (receipt : Receipt),
        praisedThenEdited.1.1.sheet.hole? 0 = some hole ∧
        praisedThenEdited.2 0 = some receipt ∧
        hole.feedback = receipt.feedback ∧ hole.feedback = .correct "yes" ∧
        receipt.attempt ≠ some hole.attempt := by
  have seen : (praisedThenEdited.1.1.sheet.hole? 0).map
      (fun hole => (hole.feedback, hole.attempt)) =
        some (.correct "yes", "\x7b false \x7d") := by
    decide +kernel
  have noted : praisedThenEdited.2 0 =
      some ⟨⟨0, 1, 2⟩, .correct "yes", .correct "yes",
        some "\x7b true \x7d"⟩ := by
    decide +kernel
  obtain ⟨hole, found, same⟩ := Option.map_eq_some_iff.mp seen
  obtain ⟨told, text⟩ : hole.feedback = .correct "yes" ∧
      hole.attempt = "\x7b false \x7d" := by
    simpa using same
  refine ⟨⟨_, _, _, _, _, rfl, rfl⟩, hole, _, found, noted, told, told, ?_⟩
  rw [text]
  decide

end Session

end ProofOutline
