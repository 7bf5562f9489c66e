import ProofOutline.Session

/-!
# What feedback leaves alone

Clearing listeners answer a change by changing feedback, and feedback is no
part of what a student has typed or an exercise has given.  As long as all
listeners are of that sort, putting feedback on a worksheet and telling the
listeners keeps the contents of all nodes, and with them the triples that the
worksheet stands for.
-/

namespace ProofOutline

namespace Node

def content : Node → Node
  | given assertion _ => .given assertion .empty
  | command program _ => .command program .empty
  | hole content =>
      .hole { content with
        feedback := .empty, mustAddress := false, parseFeedback := false }
  | remark body => .remark body

@[simp] theorem isCore_content (node : Node) :
    node.content.isCore = node.isCore := by
  cases node <;> rfl

@[simp] theorem isCommand_content (node : Node) :
    node.content.isCommand = node.isCommand := by
  cases node <;> rfl

@[simp] theorem bearsAssertion_content (node : Node) :
    node.content.bearsAssertion = node.bearsAssertion := by
  cases node <;> rfl

private theorem content_of_withFeedback? {node changed : Node}
    {feedback : Feedback} (h : node.withFeedback? feedback = some changed) :
    changed.content = node.content := by
  cases node with
  | given assertion old =>
      cases h
      rfl
  | hole content =>
      cases h
      rfl
  | command program old =>
      cases h
      rfl
  | remark body => cases h

/-- The assertion of a node, where a hole has to be prevalidated. -/
def assertion? : Node → Option Assertion
  | given assertion _ => some assertion
  | hole content =>
      if content.state = .prevalidated then
        (Source.parseAssertion content.attempt).toOption
      else none
  | command _ _ | remark _ => none

def program? : Node → Option Program
  | command program _ => some program
  | _ => none

@[simp] theorem assertion?_content (node : Node) :
    node.content.assertion? = node.assertion? := by
  cases node <;> rfl

@[simp] theorem program?_content (node : Node) :
    node.content.program? = node.program? := by
  cases node <;> rfl

end Node

def Listener.isClearing : Listener → Bool
  | clearing _ => true
  | observer _ => false

namespace Worksheet

def contents (sheet : Worksheet) : List Node := sheet.nodes.map Node.content

/-- No outside party listens. -/
def OnlyClearing (sheet : Worksheet) : Prop :=
  ∀ sub ∈ sheet.subscriptions, sub.listener.isClearing = true

/-! ## Reading a worksheet by its contents -/

theorem bind_get?_of_contents {β : Type} {sheet other : Worksheet}
    (same : sheet.contents = other.contents) (read : Node → Option β)
    (reads : ∀ node : Node, read node.content = read node) (id : NodeId) :
    (sheet.get? id).bind read = (other.get? id).bind read := by
  have byContents (sheet : Worksheet) :
      (sheet.get? id).bind read = sheet.contents[id]?.bind read := by
    have reads : read ∘ Node.content = read := funext reads
    rw [contents, List.getElem?_map, Option.bind_map, reads, get?]
  rw [byContents sheet, byContents other, same]

theorem map_get?_of_contents {β : Type} {sheet other : Worksheet}
    (same : sheet.contents = other.contents) (read : Node → β)
    (reads : ∀ node : Node, read node.content = read node) (id : NodeId) :
    (sheet.get? id).map read = (other.get? id).map read := by
  rw [Option.map_eq_bind, Option.map_eq_bind]
  exact bind_get?_of_contents same _ (fun node => by simp [reads]) id

theorem assertion?_eq (sheet : Worksheet) (id : NodeId) :
    sheet.assertion? id = (sheet.get? id).bind Node.assertion? := by
  unfold assertion? holeAssertion? hole?
  cases sheet.get? id with
  | none => rfl
  | some node => cases node <;> rfl

theorem program?_eq (sheet : Worksheet) (id : NodeId) :
    sheet.program? id = (sheet.get? id).bind Node.program? := by
  unfold program?
  cases sheet.get? id with
  | none => rfl
  | some node => cases node <;> rfl

theorem triple?_of_contents {sheet other : Worksheet}
    (same : sheet.contents = other.contents) (triple : TripleRef) :
    sheet.triple? triple = other.triple? triple := by
  simp only [triple?, assertion?_eq, program?_eq,
    bind_get?_of_contents same _ Node.assertion?_content,
    bind_get?_of_contents same _ Node.program?_content]

theorem isCore_of_contents {sheet other : Worksheet}
    (same : sheet.contents = other.contents) :
    sheet.isCore = other.isCore := by
  funext id
  simp only [isCore, map_get?_of_contents same _ Node.isCore_content]

private theorem isTriple_of_contents {sheet other : Worksheet}
    (same : sheet.contents = other.contents) :
    sheet.isTriple = other.isTriple := by
  funext triple
  simp only [isTriple, bearsAssertion, isCommand,
    map_get?_of_contents same _ Node.bearsAssertion_content,
    map_get?_of_contents same _ Node.isCommand_content]

theorem segment_of_contents {sheet other : Worksheet}
    (same : sheet.contents = other.contents) :
    sheet.segment = other.segment := by
  funext order
  simp only [segment, isCore_of_contents same, isTriple_of_contents same]

/-! ## Changes of feedback -/

structure Keeps (before after : Worksheet) : Prop where
  contents : after.contents = before.contents
  onlyClearing : after.OnlyClearing

theorem Keeps.refl {sheet : Worksheet} (h : sheet.OnlyClearing) :
    Keeps sheet sheet :=
  ⟨rfl, h⟩

theorem Keeps.trans {first second third : Worksheet}
    (left : Keeps first second) (right : Keeps second third) :
    Keeps first third :=
  ⟨right.contents.trans left.contents, right.onlyClearing⟩

theorem Keeps.foldl {α : Type} {step : Worksheet → α → Worksheet}
    {items : List α} {sheet : Worksheet} (h : sheet.OnlyClearing)
    (round : ∀ item ∈ items, ∀ sheet : Worksheet, sheet.OnlyClearing →
      Keeps sheet (step sheet item)) :
    Keeps sheet (items.foldl step sheet) := by
  induction items generalizing sheet with
  | nil => exact .refl h
  | cons item items ih =>
      have first := round item List.mem_cons_self sheet h
      have rest := ih first.onlyClearing
        (fun item mem => round item (List.mem_cons_of_mem _ mem))
      exact first.trans rest

@[simp] theorem contents_setNode (sheet : Worksheet) (id : NodeId)
    (node : Node) :
    (sheet.setNode id node).contents = sheet.contents.set id node.content := by
  simp [contents, setNode, List.map_set]

private theorem keeps_setNode {sheet : Worksheet} {id : NodeId}
    {old node : Node}
    (h : sheet.OnlyClearing) (present : sheet.get? id = some old)
    (same : node.content = old.content) :
    Keeps sheet (sheet.setNode id node) := by
  have there : sheet.contents[id]? = some node.content := by
    rw [same, contents, List.getElem?_map]
    exact congrArg (Option.map Node.content) present
  obtain ⟨inside, value⟩ := List.getElem?_eq_some_iff.mp there
  refine ⟨?_, h⟩
  rw [contents_setNode, ← value, List.set_getElem_self]

private theorem keeps_cancel {sheet : Worksheet} (picked : Subscription → Bool)
    (h : sheet.OnlyClearing) : Keeps sheet (sheet.cancel picked) :=
  ⟨rfl, fun sub mem => h sub (List.mem_filter.mp mem).1⟩

private theorem keeps_subscribe {sheet : Worksheet} (listener : Listener)
    (h : sheet.OnlyClearing) (clearing : listener.isClearing = true) :
    Keeps sheet (sheet.subscribe listener) := by
  refine ⟨rfl, fun sub mem => ?_⟩
  rcases List.mem_append.mp mem with old | new
  · exact h sub old
  · cases List.mem_singleton.mp new
    exact clearing

theorem Keeps.record {before after : Worksheet} (h : Keeps before after)
    (triple : TripleRef) (ids : List Nat) :
    Keeps before (after.record triple ids) :=
  ⟨h.contents, h.onlyClearing⟩

private theorem keeps_unsubscribes {sheet : Worksheet} (ids : List Nat)
    (h : sheet.OnlyClearing) : Keeps sheet (ids.foldl unsubscribe sheet) :=
  Keeps.foldl h fun id _ _ clearing => keeps_cancel (·.id == id) clearing

private theorem keeps_forget {sheet : Worksheet} (triple : TripleRef)
    (h : sheet.OnlyClearing) : Keeps sheet (sheet.forget triple) :=
  (keeps_unsubscribes (sheet.recorded triple) h).record triple []

private theorem keeps_fire {sheet : Worksheet} (group : Nat)
    (h : sheet.OnlyClearing) : Keeps sheet (sheet.fire group) :=
  have fired : Keeps sheet
      { sheet with
        groups := sheet.groups.modify group ({ · with fired := true }) } :=
    ⟨rfl, h⟩
  fired.trans (keeps_unsubscribes _ fired.onlyClearing)

def Publisher.Quiet (publish : Publisher) : Prop :=
  ∀ (id : NodeId) (sheet : Worksheet), sheet.OnlyClearing →
    Keeps sheet (publish id sheet)

section Quiet

variable {publish : Publisher} (quiet : publish.Quiet)

include quiet

private theorem keeps_setFeedbackVia {sheet : Worksheet} (id : NodeId)
    (feedback : Feedback) (h : sheet.OnlyClearing) :
    Keeps sheet (setFeedbackVia publish id feedback sheet) := by
  unfold setFeedbackVia
  split
  case h_1 node found =>
    obtain ⟨old, present, changed⟩ := Option.bind_eq_some_iff.mp found
    have written := keeps_setNode h present
      (Node.content_of_withFeedback? changed)
    exact written.trans (quiet id _ written.onlyClearing)
  case h_2 => exact .refl h

private theorem keeps_clearTripleVia {sheet : Worksheet} (triple : TripleRef)
    (h : sheet.OnlyClearing) :
    Keeps sheet (clearTripleVia publish triple sheet) :=
  Keeps.foldl h fun id _ _ clearing =>
    keeps_setFeedbackVia quiet id .empty clearing

private theorem keeps_notifyVia {sheet : Worksheet} {listener : Listener}
    (changed : NodeId) (h : sheet.OnlyClearing)
    (isClearing : listener.isClearing = true) :
    Keeps sheet (notifyVia publish changed sheet listener) := by
  cases listener with
  | observer observer => cases isClearing
  | clearing clearing =>
      simp only [notifyVia]
      split
      · have fired := keeps_fire clearing.group h
        exact fired.trans
          (keeps_clearTripleVia quiet clearing.triple fired.onlyClearing)
      · exact .refl h

end Quiet

private theorem quiet_publishWithin (depth : Nat) :
    Publisher.Quiet (publishWithin depth) := by
  induction depth with
  | zero => exact fun _ _ h => .refl h
  | succ depth ih =>
      intro changed sheet h
      refine Keeps.foldl h fun sub mem sheet clearing => ?_
      split
      · exact keeps_notifyVia ih changed clearing (h sub mem)
      · exact .refl clearing

theorem quiet_publish : Publisher.Quiet publish :=
  fun changed sheet h => quiet_publishWithin sheet.reach changed sheet h

theorem keeps_setFeedback {sheet : Worksheet} (id : NodeId)
    (feedback : Feedback) (h : sheet.OnlyClearing) :
    Keeps sheet (sheet.setFeedback id feedback) :=
  keeps_setFeedbackVia quiet_publish id feedback h

theorem keeps_setParseFeedback {sheet : Worksheet} (id : NodeId)
    (feedback : Feedback) (h : sheet.OnlyClearing) :
    Keeps sheet (sheet.setParseFeedback id feedback) := by
  have written := keeps_setFeedback id feedback h
  simp only [setParseFeedback]
  split
  case h_1 hole found =>
    obtain ⟨node, present, isHole⟩ := Option.bind_eq_some_iff.mp found
    have same : node = .hole hole := by
      cases node <;> cases isHole
      rfl
    subst same
    exact written.trans (keeps_setNode written.onlyClearing present rfl)
  case h_2 => exact written

private theorem keeps_clearTriple {sheet : Worksheet} (triple : TripleRef)
    (h : sheet.OnlyClearing) : Keeps sheet (sheet.clearTriple triple) :=
  keeps_clearTripleVia quiet_publish triple h

private theorem keeps_clearOnFirstEdit {sheet : Worksheet} (triple : TripleRef)
    (holes : List NodeId) (h : sheet.OnlyClearing) :
    Keeps sheet (sheet.clearOnFirstEdit triple holes) := by
  have grouped : Keeps sheet
      (sheet.addGroup (List.range' sheet.nextId holes.length)) := ⟨rfl, h⟩
  have subscribed := Keeps.foldl grouped.onlyClearing
    fun hole (_ : hole ∈ holes) current clearing =>
      keeps_subscribe (.clearing ⟨triple, hole,
        (current.attempt? hole).getD "", sheet.groups.length⟩) clearing rfl
  exact (grouped.trans subscribed).record triple _

private theorem keeps_setFeedbacks {sheet : Worksheet} (ids : List NodeId)
    (feedback : NodeId → Feedback) (h : sheet.OnlyClearing) :
    Keeps sheet
      (ids.foldl (fun sheet id => sheet.setFeedback id (feedback id))
        sheet) :=
  Keeps.foldl h fun id _ _ clearing =>
    keeps_setFeedback id (feedback id) clearing

theorem keeps_route {sheet : Worksheet} (triple : TripleRef)
    (feedback : Feedback) (h : sheet.OnlyClearing) :
    Keeps sheet (sheet.route triple feedback) := by
  have cancelled := keeps_forget triple h
  unfold route
  split
  · exact cancelled.trans
      (keeps_setFeedbacks _ (fun _ => feedback) cancelled.onlyClearing)
  · have cleared := cancelled.trans
      (keeps_clearTriple triple cancelled.onlyClearing)
    have marked (ids : List NodeId) (target : NodeId) := cleared.trans
      (keeps_setFeedbacks ids
        (fun id => if id = target then feedback else .incorrectMark)
        cleared.onlyClearing)
    exact (marked _ _).trans
      (keeps_clearOnFirstEdit triple _ (marked _ _).onlyClearing)

theorem keeps_submitFrom {σ : Type} (checker : Checker σ)
    (triples checked : List TripleRef) {sheet : Worksheet} (state : σ)
    (h : sheet.OnlyClearing) :
    Keeps sheet (sheet.submitFrom checker triples checked state).2.1 := by
  induction triples generalizing checked sheet state with
  | nil => exact .refl h
  | cons triple rest ih =>
      unfold submitFrom
      split
      · exact .refl h
      · split
        · exact .refl h
        case h_2 feedback state' _ =>
          have routed := keeps_route triple feedback h
          simp only
          split
          · exact routed.trans (ih _ state' routed.onlyClearing)
          · exact routed

end Worksheet

end ProofOutline
