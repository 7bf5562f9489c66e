import ProofOutline.Proofs.Contents

/-!
# Changing nodes in place

Feedback is put on one node or on several, and holes change their contents.
None of this touches the listeners, and marking a node leaves its attempt as it
is.
-/

namespace ProofOutline

def Hole.mark (feedback : Feedback) (hole : Hole) : Hole :=
  { hole with
    feedback
    mustAddress := feedback.shouldBeAddressed
    parseFeedback := false }

namespace Node

def attempt? (node : Node) : Option String := node.hole?.map Hole.attempt

def mark (feedback : Feedback) (node : Node) : Node :=
  (node.withFeedback? feedback).getD node

def state? (node : Node) : Option HoleState := node.hole?.map Hole.state

def mapHole (change : Hole → Hole) : Node → Node
  | hole content => .hole (change content)
  | node => node

@[simp] theorem mark_hole (feedback : Feedback) (content : Hole) :
    (hole content).mark feedback = .hole (content.mark feedback) := rfl

@[simp] theorem mark_eq_hole_iff {feedback : Feedback} {node : Node}
    {content : Hole} :
    node.mark feedback = .hole content ↔
      ∃ old, node = .hole old ∧ content = old.mark feedback := by
  cases node with
  | hole old => simp [eq_comm]
  | given assertion old => simp [mark, withFeedback?]
  | command program old => simp [mark, withFeedback?]
  | remark body => simp [mark, withFeedback?]

@[simp] theorem isCore_mark (feedback : Feedback) (node : Node) :
    (node.mark feedback).isCore = node.isCore := by
  cases node <;> rfl

@[simp] theorem attempt?_mark (feedback : Feedback) (node : Node) :
    (node.mark feedback).attempt? = node.attempt? := by
  cases node <;> rfl

@[simp] theorem state?_mark (feedback : Feedback) (node : Node) :
    (node.mark feedback).state? = node.state? := by
  cases node <;> rfl

theorem feedback?_mark {node : Node} (core : node.isCore = true)
    (feedback : Feedback) : (node.mark feedback).feedback? = some feedback := by
  cases node with
  | remark body => cases core
  | given assertion old => rfl
  | hole content => rfl
  | command program old => rfl

@[simp] theorem mark_mark (first second : Feedback) (node : Node) :
    (node.mark first).mark second = node.mark second := by
  cases node <;> rfl

@[simp] theorem isCore_mapHole (change : Hole → Hole) (node : Node) :
    (node.mapHole change).isCore = node.isCore := by
  cases node <;> rfl

end Node

namespace Worksheet

def holeState? (sheet : Worksheet) (id : NodeId) : Option HoleState :=
  (sheet.get? id).bind Node.state?

def alter (sheet : Worksheet) (id : NodeId) (change : Node → Node) :
    Worksheet :=
  { sheet with nodes := sheet.nodes.modify id change }

def markAll (sheet : Worksheet) (ids : List NodeId)
    (feedback : NodeId → Feedback) : Worksheet :=
  { sheet with
    nodes := sheet.nodes.mapIdx fun id node =>
      if id ∈ ids then node.mark (feedback id) else node }

@[simp] theorem get?_alter (sheet : Worksheet) (id other : NodeId)
    (change : Node → Node) :
    (sheet.alter id change).get? other =
      (sheet.get? other).map fun node =>
        if id = other then change node else node :=
  List.getElem?_modify change id sheet.nodes other

@[simp] theorem get?_markAll (sheet : Worksheet) (ids : List NodeId)
    (feedback : NodeId → Feedback) (id : NodeId) :
    (sheet.markAll ids feedback).get? id =
      (sheet.get? id).map fun node =>
        if id ∈ ids then node.mark (feedback id) else node :=
  List.getElem?_mapIdx

theorem attempt?_eq (sheet : Worksheet) (id : NodeId) :
    sheet.attempt? id = (sheet.get? id).bind Node.attempt? := by
  unfold attempt? hole?
  cases sheet.get? id <;> rfl

@[simp] theorem hole?_eq_some_iff {sheet : Worksheet} {id : NodeId}
    {hole : Hole} :
    sheet.hole? id = some hole ↔ sheet.get? id = some (.hole hole) := by
  unfold hole?
  cases sheet.get? id with
  | none => simp
  | some node => cases node <;> simp [Node.hole?]

theorem attempt?_of_hole {sheet : Worksheet} {id : NodeId} {hole : Hole}
    (found : sheet.get? id = some (.hole hole)) :
    sheet.attempt? id = some hole.attempt := by
  rw [attempt?, hole?_eq_some_iff.mpr found, Option.map_some]

theorem isHole_eq (sheet : Worksheet) (id : NodeId) :
    sheet.isHole id = (sheet.attempt? id).isSome := by
  unfold isHole attempt?
  cases sheet.hole? id <;> rfl

theorem attempt?_alter (sheet : Worksheet) (id : NodeId)
    {change : Node → Node}
    (keeps : ∀ node, (change node).attempt? = node.attempt?) :
    (sheet.alter id change).attempt? = sheet.attempt? := by
  funext other
  rw [attempt?_eq, attempt?_eq, get?_alter]
  cases sheet.get? other with
  | none => rfl
  | some node => by_cases same : id = other <;> simp [same, keeps]

@[simp] theorem attempt?_markAll (sheet : Worksheet) (ids : List NodeId)
    (feedback : NodeId → Feedback) :
    (sheet.markAll ids feedback).attempt? = sheet.attempt? := by
  funext id
  rw [attempt?_eq, attempt?_eq, get?_markAll]
  cases sheet.get? id with
  | none => rfl
  | some node => by_cases mem : id ∈ ids <;> simp [mem]

@[simp] theorem isHole_markAll (sheet : Worksheet) (ids : List NodeId)
    (feedback : NodeId → Feedback) :
    (sheet.markAll ids feedback).isHole = sheet.isHole := by
  funext id
  rw [isHole_eq, isHole_eq, attempt?_markAll]

theorem get?_setNode {sheet : Worksheet} {id : NodeId} {old : Node}
    (found : sheet.get? id = some old) (node : Node) (other : NodeId) :
    (sheet.setNode id node).get? other =
      if id = other then some node else sheet.get? other := by
  have inside := (List.getElem?_eq_some_iff.mp found).1
  simp only [get?, setNode, List.getElem?_set]
  by_cases same : id = other
  · subst same
    simp [inside]
  · simp [same]

theorem get?_setNode_self {sheet : Worksheet} {id : NodeId} {old : Node}
    (found : sheet.get? id = some old) (node : Node) :
    (sheet.setNode id node).get? id = some node := by
  rw [get?_setNode found, if_pos rfl]

@[simp] theorem setNode_setNode (sheet : Worksheet) (id : NodeId)
    (first second : Node) :
    (sheet.setNode id first).setNode id second = sheet.setNode id second := by
  simp [setNode]

theorem attempt?_setNode {sheet : Worksheet} {id : NodeId} {old node : Node}
    (found : sheet.get? id = some old) (same : node.attempt? = old.attempt?) :
    (sheet.setNode id node).attempt? = sheet.attempt? := by
  funext other
  rw [attempt?_eq, attempt?_eq, get?_setNode found]
  by_cases here : id = other
  · subst here
    simp [found, same]
  · simp [here]

private theorem setNode_self {sheet : Worksheet} {id : NodeId} {node : Node}
    (found : sheet.get? id = some node) : sheet.setNode id node = sheet := by
  obtain ⟨inside, rfl⟩ := List.getElem?_eq_some_iff.mp found
  simp [setNode]

theorem alter_eq_setNode {sheet : Worksheet} {id : NodeId} {node : Node}
    (found : sheet.get? id = some node) (change : Node → Node) :
    sheet.alter id change = sheet.setNode id (change node) := by
  unfold alter setNode
  congr 1
  apply List.ext_getElem?
  intro other
  rw [List.getElem?_modify, List.getElem?_set]
  obtain ⟨inside, value⟩ := List.getElem?_eq_some_iff.mp found
  by_cases same : id = other
  · subst same
    simp [inside, value]
  · simp [same]

private theorem alter_eq_self {sheet : Worksheet} {id : NodeId}
    (found : sheet.get? id = none) (change : Node → Node) :
    sheet.alter id change = sheet := by
  have outside := List.getElem?_eq_none_iff.mp found
  simp [alter, List.modify_eq_self outside]

theorem setNode_eq_alter {sheet : Worksheet} {id : NodeId} {node : Node}
    {feedback : Feedback}
    (found : (sheet.get? id).bind (Node.withFeedback? feedback) =
      some node) :
    sheet.setNode id node = sheet.alter id (Node.mark feedback) := by
  obtain ⟨old, there, marked⟩ := Option.bind_eq_some_iff.mp found
  rw [alter_eq_setNode there, Node.mark, marked, Option.getD_some]

theorem alter_mark_eq_self {sheet : Worksheet} {id : NodeId}
    {feedback : Feedback}
    (none : (sheet.get? id).bind (Node.withFeedback? feedback) = none) :
    sheet.alter id (Node.mark feedback) = sheet := by
  cases there : sheet.get? id with
  | none => exact alter_eq_self there _
  | some node =>
      rw [there, Option.bind_some] at none
      rw [alter_eq_setNode there, Node.mark, none, Option.getD_none,
        setNode_self there]

@[simp] theorem markAll_nil (sheet : Worksheet) (feedback : NodeId → Feedback) :
    sheet.markAll [] feedback = sheet := by
  have nodes : sheet.nodes.mapIdx (fun id node =>
      if id ∈ ([] : List NodeId) then node.mark (feedback id) else node) =
        sheet.nodes := by
    apply List.ext_getElem?
    intro id
    simp
  rw [markAll, nodes]

@[simp] theorem alter_markAll (sheet : Worksheet) (id : NodeId)
    (ids : List NodeId) (feedback : NodeId → Feedback) :
    (sheet.alter id (Node.mark (feedback id))).markAll ids feedback =
      sheet.markAll (id :: ids) feedback := by
  unfold alter markAll
  congr 1
  apply List.ext_getElem?
  intro other
  rw [List.getElem?_mapIdx, List.getElem?_mapIdx, List.getElem?_modify]
  cases sheet.nodes[other]? with
  | none => rfl
  | some node =>
      by_cases same : id = other
      · subst same
        by_cases mem : id ∈ ids <;> simp [mem]
      · simp [same, Ne.symm same]

@[simp] theorem markAll_markAll (sheet : Worksheet) (ids : List NodeId)
    (first second : NodeId → Feedback) :
    (sheet.markAll ids first).markAll ids second =
      sheet.markAll ids second := by
  unfold markAll
  congr 1
  apply List.ext_getElem?
  intro id
  rw [List.getElem?_mapIdx, List.getElem?_mapIdx, List.getElem?_mapIdx]
  cases sheet.nodes[id]? with
  | none => rfl
  | some node => by_cases mem : id ∈ ids <;> simp [mem]

end Worksheet

end ProofOutline
