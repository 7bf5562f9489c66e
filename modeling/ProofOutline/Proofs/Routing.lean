import ProofOutline.Proofs.Listeners

/-!
# Routing feedback

On a settled worksheet nobody is moved while feedback is routed.  So a node of
the triple shows in the end what it was given last, all other nodes are as
before, and the worksheet is settled again, with new listeners on the holes of
a triple that was turned down.
-/

namespace ProofOutline.Worksheet

/-! ## Changes of a settled worksheet -/

theorem Settled.setFeedback {sheet : Worksheet} (h : sheet.Settled)
    (id : NodeId) (feedback : Feedback) :
    sheet.setFeedback id feedback = sheet.alter id (Node.mark feedback) := by
  have quiet := (h.alter id (Node.attempt?_mark feedback)).publish id
  unfold Worksheet.setFeedback setFeedbackVia
  split
  case h_1 node found => rw [setNode_eq_alter found, quiet]
  case h_2 none => exact (alter_mark_eq_self none).symm

theorem Settled.setNode {sheet : Worksheet} (h : sheet.Settled) {id : NodeId}
    {old node : Node} (found : sheet.get? id = some old)
    (same : node.attempt? = old.attempt?) : (sheet.setNode id node).Settled :=
  h.withNodes (attempt?_setNode found same)

theorem Settled.setHoleState {sheet : Worksheet} (h : sheet.Settled)
    {id : NodeId} {hole : Hole} (found : sheet.get? id = some (.hole hole))
    (state : HoleState) :
    sheet.setHoleState id state =
      sheet.setNode id (.hole { hole with state }) := by
  have written : (sheet.setNode id (.hole { hole with state })).Settled :=
    h.setNode found rfl
  unfold Worksheet.setHoleState changeHoleVia
  rw [hole?_eq_some_iff.mpr found]
  exact written.publish id

theorem Settled.setFeedback_hole {sheet : Worksheet} (h : sheet.Settled)
    {id : NodeId} {hole : Hole} (found : sheet.get? id = some (.hole hole))
    (feedback : Feedback) :
    sheet.setFeedback id feedback =
      sheet.setNode id (.hole (hole.mark feedback)) := by
  rw [h.setFeedback, alter_eq_setNode found, Node.mark_hole]

theorem Settled.setParseFeedback {sheet : Worksheet} (h : sheet.Settled)
    {id : NodeId} {hole : Hole} (found : sheet.get? id = some (.hole hole))
    (feedback : Feedback) :
    sheet.setParseFeedback id feedback =
      sheet.setNode id
        (.hole { hole.mark feedback with parseFeedback := true }) := by
  unfold Worksheet.setParseFeedback
  simp only [h.setFeedback_hole found,
    hole?_eq_some_iff.mpr (get?_setNode_self found _), setNode_setNode]

theorem Settled.setFeedbacks {sheet : Worksheet} (h : sheet.Settled)
    (ids : List NodeId) (feedback : NodeId → Feedback) :
    ids.foldl (fun sheet id => sheet.setFeedback id (feedback id)) sheet =
      sheet.markAll ids feedback := by
  induction ids generalizing sheet with
  | nil => exact (markAll_nil sheet feedback).symm
  | cons id ids ih =>
      rw [List.foldl_cons, h.setFeedback, ih (h.alter id (by simp)),
        alter_markAll]

theorem Settled.clearTriple {sheet : Worksheet} (h : sheet.Settled)
    (triple : TripleRef) :
    sheet.clearTriple triple = sheet.markAll triple.nodes fun _ => .empty :=
  h.setFeedbacks triple.nodes fun _ => .empty

/-! ## Routing on a settled worksheet -/

/-- The node of a triple that the message of a complaint goes to. -/
def carrier (sheet : Worksheet) (triple : TripleRef) : NodeId :=
  (triple.nodes.find? sheet.isHole).getD triple.command

def shown (sheet : Worksheet) (triple : TripleRef) (feedback : Feedback)
    (id : NodeId) : Feedback :=
  if feedback.isCorrect ∨ id = sheet.carrier triple then feedback
  else .incorrectMark

theorem Settled.route_eq {sheet : Worksheet} (h : sheet.Settled)
    (triple : TripleRef) (feedback : Feedback) :
    sheet.route triple feedback =
      let marked := (sheet.forget triple).markAll triple.nodes
        (sheet.shown triple feedback)
      if feedback.isCorrect then marked
      else marked.clearOnFirstEdit triple
        (triple.nodes.filter sheet.isHole) := by
  have forgotten := h.forget triple
  have isHole : (sheet.forget triple).isHole = sheet.isHole := by
    rw [forget_eq]
    rfl
  unfold route shown
  cases praise : feedback.isCorrect with
  | true => simpa using forgotten.setFeedbacks triple.nodes fun _ => feedback
  | false =>
      simp only [forgotten.clearTriple,
        (forgotten.markAll triple.nodes _).setFeedbacks, isHole_markAll,
        isHole, markAll_markAll, carrier, List.headD_eq_head?_getD,
        List.head?_filter, Bool.false_eq_true, if_false, false_or]

theorem Settled.get?_route {sheet : Worksheet} (h : sheet.Settled)
    (triple : TripleRef) (feedback : Feedback) (id : NodeId) :
    (sheet.route triple feedback).get? id =
      (sheet.get? id).map fun node =>
        if id ∈ triple.nodes then node.mark (sheet.shown triple feedback id)
        else node := by
  have marked := get?_markAll (sheet.forget triple) triple.nodes
    (sheet.shown triple feedback) id
  rw [h.route_eq]
  rw [show (sheet.forget triple).get? id = sheet.get? id by
    rw [forget_eq]; rfl] at marked
  cases feedback.isCorrect with
  | true => exact marked
  | false =>
      simp only [Bool.false_eq_true, if_false, clearOnFirstEdit_eq]
      exact marked

theorem Settled.listens_marked {sheet : Worksheet} (h : sheet.Settled)
    {triple : TripleRef} {feedback : NodeId → Feedback} {id : Nat}
    {clearing : Clearing} :
    ((sheet.forget triple).markAll triple.nodes feedback).Listens id
        clearing ↔
      sheet.Listens id clearing ∧ clearing.triple ≠ triple :=
  h.orderly.listens_forget

theorem attempt?_marked {sheet : Worksheet}
    (triple : TripleRef) (feedback : NodeId → Feedback) :
    ((sheet.forget triple).markAll triple.nodes feedback).attempt? =
      sheet.attempt? := by
  rw [attempt?_markAll, forget_eq]
  rfl

theorem Settled.route {sheet : Worksheet} (h : sheet.Settled)
    (triple : TripleRef) (feedback : Feedback) :
    (sheet.route triple feedback).Settled := by
  have marked := (h.forget triple).markAll triple.nodes
    (sheet.shown triple feedback)
  rw [h.route_eq]
  cases feedback.isCorrect with
  | true => exact marked
  | false =>
      refine marked.clearOnFirstEdit
        (fun listens => (h.listens_marked.mp listens).2) fun hole => ?_
      rw [List.mem_filter, isHole_eq, attempt?_marked]

theorem Settled.listens_route {sheet : Worksheet} (h : sheet.Settled)
    {triple : TripleRef} {feedback : Feedback} {id : Nat}
    {clearing : Clearing}
    (listens : (sheet.route triple feedback).Listens id clearing) :
    sheet.Listens id clearing ∨ clearing.triple = triple ∧
      clearing.hole ∈ triple.nodes ∧
      sheet.attempt? clearing.hole = some clearing.before := by
  rw [h.route_eq] at listens
  cases praise : feedback.isCorrect with
  | true =>
      rw [praise] at listens
      exact .inl (h.listens_marked.mp listens).1
  | false =>
      rw [praise] at listens
      rcases listens_clearOnFirstEdit.mp listens with old | new
      · exact .inl (h.listens_marked.mp old).1
      · obtain ⟨i, hole, found, -, rfl⟩ := new
        obtain ⟨mem, isHole⟩ :=
          List.mem_filter.mp (List.mem_of_getElem? found)
        rw [isHole_eq] at isHole
        obtain ⟨attempt, there⟩ := Option.isSome_iff_exists.mp isHole
        refine .inr ⟨rfl, mem, ?_⟩
        rw [attempt?_marked]
        simp [there]

end ProofOutline.Worksheet
