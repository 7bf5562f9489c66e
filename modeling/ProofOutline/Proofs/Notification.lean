import ProofOutline.Proofs.Contents

/-!
# Notification without a depth

`publish` follows the changes that listeners make to a depth fixed in advance.
Here the same work is described without a depth, as duties that are worked off
one after another, with a record of the triples that are cleared on the way.
A clearing takes at least its own listener off the worksheet.  So with clearing
listeners alone the duties come to an end, and `publish` goes that far.
-/

namespace ProofOutline

/-- Work that is still to be done during a notification. -/
inductive Duty where
  /-- Tell these subscribers that a node has changed. -/
  | tell (changed : NodeId) (subs : List Subscription)
  /-- Wipe the feedback of these nodes, one by one. -/
  | wipe (ids : List NodeId)

namespace Worksheet

/-! ## Cancelling by number -/

theorem foldl_unsubscribe (ids : List Nat) (sheet : Worksheet) :
    ids.foldl unsubscribe sheet =
      { sheet with
        subscriptions :=
          sheet.subscriptions.filter fun sub => sub.id ∉ ids } := by
  induction ids generalizing sheet with
  | nil =>
      have all : sheet.subscriptions.filter
          (fun sub => sub.id ∉ ([] : List Nat)) = sheet.subscriptions := by
        simp
      rw [all]
      rfl
  | cons id ids ih =>
      rw [List.foldl_cons, ih]
      simp [unsubscribe, cancel, List.filter_filter, Bool.beq_eq_decide_eq,
        Bool.and_comm]

theorem fire_eq (sheet : Worksheet) (group : Nat) :
    sheet.fire group =
      { sheet with
        groups := sheet.groups.modify group ({ · with fired := true })
        subscriptions := sheet.subscriptions.filter
          fun sub => sub.id ∉ sheet.members group } := by
  rw [fire, foldl_unsubscribe]

@[simp] theorem members_fire (sheet : Worksheet) (group : Nat) :
    (sheet.fire group).members = sheet.members := by
  funext other
  simp only [fire_eq, members, List.getElem?_modify]
  cases sheet.groups[other]? with
  | none => rfl
  | some old => by_cases same : group = other <;> simp [same]

@[simp] theorem hasFired_fire (sheet : Worksheet) (group other : Nat) :
    (sheet.fire group).hasFired other =
      (decide (other = group) || sheet.hasFired other) := by
  simp only [fire_eq, hasFired, List.getElem?_modify]
  cases sheet.groups[other]? with
  | none => simp
  | some old =>
      by_cases same : group = other
      · simp [same]
      · simp [same, Ne.symm same]

private theorem length_fire_lt {sheet : Worksheet} {id group : Nat}
    (live : sheet.isLive id = true) (member : id ∈ sheet.members group) :
    (sheet.fire group).subscriptions.length <
      sheet.subscriptions.length := by
  obtain ⟨sub, mem, same⟩ := List.any_eq_true.mp live
  rw [fire_eq, List.length_filter_lt_length_iff_exists]
  refine ⟨sub, mem, ?_⟩
  simpa [beq_iff_eq.mp same] using member

/-! ## Working off duties -/

/--
The duties, worked off from the first to the last, lead from one worksheet to
another.  A duty that comes up on the way is put in front.  The triples are
those that get cleared, in the order in which this begins.
-/
inductive Settles :
    List Duty → Worksheet → List TripleRef → Worksheet → Prop
  | done {sheet : Worksheet} : Settles [] sheet [] sheet
  | told {changed : NodeId} {duties : List Duty} {sheet after : Worksheet}
      {cleared : List TripleRef} (rest : Settles duties sheet cleared after) :
      Settles (.tell changed [] :: duties) sheet cleared after
  | cancelled {changed : NodeId} {sub : Subscription}
      {subs : List Subscription} {duties : List Duty}
      {sheet after : Worksheet} {cleared : List TripleRef}
      (dead : sheet.isLive sub.id = false)
      (rest : Settles (.tell changed subs :: duties) sheet cleared after) :
      Settles (.tell changed (sub :: subs) :: duties) sheet cleared after
  | unmoved {changed : NodeId} {id : Nat} {clearing : Clearing}
      {subs : List Subscription} {duties : List Duty}
      {sheet after : Worksheet} {cleared : List TripleRef}
      (idle : sheet.triggers clearing changed = false)
      (rest : Settles (.tell changed subs :: duties) sheet cleared after) :
      Settles (.tell changed (⟨id, .clearing clearing⟩ :: subs) :: duties)
        sheet cleared after
  | fired {changed : NodeId} {id : Nat} {clearing : Clearing}
      {subs : List Subscription} {duties : List Duty}
      {sheet after : Worksheet} {cleared : List TripleRef}
      (live : sheet.isLive id = true)
      (edit : sheet.triggers clearing changed = true)
      (rest : Settles
        (.wipe clearing.triple.nodes :: .tell changed subs :: duties)
        (sheet.fire clearing.group) cleared after) :
      Settles (.tell changed (⟨id, .clearing clearing⟩ :: subs) :: duties)
        sheet (clearing.triple :: cleared) after
  | wiped {duties : List Duty} {sheet after : Worksheet}
      {cleared : List TripleRef} (rest : Settles duties sheet cleared after) :
      Settles (.wipe [] :: duties) sheet cleared after
  | skipped {id : NodeId} {ids : List NodeId} {duties : List Duty}
      {sheet after : Worksheet} {cleared : List TripleRef}
      (none : (sheet.get? id).bind (Node.withFeedback? .empty) = none)
      (rest : Settles (.wipe ids :: duties) sheet cleared after) :
      Settles (.wipe (id :: ids) :: duties) sheet cleared after
  | written {id : NodeId} {ids : List NodeId} {duties : List Duty}
      {node : Node} {sheet after : Worksheet} {cleared : List TripleRef}
      (found : (sheet.get? id).bind (Node.withFeedback? .empty) = some node)
      (rest : Settles (.tell id sheet.subscriptions :: .wipe ids :: duties)
        (sheet.setNode id node) cleared after) :
      Settles (.wipe (id :: ids) :: duties) sheet cleared after

theorem Settles.append {first second : List Duty}
    {sheet middle after : Worksheet} {cleared more : List TripleRef}
    (left : Settles first sheet cleared middle)
    (right : Settles second middle more after) :
    Settles (first ++ second) sheet (cleared ++ more) after := by
  induction left with
  | done => exact right
  | told _ ih => exact .told (ih right)
  | cancelled dead _ ih => exact .cancelled dead (ih right)
  | unmoved idle _ ih => exact .unmoved idle (ih right)
  | fired live edit _ ih => exact .fired live edit (ih right)
  | wiped _ ih => exact .wiped (ih right)
  | skipped none _ ih => exact .skipped none (ih right)
  | written found _ ih => exact .written found (ih right)

theorem Settles.unique {duties : List Duty} {sheet after other : Worksheet}
    {cleared log : List TripleRef} (first : Settles duties sheet cleared after)
    (second : Settles duties sheet log other) :
    cleared = log ∧ after = other := by
  induction first generalizing log other with
  | done =>
      cases second
      exact ⟨rfl, rfl⟩
  | told _ ih =>
      cases second with
      | told rest => exact ih rest
  | cancelled dead _ ih =>
      cases second with
      | cancelled _ rest => exact ih rest
      | unmoved _ rest => exact ih rest
      | fired live _ _ => simp [dead] at live
  | unmoved idle _ ih =>
      cases second with
      | cancelled _ rest => exact ih rest
      | unmoved _ rest => exact ih rest
      | fired _ edit _ => simp [idle] at edit
  | fired live edit _ ih =>
      cases second with
      | cancelled dead _ => simp [live] at dead
      | unmoved idle _ => simp [edit] at idle
      | fired _ _ rest =>
          obtain ⟨same, ends⟩ := ih rest
          exact ⟨congrArg _ same, ends⟩
  | wiped _ ih =>
      cases second with
      | wiped rest => exact ih rest
  | skipped none _ ih =>
      cases second with
      | skipped _ rest => exact ih rest
      | written found _ => simp [none] at found
  | written found _ ih =>
      cases second with
      | skipped none _ => simp [found] at none
      | written there rest =>
          cases found.symm.trans there
          exact ih rest

/-- Listeners may go but none comes, and groups keep their members. -/
structure Narrows (before after : Worksheet) : Prop where
  subscriptions : after.subscriptions.Sublist before.subscriptions
  members : after.members = before.members

theorem Settles.narrows {duties : List Duty} {sheet after : Worksheet}
    {cleared : List TripleRef} (h : Settles duties sheet cleared after) :
    Narrows sheet after := by
  induction h with
  | done => exact ⟨.refl _, rfl⟩
  | told _ ih => exact ih
  | cancelled _ _ ih => exact ih
  | unmoved _ _ ih => exact ih
  | @fired _ _ clearing _ _ sheet _ _ _ _ _ ih =>
      have fewer : (sheet.fire clearing.group).subscriptions.Sublist
          sheet.subscriptions := by
        rw [fire_eq]
        exact List.filter_sublist
      exact ⟨ih.subscriptions.trans fewer,
        ih.members.trans (members_fire sheet _)⟩
  | wiped _ ih => exact ih
  | skipped _ _ ih => exact ih
  | written _ _ ih => exact ⟨ih.subscriptions, ih.members⟩

/-! ## Publishing works off its duties -/

def Grouped (sheet : Worksheet) (subs : List Subscription) : Prop :=
  ∀ sub ∈ subs, ∃ clearing, sub.listener = .clearing clearing ∧
    sub.id ∈ sheet.members clearing.group

theorem Grouped.mono {sheet after : Worksheet} {subs : List Subscription}
    (h : sheet.Grouped subs) (same : after.members = sheet.members) :
    after.Grouped subs := by
  intro sub mem
  rw [same]
  exact h sub mem

theorem Narrows.grouped {sheet after : Worksheet} (h : Narrows sheet after)
    (grouped : sheet.Grouped sheet.subscriptions) :
    after.Grouped after.subscriptions := by
  intro sub mem
  rw [h.members]
  exact grouped sub (h.subscriptions.subset mem)

def Publisher.SettlesBelow (publish : Publisher) (bound : Nat) : Prop :=
  ∀ (changed : NodeId) (sheet : Worksheet),
    sheet.Grouped sheet.subscriptions →
    sheet.subscriptions.length < bound →
    ∃ cleared, Settles [.tell changed sheet.subscriptions] sheet cleared
      (publish changed sheet)

private theorem settles_wipe {publish : Publisher} {bound : Nat}
    (settles : publish.SettlesBelow bound) (ids : List NodeId)
    {sheet : Worksheet} (grouped : sheet.Grouped sheet.subscriptions)
    (few : sheet.subscriptions.length < bound) :
    ∃ cleared, Settles [.wipe ids] sheet cleared
      (ids.foldl (fun sheet id => setFeedbackVia publish id .empty sheet)
        sheet) := by
  induction ids generalizing sheet with
  | nil => exact ⟨[], .wiped .done⟩
  | cons id ids ih =>
      rw [List.foldl_cons]
      cases found : (sheet.get? id).bind (Node.withFeedback? .empty) with
      | none =>
          obtain ⟨cleared, rest⟩ := ih grouped few
          refine ⟨cleared, .skipped found ?_⟩
          simpa [setFeedbackVia, found] using rest
      | some node =>
          obtain ⟨cleared, first⟩ :=
            settles id (sheet.setNode id node) grouped few
          have narrows := first.narrows
          obtain ⟨more, rest⟩ := ih (narrows.grouped grouped)
            (Nat.lt_of_le_of_lt narrows.subscriptions.length_le few)
          refine ⟨cleared ++ more, .written found ?_⟩
          rw [setFeedbackVia, found]
          exact first.append rest

private theorem settles_tell {publish : Publisher} {bound : Nat}
    (settles : publish.SettlesBelow bound) (changed : NodeId)
    (subs : List Subscription) {sheet : Worksheet}
    (told : sheet.Grouped subs)
    (grouped : sheet.Grouped sheet.subscriptions)
    (few : sheet.subscriptions.length ≤ bound) :
    ∃ cleared, Settles [.tell changed subs] sheet cleared
      (subs.foldl
        (fun sheet sub =>
          if sheet.isLive sub.id then
            notifyVia publish changed sheet sub.listener
          else sheet)
        sheet) := by
  induction subs generalizing sheet with
  | nil => exact ⟨[], .told .done⟩
  | cons sub subs ih =>
      rw [List.foldl_cons]
      have others : sheet.Grouped subs :=
        fun other mem => told other (List.mem_cons_of_mem _ mem)
      obtain ⟨clearing, listens, member⟩ := told sub List.mem_cons_self
      obtain ⟨id, listener⟩ := sub
      subst listens
      cases live : sheet.isLive id with
      | false =>
          obtain ⟨cleared, rest⟩ := ih others grouped few
          exact ⟨cleared, .cancelled live (by simpa [live] using rest)⟩
      | true =>
          cases edit : sheet.triggers clearing changed with
          | false =>
              obtain ⟨cleared, rest⟩ := ih others grouped few
              refine ⟨cleared, .unmoved edit ?_⟩
              simpa [live, notifyVia, edit] using rest
          | true =>
              -- The listener that fires is gone, which makes room for the
              -- notifications that the wiping sends.
              have fewer := length_fire_lt live member
              have fired : (sheet.fire clearing.group).Grouped
                  (sheet.fire clearing.group).subscriptions := by
                intro sub mem
                rw [members_fire]
                rw [fire_eq] at mem
                exact grouped sub (List.mem_filter.mp mem).1
              obtain ⟨cleared, first⟩ := settles_wipe settles
                clearing.triple.nodes fired (by omega)
              have narrows := first.narrows
              have left := narrows.subscriptions.length_le
              obtain ⟨more, rest⟩ := ih
                (others.mono (narrows.members.trans (members_fire _ _)))
                (narrows.grouped fired) (by omega)
              refine ⟨clearing.triple :: (cleared ++ more),
                .fired live edit ?_⟩
              simpa [live, notifyVia, edit, clearTripleVia] using
                first.append rest

private theorem settlesBelow_publishWithin (depth : Nat) :
    Publisher.SettlesBelow (publishWithin depth) depth := by
  induction depth with
  | zero =>
      intro changed sheet _ few
      exact absurd few (Nat.not_lt_zero _)
  | succ depth ih =>
      intro changed sheet grouped few
      exact settles_tell ih changed sheet.subscriptions grouped grouped
        (Nat.le_of_lt_succ few)

/-- Any depth beyond the number of listeners leads to the same end. -/
theorem Settles.publishWithin_eq {sheet after : Worksheet}
    {changed : NodeId} {cleared : List TripleRef}
    (h : Settles [.tell changed sheet.subscriptions] sheet cleared after)
    (grouped : sheet.Grouped sheet.subscriptions) {depth : Nat}
    (enough : sheet.subscriptions.length < depth) :
    publishWithin depth changed sheet = after := by
  obtain ⟨log, run⟩ :=
    settlesBelow_publishWithin depth changed sheet grouped enough
  exact (run.unique h).2

theorem settles_publish {sheet : Worksheet} (changed : NodeId)
    (grouped : sheet.Grouped sheet.subscriptions) :
    ∃ cleared, Settles [.tell changed sheet.subscriptions] sheet cleared
      (publish changed sheet) := by
  have enough : sheet.subscriptions.length < sheet.reach := by
    have positive : 0 < sheet.subscriptions.length + 1 := Nat.succ_pos _
    exact Nat.lt_of_lt_of_le (Nat.lt_succ_self _)
      (Nat.le_mul_of_pos_left _ positive)
  exact settlesBelow_publishWithin sheet.reach changed sheet grouped enough

end Worksheet

end ProofOutline
