import Mathlib.Data.List.Forall2
import ProofOutline.Worksheet

/-!
# Which commands are cut out

A command makes a triple exactly if the nearest steps of the proof on both
sides of it hold assertions.  Remarks and unknown nodes are no steps of the
proof, and the same node may stand at several places of the order.
-/

namespace ProofOutline.Worksheet

variable {sheet : Worksheet} {order : List NodeId}

/-! ## What the nodes hold -/

def PassedOver (sheet : Worksheet) (id : NodeId) : Prop :=
  sheet.get? id = none ∨ ∃ body, sheet.get? id = some (.remark body)

def HoldsCommand (sheet : Worksheet) (id : NodeId) : Prop :=
  ∃ program feedback, sheet.get? id = some (.command program feedback)

def HoldsAssertion (sheet : Worksheet) (id : NodeId) : Prop :=
  (∃ assertion feedback, sheet.get? id = some (.given assertion feedback)) ∨
    ∃ hole, sheet.get? id = some (.hole hole)

section Nodes

variable {id : NodeId}

theorem passedOver_iff : sheet.PassedOver id ↔ sheet.isCore id = false := by
  unfold PassedOver isCore
  cases sheet.get? id with
  | none => simp
  | some node => cases node <;> simp [Node.isCore]

theorem holdsCommand_iff :
    sheet.HoldsCommand id ↔ sheet.isCommand id = true := by
  unfold HoldsCommand isCommand
  cases sheet.get? id with
  | none => simp
  | some node => cases node <;> simp [Node.isCommand]

theorem holdsAssertion_iff :
    sheet.HoldsAssertion id ↔ sheet.bearsAssertion id = true := by
  unfold HoldsAssertion bearsAssertion
  cases sheet.get? id with
  | none => simp
  | some node => cases node <;> simp [Node.bearsAssertion]

theorem HoldsCommand.isCore (h : sheet.HoldsCommand id) :
    sheet.isCore id = true := by
  obtain ⟨program, feedback, found⟩ := h
  simp [Worksheet.isCore, found, Node.isCore]

end Nodes

/-! ## Neighbours of a place -/

def NearestBefore (sheet : Worksheet) (order : List NodeId) (place : Nat)
    (id : NodeId) : Prop :=
  ∃ earlier < place, order[earlier]? = some id ∧ ¬sheet.PassedOver id ∧
    ∀ between other, earlier < between → between < place →
      order[between]? = some other → sheet.PassedOver other

def NearestAfter (sheet : Worksheet) (order : List NodeId) (place : Nat)
    (id : NodeId) : Prop :=
  ∃ later > place, order[later]? = some id ∧ ¬sheet.PassedOver id ∧
    ∀ between other, place < between → between < later →
      order[between]? = some other → sheet.PassedOver other

/-- The command at the place stands between two assertions. -/
structure TripleAt (sheet : Worksheet) (order : List NodeId) (place : Nat)
    (triple : TripleRef) : Prop where
  here : order[place]? = some triple.command
  isCommand : sheet.HoldsCommand triple.command
  before : sheet.NearestBefore order place triple.pre
  preBears : sheet.HoldsAssertion triple.pre
  after : sheet.NearestAfter order place triple.post
  postBears : sheet.HoldsAssertion triple.post

private theorem not_nearestBefore_zero {id : NodeId} :
    ¬sheet.NearestBefore order 0 id := by
  rintro ⟨earlier, less, -⟩
  exact Nat.not_lt_zero _ less

theorem nearestBefore_succ_core {place : Nat} {here id : NodeId}
    (found : order[place]? = some here) (core : sheet.isCore here = true) :
    sheet.NearestBefore order (place + 1) id ↔ here = id := by
  simp only [NearestBefore, passedOver_iff, Bool.not_eq_false]
  constructor
  · rintro ⟨earlier, less, isId, -, passed⟩
    rcases Nat.lt_succ_iff_lt_or_eq.mp less with less | rfl
    · have notCore := passed place here less (Nat.lt_succ_self _) found
      simp [core] at notCore
    · exact Option.some.inj (found.symm.trans isId)
  · rintro rfl
    refine ⟨place, Nat.lt_succ_self _, found, core, fun between _ => ?_⟩
    omega

theorem nearestBefore_succ_passed {place : Nat} {here id : NodeId}
    (found : order[place]? = some here)
    (passed : sheet.isCore here = false) :
    sheet.NearestBefore order (place + 1) id ↔
      sheet.NearestBefore order place id := by
  simp only [NearestBefore, passedOver_iff, Bool.not_eq_false]
  constructor
  · rintro ⟨earlier, less, isId, core, others⟩
    rcases Nat.lt_succ_iff_lt_or_eq.mp less with less | rfl
    · refine ⟨earlier, less, isId, core, fun between other above below => ?_⟩
      exact others between other above (Nat.lt_succ_of_lt below)
    · cases found.symm.trans isId
      simp [passed] at core
  · rintro ⟨earlier, less, isId, core, others⟩
    refine ⟨earlier, Nat.lt_succ_of_lt less, isId, core,
      fun between other above below isOther => ?_⟩
    rcases Nat.lt_succ_iff_lt_or_eq.mp below with below | rfl
    · exact others between other above below isOther
    · cases found.symm.trans isOther
      exact passed

theorem nearestAfter_iff {front rest : List NodeId} {here id : NodeId} :
    sheet.NearestAfter (front ++ here :: rest) front.length id ↔
      (rest.filter sheet.isCore).head? = some id := by
  have shifted (offset : Nat) :
      (front ++ here :: rest)[front.length + 1 + offset]? = rest[offset]? := by
    rw [List.getElem?_append_right (by omega)]
    simp [Nat.add_assoc, Nat.add_comm 1]
  rw [List.head?_filter, List.find?_eq_some_iff_getElem]
  simp only [NearestAfter, passedOver_iff, Bool.not_eq_false]
  constructor
  · rintro ⟨later, less, isId, core, passed⟩
    obtain ⟨offset, rfl⟩ := Nat.exists_eq_add_of_le (Nat.succ_le_of_lt less)
    rw [shifted] at isId
    obtain ⟨inside, isId⟩ := List.getElem?_eq_some_iff.mp isId
    refine ⟨core, offset, inside, isId, fun other below => ?_⟩
    have notCore := passed (front.length + 1 + other) rest[other]
      (by omega) (by omega) (by rw [shifted, List.getElem?_eq_getElem])
    simp [notCore]
  · rintro ⟨core, offset, inside, isId, passed⟩
    refine ⟨front.length + 1 + offset, by omega, ?_, core,
      fun between other above below isOther => ?_⟩
    · rw [shifted, List.getElem?_eq_some_iff]
      exact ⟨inside, isId⟩
    · obtain ⟨nearer, rfl⟩ := Nat.exists_eq_add_of_le (Nat.succ_le_of_lt above)
      rw [shifted] at isOther
      obtain ⟨_, rfl⟩ := List.getElem?_eq_some_iff.mp isOther
      simpa using passed nearer (by omega)

/-! ## Triples at places -/

/--
The triples are those at the places from `start` on, one for each place and in
their order.
-/
def CutsFrom (sheet : Worksheet) (order : List NodeId) (start : Nat)
    (triples : List TripleRef) : Prop :=
  ∃ places : List Nat, places.Pairwise (· < ·) ∧
    (∀ place, place ∈ places ↔
      start ≤ place ∧ ∃ triple, sheet.TripleAt order place triple) ∧
    List.Forall₂ (fun place triple => ∀ other,
      sheet.TripleAt order place other ↔ triple = other) places triples

private theorem cutsFrom_end : sheet.CutsFrom order order.length [] := by
  refine ⟨[], .nil, fun place => ?_, .nil⟩
  refine iff_of_false List.not_mem_nil ?_
  rintro ⟨outside, triple, isTriple⟩
  have none := List.getElem?_eq_none outside
  rw [isTriple.here] at none
  cases none

theorem CutsFrom.step {start : Nat} {triples : List TripleRef}
    (later : sheet.CutsFrom order (start + 1) triples)
    {found : Option TripleRef}
    (here : ∀ triple, sheet.TripleAt order start triple ↔
      found = some triple) :
    sheet.CutsFrom order start (found.toList ++ triples) := by
  obtain ⟨places, increasing, complete, each⟩ := later
  have split (place : Nat) :
      (start ≤ place ∧ ∃ triple, sheet.TripleAt order place triple) ↔
        (place = start ∧ ∃ triple, found = some triple) ∨ place ∈ places := by
    simp only [← here, complete]
    by_cases same : place = start
    · subst same
      simp
    · have further : start ≤ place ↔ start + 1 ≤ place := by omega
      simp [same, further]
  cases found with
  | none =>
      refine ⟨places, increasing, fun place => ?_, each⟩
      rw [split]
      simp
  | some triple =>
      refine ⟨start :: places, .cons (fun place mem => ?_) increasing,
        fun place => ?_, .cons (by simpa using here) each⟩
      · exact ((complete place).mp mem).1
      · rw [split]
        simp

/-! ## The cut -/

def tripleAround (sheet : Worksheet) (before : Option NodeId) (id : NodeId)
    (after : Option NodeId) : Option TripleRef :=
  (before.bind fun pre => after.map fun post => ⟨pre, id, post⟩).filter
    sheet.isTriple

private theorem filter_windows_cons (before : Option NodeId) (id : NodeId)
    (rest : List NodeId) :
    (windows (before.toList ++ id :: rest)).filter sheet.isTriple =
      (sheet.tripleAround before id rest.head?).toList ++
        (windows (id :: rest)).filter sheet.isTriple := by
  cases before with
  | none => rfl
  | some pre =>
      cases rest with
      | nil => rfl
      | cons post rest =>
          rw [tripleAround, List.head?_cons, Option.bind_some,
            Option.map_some]
          cases isTriple : sheet.isTriple ⟨pre, id, post⟩ with
          | true =>
              rw [Option.filter_some_pos isTriple]
              exact List.filter_cons_of_pos isTriple
          | false =>
              rw [Option.filter_some_neg isTriple]
              exact List.filter_cons_of_neg (by simp [isTriple])

theorem tripleAt_iff {front rest : List NodeId} {id : NodeId}
    {before : Option NodeId}
    (nearest : ∀ pre,
      sheet.NearestBefore (front ++ id :: rest) front.length pre ↔
        before = some pre) (triple : TripleRef) :
    sheet.TripleAt (front ++ id :: rest) front.length triple ↔
      sheet.tripleAround before id (rest.filter sheet.isCore).head? =
        some triple := by
  have here : (front ++ id :: rest)[front.length]? = some id := by simp
  simp only [tripleAround, Option.filter_eq_some_iff,
    Option.bind_eq_some_iff, Option.map_eq_some_iff, isTriple,
    Bool.and_eq_true]
  constructor
  · intro h
    cases here.symm.trans h.here
    exact ⟨⟨triple.pre, (nearest _).mp h.before, triple.post,
      nearestAfter_iff.mp h.after, rfl⟩,
      ⟨holdsAssertion_iff.mp h.preBears, holdsCommand_iff.mp h.isCommand⟩,
      holdsAssertion_iff.mp h.postBears⟩
  · rintro ⟨⟨pre, isPre, post, isPost, rfl⟩, ⟨preBears, isCommand⟩, postBears⟩
    exact ⟨here, holdsCommand_iff.mpr isCommand, (nearest pre).mpr isPre,
      holdsAssertion_iff.mpr preBears, nearestAfter_iff.mpr isPost,
      holdsAssertion_iff.mpr postBears⟩

private theorem cutsFrom_windows {front rest : List NodeId}
    {before : Option NodeId} (nearest : ∀ pre,
      sheet.NearestBefore (front ++ rest) front.length pre ↔
        before = some pre) :
    sheet.CutsFrom (front ++ rest) front.length
      ((windows (before.toList ++ rest.filter sheet.isCore)).filter
        sheet.isTriple) := by
  induction rest generalizing front before with
  | nil =>
      have none : windows before.toList = [] := by cases before <;> rfl
      simpa [none] using @cutsFrom_end sheet front
  | cons id rest ih =>
      have here : (front ++ id :: rest)[front.length]? = some id := by simp
      have around := tripleAt_iff nearest
      have next {after : Option NodeId}
          (moved : ∀ pre, sheet.NearestBefore (front ++ id :: rest)
            (front.length + 1) pre ↔ after = some pre) :
          sheet.CutsFrom (front ++ id :: rest) (front.length + 1)
            ((windows (after.toList ++ rest.filter sheet.isCore)).filter
              sheet.isTriple) := by
        have moved : ∀ pre, sheet.NearestBefore (front ++ [id] ++ rest)
            (front ++ [id]).length pre ↔ after = some pre := by
          simpa using moved
        simpa using ih moved
      cases core : sheet.isCore id with
      | true =>
          rw [List.filter_cons_of_pos core, filter_windows_cons]
          refine CutsFrom.step (@next (some id) fun pre => ?_) around
          rw [nearestBefore_succ_core here core, Option.some.injEq]
      | false =>
          have bare : ∀ triple,
              sheet.TripleAt (front ++ id :: rest) front.length triple ↔
                none = some triple := by
            intro triple
            refine iff_of_false (fun isTriple => ?_) (by simp)
            cases here.symm.trans isTriple.here
            simp [isTriple.isCommand.isCore] at core
          rw [List.filter_cons_of_neg (by simp [core])]
          refine (next fun pre => ?_).step bare
          rw [nearestBefore_succ_passed here core, nearest]

/--
The triples of a proof are those around its commands, in the order of the
places.  Each command whose neighbours, remarks and unknown nodes apart, are
assertions makes exactly one triple, and there are no others.
-/
theorem segment_exact (sheet : Worksheet) (order : List NodeId) :
    ∃ places : List Nat, places.Pairwise (· < ·) ∧
      (∀ place, place ∈ places ↔
        ∃ triple, sheet.TripleAt order place triple) ∧
      List.Forall₂ (fun place triple => ∀ other,
        sheet.TripleAt order place other ↔ triple = other) places
          (sheet.segment order) := by
  have start : ∀ pre, sheet.NearestBefore ([] ++ order) 0 pre ↔
      none = some pre :=
    fun pre => iff_of_false not_nearestBefore_zero (by simp)
  obtain ⟨places, increasing, complete, each⟩ := cutsFrom_windows start
  exact ⟨places, increasing, by simpa using complete, each⟩

end ProofOutline.Worksheet
