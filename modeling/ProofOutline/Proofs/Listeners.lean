import ProofOutline.Proofs.Marking
import ProofOutline.Proofs.Notification

/-!
# Clearing listeners in order

The clearing listeners of a worksheet are in order when each has a number of
its own, the listeners of one triple are the members of one group that has not
fired, one for each hole of the triple, and the worksheet has recorded them for
that triple.  As long as each of them also remembers the attempt that stands in
its hole, no change moves any of them, so that feedback is written as if nobody
listened.
-/

namespace ProofOutline.Worksheet

/-! ## Order among listeners -/

def Listens (sheet : Worksheet) (id : Nat) (clearing : Clearing) : Prop :=
  ⟨id, .clearing clearing⟩ ∈ sheet.subscriptions

structure Orderly (sheet : Worksheet) : Prop where
  onlyClearing : sheet.OnlyClearing
  distinct : (sheet.subscriptions.map Subscription.id).Nodup
  issued : ∀ {id : Nat} {clearing : Clearing},
    sheet.Listens id clearing → id < sheet.nextId
  issuedMembers : ∀ {group id : Nat},
    id ∈ sheet.members group → id < sheet.nextId
  issuedRecords : ∀ {triple : TripleRef} {id : Nat},
    id ∈ sheet.recorded triple → id < sheet.nextId
  waiting : ∀ {id : Nat} {clearing : Clearing},
    sheet.Listens id clearing → sheet.hasFired clearing.group = false
  /-- The group of a listener is what listens for the same triple. -/
  grouped : ∀ {id other : Nat} {clearing sibling : Clearing},
    sheet.Listens id clearing → sheet.Listens other sibling →
      (other ∈ sheet.members clearing.group ↔
        sibling.triple = clearing.triple)
  recorded : ∀ {id : Nat} {clearing : Clearing} {triple : TripleRef},
    sheet.Listens id clearing →
      (id ∈ sheet.recorded triple ↔ clearing.triple = triple)
  inTriple : ∀ {id : Nat} {clearing : Clearing},
    sheet.Listens id clearing → clearing.hole ∈ clearing.triple.nodes
  everyHole : ∀ {id : Nat} {clearing : Clearing} {hole : NodeId},
    sheet.Listens id clearing → hole ∈ clearing.triple.nodes →
      (sheet.attempt? hole).isSome →
      ∃ other sibling, sheet.Listens other sibling ∧
        sibling.triple = clearing.triple ∧ sibling.hole = hole

/--
Every listener remembers the attempt that its hole holds, but for those on the
hole just edited, which remember another.
-/
def Recalls (sheet : Worksheet) (edited : Option NodeId) : Prop :=
  ∀ {id : Nat} {clearing : Clearing}, sheet.Listens id clearing →
    (sheet.attempt? clearing.hole = some clearing.before ↔
      edited ≠ some clearing.hole)

structure Settled (sheet : Worksheet) : Prop where
  orderly : sheet.Orderly
  recalls : sheet.Recalls none

theorem OnlyClearing.exists_listens {sheet : Worksheet}
    (h : sheet.OnlyClearing) {sub : Subscription}
    (mem : sub ∈ sheet.subscriptions) :
    ∃ clearing, sub = ⟨sub.id, .clearing clearing⟩ ∧
      sheet.Listens sub.id clearing := by
  obtain ⟨id, listener⟩ := sub
  have isClearing := h _ mem
  cases listener with
  | clearing clearing => exact ⟨clearing, rfl, mem⟩
  | observer observer => cases isClearing

theorem Listens.isLive {sheet : Worksheet} {id : Nat} {clearing : Clearing}
    (h : sheet.Listens id clearing) : sheet.isLive id = true :=
  List.any_eq_true.mpr ⟨_, h, by simp⟩

theorem Orderly.grouped_self {sheet : Worksheet} (h : sheet.Orderly) :
    sheet.Grouped sheet.subscriptions := by
  intro sub mem
  obtain ⟨clearing, same, listens⟩ := h.onlyClearing.exists_listens mem
  refine ⟨clearing, congrArg Subscription.listener same, ?_⟩
  exact (h.grouped listens listens).mpr rfl

theorem triggers_eq {sheet : Worksheet} {edited : Option NodeId}
    (orderly : sheet.Orderly) (recalls : sheet.Recalls edited) {id : Nat}
    {clearing : Clearing} (listens : sheet.Listens id clearing)
    (changed : NodeId) :
    sheet.triggers clearing changed = true ↔
      changed = clearing.hole ∧ edited = some clearing.hole := by
  have recalled := recalls listens
  have waiting := orderly.waiting listens
  simp only [triggers, waiting, Bool.not_false, Bool.and_true,
    Bool.and_eq_true, beq_iff_eq, bne_iff_ne, recalled, ne_eq, Decidable.not_not]

/-! ## Nobody is moved -/

private theorem foldl_eq_self {α β : Type} {step : α → β → α}
    {items : List β} {start : α} (h : ∀ item ∈ items, step start item = start) :
    items.foldl step start = start := by
  induction items with
  | nil => rfl
  | cons item items ih =>
      rw [List.foldl_cons, h item List.mem_cons_self]
      exact ih fun other mem => h other (List.mem_cons_of_mem _ mem)

theorem publish_of_unmoved {sheet : Worksheet} {changed : NodeId}
    (onlyClearing : sheet.OnlyClearing)
    (unmoved : ∀ id clearing, sheet.Listens id clearing →
      sheet.triggers clearing changed = false) :
    publish changed sheet = sheet := by
  unfold publish
  cases sheet.reach with
  | zero => rfl
  | succ depth =>
      refine foldl_eq_self fun sub mem => ?_
      obtain ⟨clearing, same, listens⟩ := onlyClearing.exists_listens mem
      rw [if_pos listens.isLive, same]
      simp [notifyVia, unmoved _ _ listens]

theorem Settled.publish {sheet : Worksheet} (h : sheet.Settled)
    (changed : NodeId) : publish changed sheet = sheet := by
  refine publish_of_unmoved h.orderly.onlyClearing fun id clearing listens => ?_
  have trigger := triggers_eq h.orderly h.recalls listens changed
  simpa using trigger

/-! ## What order does not depend on -/

theorem Orderly.withNodes {sheet : Worksheet} (h : sheet.Orderly)
    {nodes : List Node}
    (holes : ∀ id, (attempt? { sheet with nodes } id).isSome =
      (sheet.attempt? id).isSome) :
    Orderly { sheet with nodes } where
  onlyClearing := h.onlyClearing
  distinct := h.distinct
  issued := h.issued
  issuedMembers := h.issuedMembers
  issuedRecords := h.issuedRecords
  waiting := h.waiting
  grouped := h.grouped
  recorded := h.recorded
  inTriple := h.inTriple
  everyHole := by
    intro id clearing hole listens mem isHole
    rw [holes] at isHole
    exact h.everyHole listens mem isHole

theorem Settled.withNodes {sheet : Worksheet} (h : sheet.Settled)
    {nodes : List Node}
    (attempts : attempt? { sheet with nodes } = sheet.attempt?) :
    Settled { sheet with nodes } where
  orderly := h.orderly.withNodes fun id => by rw [attempts]
  recalls := by
    intro id clearing listens
    rw [attempts]
    exact h.recalls listens

theorem Settled.alter {sheet : Worksheet} (h : sheet.Settled) (id : NodeId)
    {change : Node → Node}
    (keeps : ∀ node, (change node).attempt? = node.attempt?) :
    (sheet.alter id change).Settled :=
  h.withNodes (attempt?_alter sheet id keeps)

theorem Settled.markAll {sheet : Worksheet} (h : sheet.Settled)
    (ids : List NodeId) (feedback : NodeId → Feedback) :
    (sheet.markAll ids feedback).Settled :=
  h.withNodes (attempt?_markAll sheet ids feedback)

/-! ## Taking listeners away -/

theorem Orderly.without {sheet after : Worksheet} (h : sheet.Orderly)
    (triple : TripleRef)
    (fewer : after.subscriptions.Sublist sheet.subscriptions)
    (left : ∀ {id : Nat} {clearing : Clearing}, after.Listens id clearing ↔
      sheet.Listens id clearing ∧ clearing.triple ≠ triple)
    (waiting : ∀ {id : Nat} {clearing : Clearing},
      after.Listens id clearing → after.hasFired clearing.group = false)
    (nextId : after.nextId = sheet.nextId)
    (members : after.members = sheet.members)
    (attempts : after.attempt? = sheet.attempt?)
    (others : ∀ other, other ≠ triple →
      after.recorded other = sheet.recorded other)
    (own : ∀ id ∈ after.recorded triple, id ∈ sheet.recorded triple) :
    after.Orderly where
  onlyClearing sub mem := h.onlyClearing sub (fewer.subset mem)
  distinct := (fewer.map Subscription.id).nodup h.distinct
  issued listens := by
    rw [nextId]
    exact h.issued (left.mp listens).1
  issuedMembers mem := by
    rw [nextId]
    rw [members] at mem
    exact h.issuedMembers mem
  issuedRecords := by
    intro other id mem
    rw [nextId]
    by_cases same : other = triple
    · subst same
      exact h.issuedRecords (own id mem)
    · rw [others other same] at mem
      exact h.issuedRecords mem
  waiting := waiting
  grouped listens sibling := by
    rw [members]
    exact h.grouped (left.mp listens).1 (left.mp sibling).1
  recorded := by
    intro id clearing other listens
    obtain ⟨before, different⟩ := left.mp listens
    by_cases same : other = triple
    · subst same
      have absent := mt (own id) (mt (h.recorded before).mp different)
      exact iff_of_false absent different
    · rw [others other same]
      exact h.recorded before
  inTriple listens := h.inTriple (left.mp listens).1
  everyHole := by
    intro id clearing hole listens mem isHole
    rw [attempts] at isHole
    obtain ⟨before, different⟩ := left.mp listens
    obtain ⟨other, sibling, there, same, here⟩ :=
      h.everyHole before mem isHole
    exact ⟨other, sibling, left.mpr ⟨there, same ▸ different⟩, same, here⟩

theorem Orderly.listens_fire {sheet : Worksheet} (h : sheet.Orderly)
    {id other : Nat} {clearing sibling : Clearing}
    (here : sheet.Listens id clearing) :
    (sheet.fire clearing.group).Listens other sibling ↔
      sheet.Listens other sibling ∧ sibling.triple ≠ clearing.triple := by
  rw [fire_eq]
  simp only [Listens, List.mem_filter, decide_eq_true_eq]
  refine and_congr_right fun listens => ?_
  exact not_congr (h.grouped here listens)

theorem Orderly.fire {sheet : Worksheet} (h : sheet.Orderly) {id : Nat}
    {clearing : Clearing} (here : sheet.Listens id clearing) :
    (sheet.fire clearing.group).Orderly := by
  have left {other : Nat} {sibling : Clearing} :
      (sheet.fire clearing.group).Listens other sibling ↔
        sheet.Listens other sibling ∧ sibling.triple ≠ clearing.triple :=
    h.listens_fire here
  refine h.without clearing.triple ?_ left ?_ ?_ (members_fire _ _) ?_ ?_ ?_
  · rw [fire_eq]
    exact List.filter_sublist
  · intro other sibling listens
    obtain ⟨before, different⟩ := left.mp listens
    -- A listener left over is in another group, as its own knows it.
    have apart : sibling.group ≠ clearing.group := by
      intro same
      have member := (h.grouped before before).mpr rfl
      rw [same] at member
      exact different ((h.grouped here before).mp member)
    simp [apart, h.waiting before]
  · rw [fire_eq]
  · rw [fire_eq]
    rfl
  · intro other _
    rw [fire_eq]
  · intro id mem
    rwa [fire_eq] at mem

theorem Recalls.fire {sheet : Worksheet} {edited : Option NodeId}
    (h : sheet.Recalls edited) (group : Nat) :
    (sheet.fire group).Recalls edited := by
  intro id clearing listens
  rw [fire_eq] at listens ⊢
  exact h (List.mem_filter.mp listens).1

theorem forget_eq (sheet : Worksheet) (triple : TripleRef) :
    sheet.forget triple =
      { sheet with
        subscriptions := sheet.subscriptions.filter
          fun sub => sub.id ∉ sheet.recorded triple
        recorded := fun other =>
          if other = triple then [] else sheet.recorded other } := by
  rw [forget, foldl_unsubscribe]
  rfl

theorem Orderly.listens_forget {sheet : Worksheet} (h : sheet.Orderly)
    {triple : TripleRef} {id : Nat} {clearing : Clearing} :
    (sheet.forget triple).Listens id clearing ↔
      sheet.Listens id clearing ∧ clearing.triple ≠ triple := by
  rw [forget_eq]
  simp only [Listens, List.mem_filter, decide_eq_true_eq]
  refine and_congr_right fun listens => ?_
  exact not_congr (h.recorded listens)

theorem Settled.forget {sheet : Worksheet} (h : sheet.Settled)
    (triple : TripleRef) : (sheet.forget triple).Settled := by
  have left {id : Nat} {clearing : Clearing} :
      (sheet.forget triple).Listens id clearing ↔
        sheet.Listens id clearing ∧ clearing.triple ≠ triple :=
    h.orderly.listens_forget
  constructor
  · refine h.orderly.without triple ?_ left ?_ ?_ ?_ ?_ ?_ ?_
    · rw [forget_eq]
      exact List.filter_sublist
    · intro id clearing listens
      rw [forget_eq]
      exact h.orderly.waiting (left.mp listens).1
    · rw [forget_eq]
    · rw [forget_eq]
      rfl
    · rw [forget_eq]
      rfl
    · intro other different
      simp [forget_eq, different]
    · intro id mem
      simp [forget_eq] at mem
  · intro id clearing listens
    have before := h.recalls (left.mp listens).1
    rw [forget_eq]
    exact before

/-! ## Adding a group -/

private theorem foldl_subscribe (triple : TripleRef) (group : Nat)
    (holes : List NodeId) (sheet : Worksheet) :
    holes.foldl
        (fun sheet hole =>
          sheet.subscribe (.clearing
            ⟨triple, hole, (sheet.attempt? hole).getD "", group⟩))
        sheet =
      { sheet with
        subscriptions := sheet.subscriptions ++
          holes.mapIdx fun i hole => ⟨sheet.nextId + i, .clearing
            ⟨triple, hole, (sheet.attempt? hole).getD "", group⟩⟩
        nextId := sheet.nextId + holes.length } := by
  induction holes generalizing sheet with
  | nil => simp
  | cons hole holes ih =>
      rw [List.foldl_cons, ih]
      simp only [subscribe, List.mapIdx_cons, List.append_assoc,
        List.singleton_append, List.length_cons, Nat.add_zero, Nat.add_assoc,
        Nat.add_comm 1]
      rfl

theorem clearOnFirstEdit_eq (sheet : Worksheet) (triple : TripleRef)
    (holes : List NodeId) :
    sheet.clearOnFirstEdit triple holes =
      { sheet with
        subscriptions := sheet.subscriptions ++
          holes.mapIdx fun i hole => ⟨sheet.nextId + i, .clearing
            ⟨triple, hole, (sheet.attempt? hole).getD "",
              sheet.groups.length⟩⟩
        nextId := sheet.nextId + holes.length
        groups := sheet.groups ++
          [⟨false, List.range' sheet.nextId holes.length⟩]
        recorded := fun other =>
          if other = triple then List.range' sheet.nextId holes.length
          else sheet.recorded other } := by
  rw [clearOnFirstEdit, foldl_subscribe]
  rfl

theorem filterMap_clearOnFirstEdit {β : Type} (view : Listener → Option β)
    (sheet : Worksheet) (triple : TripleRef) (holes : List NodeId) :
    (sheet.clearOnFirstEdit triple holes).subscriptions.filterMap
        (fun sub => view sub.listener) =
      sheet.subscriptions.filterMap (fun sub => view sub.listener) ++
        holes.filterMap fun hole => view (.clearing
          ⟨triple, hole, (sheet.attempt? hole).getD "",
            sheet.groups.length⟩) := by
  rw [clearOnFirstEdit_eq, List.filterMap_append, List.mapIdx_eq_zipIdx_map,
    List.filterMap_map]
  refine congrArg _ ?_
  conv => rhs; rw [← List.zipIdx_map_fst 0 holes, List.filterMap_map]
  rfl

theorem listens_clearOnFirstEdit {sheet : Worksheet} {triple : TripleRef}
    {holes : List NodeId} {id : Nat} {clearing : Clearing} :
    (sheet.clearOnFirstEdit triple holes).Listens id clearing ↔
      sheet.Listens id clearing ∨
        ∃ i hole, holes[i]? = some hole ∧ id = sheet.nextId + i ∧
          clearing = ⟨triple, hole, (sheet.attempt? hole).getD "",
            sheet.groups.length⟩ := by
  rw [clearOnFirstEdit_eq]
  refine List.mem_append.trans (or_congr_right ?_)
  simp only [List.mem_iff_getElem?, List.getElem?_mapIdx,
    Option.map_eq_some_iff]
  constructor
  · rintro ⟨i, hole, found, same⟩
    cases same
    exact ⟨i, hole, found, rfl, rfl⟩
  · rintro ⟨i, hole, found, rfl, rfl⟩
    exact ⟨i, hole, found, rfl⟩

@[simp] theorem getElem?_groups_clearOnFirstEdit (sheet : Worksheet)
    (triple : TripleRef) (holes : List NodeId) (group : Nat) :
    (sheet.clearOnFirstEdit triple holes).groups[group]? =
      if group = sheet.groups.length then
        some ⟨false, List.range' sheet.nextId holes.length⟩
      else sheet.groups[group]? := by
  rw [clearOnFirstEdit_eq]
  by_cases last : group = sheet.groups.length
  · simp [last]
  · by_cases inside : group < sheet.groups.length
    · simp [last, List.getElem?_append_left inside]
    · have outside : sheet.groups.length + 1 ≤ group := by omega
      rw [if_neg last, List.getElem?_eq_none (by simpa using outside),
        List.getElem?_eq_none (by omega)]

@[simp] theorem members_clearOnFirstEdit (sheet : Worksheet)
    (triple : TripleRef) (holes : List NodeId) (group : Nat) :
    (sheet.clearOnFirstEdit triple holes).members group =
      if group = sheet.groups.length then
        List.range' sheet.nextId holes.length
      else sheet.members group := by
  unfold members
  rw [getElem?_groups_clearOnFirstEdit]
  by_cases last : group = sheet.groups.length <;> simp [last]

@[simp] theorem hasFired_clearOnFirstEdit (sheet : Worksheet)
    (triple : TripleRef) (holes : List NodeId) (group : Nat) :
    (sheet.clearOnFirstEdit triple holes).hasFired group =
      (decide (group ≠ sheet.groups.length) && sheet.hasFired group) := by
  unfold hasFired
  rw [getElem?_groups_clearOnFirstEdit]
  by_cases last : group = sheet.groups.length <;> simp [last]

private theorem lt_of_hasFired_eq_false {sheet : Worksheet} {group : Nat}
    (h : sheet.hasFired group = false) : group < sheet.groups.length := by
  refine Nat.lt_of_not_le fun outside => ?_
  simp [hasFired, List.getElem?_eq_none outside] at h

private theorem map_id_mapIdx (first : Nat) (listener : NodeId → Listener)
    (holes : List NodeId) :
    (holes.mapIdx fun i hole =>
        (⟨first + i, listener hole⟩ : Subscription)).map Subscription.id =
      List.range' first holes.length := by
  induction holes generalizing first with
  | nil => rfl
  | cons hole holes ih =>
      have next := ih (first + 1)
      simp only [Nat.add_assoc, Nat.add_comm 1] at next
      simp only [List.mapIdx_cons, List.map_cons, Nat.add_zero,
        List.length_cons, List.range'_succ, next]

theorem Orderly.clearOnFirstEdit {sheet : Worksheet} (h : sheet.Orderly)
    {triple : TripleRef} {holes : List NodeId}
    (absent : ∀ {id : Nat} {clearing : Clearing},
      sheet.Listens id clearing → clearing.triple ≠ triple)
    (covers : ∀ hole, hole ∈ holes ↔
      hole ∈ triple.nodes ∧ (sheet.attempt? hole).isSome) :
    (sheet.clearOnFirstEdit triple holes).Orderly := by
  have attempts : (sheet.clearOnFirstEdit triple holes).attempt? =
      sheet.attempt? := by
    rw [clearOnFirstEdit_eq]
    rfl
  have nextId : (sheet.clearOnFirstEdit triple holes).nextId =
      sheet.nextId + holes.length := by
    rw [clearOnFirstEdit_eq]
  have recorded (other : TripleRef) :
      (sheet.clearOnFirstEdit triple holes).recorded other =
        if other = triple then List.range' sheet.nextId holes.length
        else sheet.recorded other := by
    rw [clearOnFirstEdit_eq]
  have inside {i : Nat} {hole : NodeId} (found : holes[i]? = some hole) :
      i < holes.length := (List.getElem?_eq_some_iff.mp found).1
  have oldGroup {id : Nat} {clearing : Clearing}
      (old : sheet.Listens id clearing) :
      clearing.group ≠ sheet.groups.length :=
    Nat.ne_of_lt (lt_of_hasFired_eq_false (h.waiting old))
  constructor
  case onlyClearing =>
    intro sub mem
    rw [clearOnFirstEdit_eq] at mem
    rcases List.mem_append.mp mem with old | new
    · exact h.onlyClearing sub old
    · obtain ⟨i, _, rfl⟩ := List.mem_mapIdx.mp new
      rfl
  case distinct =>
    rw [clearOnFirstEdit_eq, List.map_append, map_id_mapIdx,
      List.nodup_append]
    refine ⟨h.distinct, List.nodup_range' 1, ?_⟩
    intro old mem new range
    obtain ⟨sub, there, rfl⟩ := List.mem_map.mp mem
    obtain ⟨clearing, -, listens⟩ := h.onlyClearing.exists_listens there
    have before := h.issued listens
    rw [List.mem_range'_1] at range
    omega
  case issued =>
    intro id clearing listens
    rw [nextId]
    rcases listens_clearOnFirstEdit.mp listens with old | new
    · have before := h.issued old
      omega
    · obtain ⟨i, hole, found, rfl, -⟩ := new
      have := inside found
      omega
  case issuedMembers =>
    intro group id mem
    rw [nextId]
    rw [members_clearOnFirstEdit] at mem
    split at mem
    · rw [List.mem_range'_1] at mem
      omega
    · have before := h.issuedMembers mem
      omega
  case issuedRecords =>
    intro other id mem
    rw [nextId]
    rw [recorded] at mem
    split at mem
    · rw [List.mem_range'_1] at mem
      omega
    · have before := h.issuedRecords mem
      omega
  case waiting =>
    intro id clearing listens
    rw [hasFired_clearOnFirstEdit]
    rcases listens_clearOnFirstEdit.mp listens with old | new
    · simp [h.waiting old]
    · obtain ⟨i, hole, -, -, rfl⟩ := new
      simp
  case grouped =>
    intro id other clearing sibling first second
    rw [members_clearOnFirstEdit]
    rcases listens_clearOnFirstEdit.mp first with old | new
    · rw [if_neg (oldGroup old)]
      rcases listens_clearOnFirstEdit.mp second with old' | new'
      · exact h.grouped old old'
      · obtain ⟨i, hole, -, rfl, rfl⟩ := new'
        refine iff_of_false (fun mem => ?_) (Ne.symm (absent old))
        have before := h.issuedMembers mem
        omega
    · obtain ⟨i, hole, -, -, rfl⟩ := new
      rw [if_pos rfl, List.mem_range'_1]
      rcases listens_clearOnFirstEdit.mp second with old' | new'
      · have before := h.issued old'
        exact iff_of_false (by omega) (absent old')
      · obtain ⟨j, hole', found, rfl, rfl⟩ := new'
        have := inside found
        exact iff_of_true (by omega) rfl
  case recorded =>
    intro id clearing other listens
    rw [recorded]
    rcases listens_clearOnFirstEdit.mp listens with old | new
    · split
      case isTrue same =>
        have before := h.issued old
        rw [List.mem_range'_1]
        exact iff_of_false (by omega) (same ▸ absent old)
      case isFalse => exact h.recorded old
    · obtain ⟨i, hole, found, rfl, rfl⟩ := new
      split
      case isTrue same =>
        have := inside found
        rw [List.mem_range'_1]
        exact iff_of_true (by omega) same.symm
      case isFalse different =>
        refine iff_of_false (fun mem => ?_) (Ne.symm different)
        have before := h.issuedRecords mem
        omega
  case inTriple =>
    intro id clearing listens
    rcases listens_clearOnFirstEdit.mp listens with old | new
    · exact h.inTriple old
    · obtain ⟨i, hole, found, -, rfl⟩ := new
      exact ((covers hole).mp (List.mem_of_getElem? found)).1
  case everyHole =>
    intro id clearing hole listens mem isHole
    rw [attempts] at isHole
    rcases listens_clearOnFirstEdit.mp listens with old | new
    · obtain ⟨other, sibling, there, same, here⟩ :=
        h.everyHole old mem isHole
      exact ⟨other, sibling, listens_clearOnFirstEdit.mpr (.inl there), same,
        here⟩
    · obtain ⟨i, first, _, _, rfl⟩ := new
      obtain ⟨j, found⟩ :=
        List.mem_iff_getElem?.mp ((covers hole).mpr ⟨mem, isHole⟩)
      exact ⟨_, _, listens_clearOnFirstEdit.mpr
        (.inr ⟨j, hole, found, rfl, rfl⟩), rfl, rfl⟩

theorem Settled.clearOnFirstEdit {sheet : Worksheet} (h : sheet.Settled)
    {triple : TripleRef} {holes : List NodeId}
    (absent : ∀ {id : Nat} {clearing : Clearing},
      sheet.Listens id clearing → clearing.triple ≠ triple)
    (covers : ∀ hole, hole ∈ holes ↔
      hole ∈ triple.nodes ∧ (sheet.attempt? hole).isSome) :
    (sheet.clearOnFirstEdit triple holes).Settled := by
  refine ⟨h.orderly.clearOnFirstEdit absent covers, ?_⟩
  intro id clearing listens
  have attempts : (sheet.clearOnFirstEdit triple holes).attempt? =
      sheet.attempt? := by
    rw [clearOnFirstEdit_eq]
    rfl
  rw [attempts]
  rcases listens_clearOnFirstEdit.mp listens with old | new
  · exact h.recalls old
  · obtain ⟨i, hole, found, -, rfl⟩ := new
    have isHole := ((covers hole).mp (List.mem_of_getElem? found)).2
    obtain ⟨attempt, there⟩ := Option.isSome_iff_exists.mp isHole
    simp [there]

end ProofOutline.Worksheet
