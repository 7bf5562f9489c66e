import Mathlib.Data.List.Nodup
import ProofOutline.Proofs.Listeners

/-!
# What an edit clears

After an edit the listeners on the edited hole remember another text, and all
others the text that is there.  Working off the notification then clears each
triple that listens on the hole, and no other, and none of them twice, although
clearing one triple starts the clearing of its neighbour before it is done.
-/

namespace ProofOutline

def Duty.wipes : Duty → List NodeId
  | tell _ _ => []
  | wipe ids => ids

def Listener.clearsAny (triples : List TripleRef) : Listener → Bool
  | clearing listener => decide (listener.triple ∈ triples)
  | observer _ => false

@[simp] theorem Listener.clearsAny_nil (listener : Listener) :
    listener.clearsAny [] = false := by
  cases listener <;> simp [clearsAny]

private theorem Listener.clearsAny_cons (triple : TripleRef)
    (triples : List TripleRef) (listener : Listener) :
    listener.clearsAny (triple :: triples) =
      (listener.clearsAny [triple] || listener.clearsAny triples) := by
  cases listener <;> simp [clearsAny]

namespace Worksheet

/-! ## Subscribers that were told to be live -/

/-- A subscriber still to be told is cancelled or as it was. -/
def Aligned (sheet : Worksheet) (duties : List Duty) : Prop :=
  ∀ changed subs, Duty.tell changed subs ∈ duties → ∀ sub ∈ subs,
    sheet.isLive sub.id = true → sub ∈ sheet.subscriptions

theorem Aligned.tail {sheet : Worksheet} {duty : Duty} {duties : List Duty}
    (h : sheet.Aligned (duty :: duties)) : sheet.Aligned duties :=
  fun changed subs mem => h changed subs (List.mem_cons_of_mem _ mem)

theorem Aligned.tell {sheet : Worksheet} {changed : NodeId}
    {subs : List Subscription} {duties : List Duty}
    (h : sheet.Aligned duties)
    (told : ∀ sub ∈ subs, sheet.isLive sub.id = true →
      sub ∈ sheet.subscriptions) :
    sheet.Aligned (.tell changed subs :: duties) := by
  intro other more mem
  rcases List.mem_cons.mp mem with head | tail
  · cases head
    exact told
  · exact h other more tail

theorem Aligned.others {sheet : Worksheet} {changed : NodeId}
    {sub : Subscription} {subs : List Subscription} {duties : List Duty}
    (h : sheet.Aligned (.tell changed (sub :: subs) :: duties)) :
    sheet.Aligned (.tell changed subs :: duties) :=
  h.tail.tell fun other mem =>
    h changed _ List.mem_cons_self other (List.mem_cons_of_mem _ mem)

theorem Aligned.wipe {sheet : Worksheet} {ids : List NodeId}
    {duties : List Duty} (h : sheet.Aligned duties) :
    sheet.Aligned (.wipe ids :: duties) := by
  intro changed subs mem
  rcases List.mem_cons.mp mem with head | tail
  · cases head
  · exact h changed subs tail

private theorem Orderly.aligned_fire {sheet : Worksheet} (h : sheet.Orderly)
    {duties : List Duty} (aligned : sheet.Aligned duties) (group : Nat) :
    (sheet.fire group).Aligned duties := by
  intro changed subs mem sub told live
  obtain ⟨other, there, same⟩ := List.any_eq_true.mp live
  rw [fire_eq] at there ⊢
  have before := (List.mem_filter.mp there).1
  -- Numbers are distinct, so what is live under this number is `sub`.
  have stillLive : sheet.isLive sub.id = true :=
    List.any_eq_true.mpr ⟨other, before, same⟩
  have equal : other = sub :=
    List.inj_on_of_nodup_map h.distinct before
      (aligned changed subs mem sub told stillLive) (beq_iff_eq.mp same)
  exact equal ▸ there

private theorem Orderly.subscriptions_fire {sheet : Worksheet}
    (h : sheet.Orderly)
    {id : Nat} {clearing : Clearing} (here : sheet.Listens id clearing) :
    (sheet.fire clearing.group).subscriptions =
      sheet.subscriptions.filter
        fun sub => !sub.listener.clearsAny [clearing.triple] := by
  rw [fire_eq]
  apply List.filter_congr
  intro sub mem
  obtain ⟨sibling, same, listens⟩ := h.onlyClearing.exists_listens mem
  have grouped := h.grouped here listens
  rw [same]
  simp [Listener.clearsAny, grouped]

/-! ## The effect of the duties -/

/--
What has become of a worksheet on which the duties were worked off after an
edit, if these triples were cleared.
-/
structure Cleared (edited : Option NodeId) (duties : List Duty)
    (sheet : Worksheet) (cleared : List TripleRef) (after : Worksheet) :
    Prop where
  orderly : after.Orderly
  recalls : after.Recalls edited
  nodes : ∀ id, after.get? id = (sheet.get? id).map fun node =>
    if id ∈ duties.flatMap Duty.wipes ++ cleared.flatMap TripleRef.nodes then
      node.mark .empty
    else node
  subscriptions : after.subscriptions = sheet.subscriptions.filter
    fun sub => !sub.listener.clearsAny cleared
  once : cleared.Nodup
  /-- Only triples that listen on the edited hole are cleared. -/
  sound : ∀ triple ∈ cleared, ∃ id clearing,
    sheet.Listens id clearing ∧ clearing.triple = triple ∧
      edited = some clearing.hole
  /-- A listener on the edited hole that is told of it clears its triple. -/
  complete : ∀ changed subs, Duty.tell changed subs ∈ duties →
    edited = some changed → ∀ id clearing,
      ⟨id, .clearing clearing⟩ ∈ subs → sheet.Listens id clearing →
        clearing.hole = changed → clearing.triple ∈ cleared

section

variable {edited : Option NodeId} {sheet after : Worksheet}
  {duties : List Duty} {cleared : List TripleRef}

private theorem cleared_done (orderly : sheet.Orderly)
    (recalls : sheet.Recalls edited) : Cleared edited [] sheet [] sheet where
  orderly := orderly
  recalls := recalls
  nodes id := by simp
  subscriptions := by simp
  once := List.nodup_nil
  sound triple mem := absurd mem List.not_mem_nil
  complete changed subs mem := absurd mem List.not_mem_nil

private theorem Cleared.tell_cons {changed : NodeId} {sub : Subscription}
    {subs : List Subscription}
    (h : Cleared edited (.tell changed subs :: duties) sheet cleared after)
    (unmoved : ∀ id clearing, sub = ⟨id, .clearing clearing⟩ →
      sheet.Listens id clearing → edited = some changed →
      clearing.hole ≠ changed) :
    Cleared edited (.tell changed (sub :: subs) :: duties) sheet cleared
      after where
  orderly := h.orderly
  recalls := h.recalls
  nodes := h.nodes
  subscriptions := h.subscriptions
  once := h.once
  sound := h.sound
  complete := by
    intro other told mem same id clearing there listens onHole
    rcases List.mem_cons.mp mem with head | tail
    · cases head
      rcases List.mem_cons.mp there with first | rest
      · exact absurd onHole (unmoved id clearing first.symm listens same)
      · exact h.complete changed subs List.mem_cons_self same id clearing
          rest listens onHole
    · exact h.complete other told (List.mem_cons_of_mem _ tail) same id
        clearing there listens onHole

theorem Cleared.cons {duty : Duty}
    (h : Cleared edited duties sheet cleared after)
    (nothing : duty.wipes = [])
    (nobody : ∀ changed subs, duty = .tell changed subs → subs = []) :
    Cleared edited (duty :: duties) sheet cleared after where
  orderly := h.orderly
  recalls := h.recalls
  nodes := by simpa [nothing] using h.nodes
  subscriptions := h.subscriptions
  once := h.once
  sound := h.sound
  complete := by
    intro changed subs mem same id clearing there listens onHole
    rcases List.mem_cons.mp mem with head | tail
    · cases nobody changed subs head.symm
      exact absurd there List.not_mem_nil
    · exact h.complete changed subs tail same id clearing there listens onHole

theorem Cleared.fired {changed : NodeId} {id : Nat} {clearing : Clearing}
    {subs : List Subscription} (orderly : sheet.Orderly)
    (here : sheet.Listens id clearing) (onEdited : edited = some clearing.hole)
    (h : Cleared edited
      (.wipe clearing.triple.nodes :: .tell changed subs :: duties)
      (sheet.fire clearing.group) cleared after) :
    Cleared edited (.tell changed (⟨id, .clearing clearing⟩ :: subs) :: duties)
      sheet (clearing.triple :: cleared) after where
  orderly := h.orderly
  recalls := h.recalls
  nodes other := by
    have nodes := h.nodes other
    rw [fire_eq] at nodes
    refine nodes.trans (congrArg (Option.map · (sheet.get? other)) ?_)
    funext node
    refine if_congr ?_ rfl rfl
    simp [Duty.wipes, or_left_comm]
  subscriptions := by
    rw [h.subscriptions, orderly.subscriptions_fire here, List.filter_filter]
    apply List.filter_congr
    intro sub _
    rw [Listener.clearsAny_cons clearing.triple cleared, Bool.not_or,
      Bool.and_comm]
  once := by
    refine List.nodup_cons.mpr ⟨fun again => ?_, h.once⟩
    obtain ⟨other, sibling, listens, same, -⟩ := h.sound _ again
    exact ((orderly.listens_fire here).mp listens).2 same
  sound triple mem := by
    rcases List.mem_cons.mp mem with rfl | later
    · exact ⟨id, clearing, here, rfl, onEdited⟩
    · obtain ⟨other, sibling, listens, same, onHole⟩ := h.sound triple later
      exact ⟨other, sibling, ((orderly.listens_fire here).mp listens).1, same,
        onHole⟩
  complete := by
    intro other told mem same number sibling there listens onHole
    by_cases own : sibling.triple = clearing.triple
    · exact own ▸ List.mem_cons_self
    · have left := (orderly.listens_fire here).mpr ⟨listens, own⟩
      refine List.mem_cons_of_mem _ ?_
      rcases List.mem_cons.mp mem with head | tail
      · cases head
        rcases List.mem_cons.mp there with first | rest
        · cases first
          exact absurd rfl own
        · exact h.complete changed subs
            (List.mem_cons_of_mem _ List.mem_cons_self) same number sibling
            rest left onHole
      · exact h.complete other told
          (List.mem_cons_of_mem _ (List.mem_cons_of_mem _ tail)) same number
          sibling there left onHole

private theorem Cleared.wipe_cons {id : NodeId} {ids : List NodeId}
    {subs : List Subscription}
    (h : Cleared edited (.tell id subs :: .wipe ids :: duties)
      (sheet.alter id (Node.mark .empty)) cleared after) :
    Cleared edited (.wipe (id :: ids) :: duties) sheet cleared after where
  orderly := h.orderly
  recalls := h.recalls
  nodes other := by
    rw [h.nodes other, get?_alter, Option.map_map]
    congr 1
    funext node
    by_cases same : id = other
    · simp [Duty.wipes, same]
    · simp [Duty.wipes, same, Ne.symm same]
  subscriptions := h.subscriptions
  once := h.once
  sound := h.sound
  complete := by
    intro changed told mem
    rcases List.mem_cons.mp mem with head | tail
    · cases head
    · exact h.complete changed told
        (List.mem_cons_of_mem _ (List.mem_cons_of_mem _ tail))

end

/-- Along the run, which each sort of step extends in front. -/
theorem Settles.cleared {edited : Option NodeId} {duties : List Duty}
    {sheet after : Worksheet} {cleared : List TripleRef}
    (h : Settles duties sheet cleared after) (orderly : sheet.Orderly)
    (recalls : sheet.Recalls edited) (aligned : sheet.Aligned duties) :
    Cleared edited duties sheet cleared after := by
  induction h with
  | done => exact cleared_done orderly recalls
  | told _ ih =>
      refine (ih orderly recalls aligned.tail).cons rfl ?_
      intro changed subs same
      cases same
      rfl
  | cancelled dead _ ih =>
      refine (ih orderly recalls aligned.others).tell_cons ?_
      rintro id clearing rfl listens
      rw [listens.isLive] at dead
      cases dead
  | unmoved idle _ ih =>
      refine (ih orderly recalls aligned.others).tell_cons ?_
      intro id clearing same listens wasEdited onHole
      cases same
      have trigger := (triggers_eq orderly recalls listens _).mpr
        ⟨onHole.symm, onHole ▸ wasEdited⟩
      rw [idle] at trigger
      cases trigger
  | fired live edit _ ih =>
      have here := aligned _ _ List.mem_cons_self _ List.mem_cons_self live
      have trigger := (triggers_eq orderly recalls here _).mp edit
      exact .fired orderly here trigger.2 (ih (orderly.fire here)
        (recalls.fire _) (orderly.aligned_fire aligned.others.wipe _))
  | wiped _ ih =>
      refine (ih orderly recalls aligned.tail).cons rfl ?_
      intro changed subs same
      cases same
  | @skipped id ids duties sheet after cleared none _ ih =>
      have rest := ih orderly recalls aligned.tail.wipe
      have told : Cleared edited (.tell id [] :: .wipe ids :: duties) sheet
          cleared after := by
        refine rest.cons rfl ?_
        intro changed subs same
        cases same
        rfl
      rw [← alter_mark_eq_self none] at told
      exact told.wipe_cons
  | @written id ids duties node sheet after cleared found _ ih =>
      have attempts := attempt?_alter sheet id (Node.attempt?_mark .empty)
      rw [setNode_eq_alter found] at ih
      refine (ih (orderly.withNodes fun other => ?_) ?_
        (aligned.tail.wipe.tell fun sub mem _ => mem)).wipe_cons
      · exact congrArg Option.isSome (congrFun attempts other)
      · intro number clearing listens
        rw [attempts]
        exact recalls listens

theorem Cleared.settled {hole : NodeId} {subs : List Subscription}
    {sheet after : Worksheet} {cleared : List TripleRef}
    (h : Cleared (some hole) [.tell hole subs] sheet cleared after)
    (everyone : ∀ sub ∈ sheet.subscriptions, sub ∈ subs) :
    after.Settled := by
  refine ⟨h.orderly, fun {id clearing} listens => ?_⟩
  have there : (⟨id, .clearing clearing⟩ : Subscription) ∈
      sheet.subscriptions.filter
        fun sub => !sub.listener.clearsAny cleared :=
    h.subscriptions ▸ listens
  obtain ⟨before, spared⟩ := List.mem_filter.mp there
  have elsewhere : clearing.hole ≠ hole := by
    intro same
    have gone := h.complete hole _ List.mem_cons_self rfl id clearing
      (everyone _ before) before same
    simp [Listener.clearsAny, gone] at spared
  have recalled := h.recalls listens
  simpa [Ne.symm elsewhere] using recalled

/-! ## Typing a new attempt -/

/-- The worksheet with a new text in a hole, of which nobody is told yet. -/
def edit (sheet : Worksheet) (id : NodeId) (attempt : String) : Worksheet :=
  sheet.alter id (Node.mapHole
    fun hole => { hole with attempt, state := .unvalidated })

def Awaits (sheet : Worksheet) (triple : TripleRef) : Prop :=
  ∃ id clearing, sheet.Listens id clearing ∧ clearing.triple = triple

@[simp] theorem attempt?_edit (sheet : Worksheet) (id other : NodeId)
    (attempt : String) :
    (sheet.edit id attempt).attempt? other =
      (sheet.attempt? other).map fun old =>
        if id = other then attempt else old := by
  rw [attempt?_eq, attempt?_eq, edit, get?_alter]
  cases sheet.get? other with
  | none => rfl
  | some node =>
      by_cases same : id = other
      · cases node <;> simp [same, Node.attempt?, Node.mapHole, Node.hole?]
      · simp [same]

theorem setAttempt_eq {sheet : Worksheet} {id : NodeId} {old : String}
    (found : sheet.attempt? id = some old) (attempt : String) :
    sheet.setAttempt id attempt =
      publish id (sheet.edit id attempt) := by
  obtain ⟨content, hole, -⟩ := Option.map_eq_some_iff.mp found
  unfold setAttempt setAttemptVia changeHoleVia
  rw [hole, edit, alter_eq_setNode (hole?_eq_some_iff.mp hole)]
  rfl

theorem setAttempt_of_not_hole {sheet : Worksheet} {id : NodeId}
    (none : sheet.attempt? id = none) (attempt : String) :
    sheet.setAttempt id attempt = sheet := by
  have noHole : sheet.hole? id = Option.none := Option.map_eq_none_iff.mp none
  simp [setAttempt, setAttemptVia, changeHoleVia, noHole]

theorem Settled.edit_same {sheet : Worksheet} (h : sheet.Settled)
    {hole : NodeId} {text : String}
    (found : sheet.attempt? hole = some text) :
    (sheet.edit hole text).Settled := by
  refine h.withNodes (funext fun other => ?_)
  refine (attempt?_edit sheet hole other text).trans ?_
  by_cases same : hole = other
  · subst same
    simp [found]
  · simp [same]

theorem Settled.setAttempt_same {sheet : Worksheet} (h : sheet.Settled)
    {hole : NodeId} {text : String}
    (found : sheet.attempt? hole = some text) :
    sheet.setAttempt hole text = sheet.edit hole text := by
  rw [setAttempt_eq found]
  exact (h.edit_same found).publish hole

theorem Settled.edit {sheet : Worksheet} (h : sheet.Settled) {hole : NodeId}
    {text old : String} (found : sheet.attempt? hole = some old)
    (different : text ≠ old) :
    (sheet.edit hole text).Orderly ∧
      (sheet.edit hole text).Recalls (some hole) := by
  constructor
  · refine h.orderly.withNodes fun other => ?_
    have attempts := attempt?_edit sheet hole other text
    exact (congrArg Option.isSome attempts).trans (by simp)
  · intro id clearing listens
    have recalled := (h.recalls listens).mpr (by simp)
    rw [attempt?_edit, recalled]
    by_cases same : hole = clearing.hole
    · have before : old = clearing.before := by
        rw [same, recalled] at found
        exact (Option.some.inj found).symm
      simp [same, before ▸ different]
    · simp [same]

theorem Settled.setAttempt_cleared {sheet : Worksheet} (h : sheet.Settled)
    {hole : NodeId} {text old : String}
    (found : sheet.attempt? hole = some old) (different : text ≠ old) :
    ∃ cleared,
      Settles [.tell hole sheet.subscriptions] (sheet.edit hole text) cleared
        (sheet.setAttempt hole text) ∧
      Cleared (some hole) [.tell hole sheet.subscriptions]
        (sheet.edit hole text) cleared (sheet.setAttempt hole text) ∧
      ∀ triple, triple ∈ cleared ↔
        hole ∈ triple.nodes ∧ sheet.Awaits triple := by
  obtain ⟨orderly, recalls⟩ := h.edit found different
  obtain ⟨cleared, run⟩ := settles_publish hole orderly.grouped_self
  rw [← setAttempt_eq found] at run
  have effect := run.cleared orderly recalls fun changed subs mem => by
    cases List.mem_singleton.mp mem
    exact fun sub there _ => there
  refine ⟨cleared, run, effect, fun triple => ?_⟩
  constructor
  · intro mem
    obtain ⟨id, clearing, listens, rfl, onHole⟩ := effect.sound triple mem
    cases onHole
    exact ⟨orderly.inTriple listens, id, clearing, listens, rfl⟩
  · rintro ⟨inTriple, id, clearing, listens, rfl⟩
    obtain ⟨other, sibling, there, same, onHole⟩ :=
      h.orderly.everyHole listens inTriple (by simp [found])
    rw [← same]
    exact effect.complete hole _ List.mem_cons_self rfl other sibling there
      there onHole

theorem Settled.setAttempt {sheet : Worksheet} (h : sheet.Settled)
    (hole : NodeId) (text : String) : (sheet.setAttempt hole text).Settled := by
  cases found : sheet.attempt? hole with
  | none =>
      rw [setAttempt_of_not_hole found]
      exact h
  | some old =>
      by_cases same : text = old
      · subst same
        rw [h.setAttempt_same found]
        exact h.edit_same found
      · obtain ⟨cleared, -, effect, -⟩ := h.setAttempt_cleared found same
        exact effect.settled fun _ mem => mem

end Worksheet

end ProofOutline
