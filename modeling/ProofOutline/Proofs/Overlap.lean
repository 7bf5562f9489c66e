import ProofOutline.Proofs.Receipts

/-!
# Complaints on a node that two triples share

Neighbouring triples meet in one assertion: the postcondition of the first is
the precondition of the second.  A complaint about the second is wiped by an
edit outside of it in one case only.  Its message has to stand on the shared
assertion, and an older complaint about the first triple has to be waiting for
an edit still.  Then an edit at the far end of the first triple wipes both.
-/

namespace ProofOutline

/-! ## The triples of a session stay the same -/

private theorem Node.roles_of_kindName {node other : Node}
    (same : node.kindName = other.kindName) :
    node.isCore = other.isCore ∧ node.isCommand = other.isCommand ∧
      node.bearsAssertion = other.bearsAssertion := by
  cases node <;> cases other <;>
    simp_all [kindName, isCore, isCommand, bearsAssertion]

namespace Worksheet

def kind? (sheet : Worksheet) (id : NodeId) : Option String :=
  (sheet.get? id).map Node.kindName

theorem segment_of_kinds {sheet after : Worksheet}
    (same : after.kind? = sheet.kind?) : after.segment = sheet.segment := by
  have read (id : NodeId) : after.isCore id = sheet.isCore id ∧
      after.isCommand id = sheet.isCommand id ∧
      after.bearsAssertion id = sheet.bearsAssertion id := by
    have kinds := congrFun same id
    unfold kind? at kinds
    unfold isCore isCommand bearsAssertion
    cases before : sheet.get? id with
    | none =>
        rw [before, Option.map_none, Option.map_eq_none_iff] at kinds
        simp [kinds]
    | some node =>
        rw [before, Option.map_some, Option.map_eq_some_iff] at kinds
        obtain ⟨other, there, kind⟩ := kinds
        simpa [there] using Node.roles_of_kindName kind
  funext order
  have core : after.isCore = sheet.isCore := funext fun id => (read id).1
  have triple : after.isTriple = sheet.isTriple := by
    funext triple
    simp only [isTriple, read]
  rw [segment, segment, core, triple]

@[simp] theorem kind?_edit (sheet : Worksheet) (target : NodeId)
    (text : String) :
    (sheet.edit target text).kind? = sheet.kind? := by
  funext id
  unfold kind?
  rw [edit, get?_alter, Option.map_map]
  congr 1
  funext node
  by_cases same : target = id
  · cases node <;> simp [same, Node.mapHole, Node.kindName]
  · simp [same]

private theorem Settled.kind?_setAttempt {sheet : Worksheet} (h : sheet.Settled)
    (target : NodeId) (text : String) :
    (sheet.setAttempt target text).kind? = sheet.kind? := by
  cases found : sheet.attempt? target with
  | none => rw [setAttempt_of_not_hole found]
  | some old =>
      by_cases same : text = old
      · subst same
        rw [h.setAttempt_same found, kind?_edit]
      · obtain ⟨cleared, -, effect, -⟩ := h.setAttempt_cleared found same
        rw [← kind?_edit sheet target text]
        funext id
        unfold kind?
        rw [effect.nodes, Option.map_map]
        congr 1
        funext node
        simp only [Function.comp_apply]
        split
        · cases node <;> rfl
        · rfl

private theorem Settled.kind?_prevalidate {sheet : Worksheet}
    (h : sheet.Settled) (target : NodeId) :
    (sheet.prevalidate target).2.kind? = sheet.kind? := by
  cases present : sheet.hole? target with
  | none => rw [prevalidate_of_not_hole present]
  | some hole =>
      have found := hole?_eq_some_iff.mp present
      rw [h.prevalidate found]
      funext id
      unfold kind?
      rw [get?_setNode found]
      by_cases same : target = id
      · subst same
        simp [found, Node.kindName]
      · simp [same]

/-! ## Where neighbouring triples meet -/

private theorem post_le_of_windows {order : List NodeId}
    (increasing : order.Pairwise (· < ·)) {first second : TripleRef}
    (mem : first ∈ windows order) (other : second ∈ windows order)
    (before : first.command < second.command) :
    first.post ≤ second.pre ∨ first.post = second.command := by
  induction order with
  | nil => exact absurd mem List.not_mem_nil
  | cons pre order ih =>
      obtain ⟨-, rest⟩ := List.pairwise_cons.mp increasing
      match order, ih, mem, other, rest with
      | command :: post :: order, ih, mem, other, rest =>
          obtain ⟨later, tail⟩ := List.pairwise_cons.mp rest
          obtain ⟨beyond, -⟩ := List.pairwise_cons.mp tail
          rcases List.mem_cons.mp other with rfl | other
          · rcases List.mem_cons.mp mem with rfl | mem
            · exact absurd before (Nat.lt_irrefl _)
            · have after := later _ (command_mem_of_windows mem)
              exact absurd before (Nat.lt_asymm after)
          · rcases List.mem_cons.mp mem with rfl | mem
            · cases order with
              | nil => exact absurd other List.not_mem_nil
              | cons next order =>
                  rcases List.mem_cons.mp other with rfl | other
                  · exact .inr rfl
                  · have among := (nodes_sublist_of_windows other).subset
                      List.mem_cons_self
                    rcases List.mem_cons.mp among with same | among
                    · exact .inl (Nat.le_of_eq same.symm)
                    · exact .inl (Nat.le_of_lt (beyond _ among))
            · exact ih rest mem other

end Worksheet

namespace Session

theorem Noting.triples_eq {session after : Session}
    {receipts later : Receipts} (step : Noting session receipts after later)
    (reachable : session.Reachable) :
    after.triples = session.triples := by
  have settled := reachable.steady.settled
  unfold triples
  cases step with
  | setAttempt id text =>
      exact congrFun
        (Worksheet.segment_of_kinds (settled.kind?_setAttempt id text)) _
  | prevalidate id =>
      exact congrFun
        (Worksheet.segment_of_kinds (settled.kind?_prevalidate id)) _
  | submit walk =>
      have kept := Worksheet.keeps_routeAll settled.orderly.onlyClearing
      exact congrFun (Worksheet.segment_of_contents (kept _).contents) _

private theorem Reachable.command_injective {session : Session}
    (h : session.Reachable) {first second : TripleRef}
    (mem : first ∈ session.triples) (other : second ∈ session.triples)
    (same : first.command = second.command) : first = second := by
  have distinct : (session.triples.map TripleRef.command).Nodup :=
    List.pairwise_map.mpr (h.triples_increasing.imp Nat.ne_of_lt)
  exact List.inj_on_of_nodup_map distinct mem other same

private theorem Reachable.shared_eq {session : Session} (h : session.Reachable)
    {first second : TripleRef} (mem : first ∈ session.triples)
    (other : second ∈ session.triples)
    (before : first.command < second.command) {id : NodeId}
    (inFirst : id ∈ first.nodes) (inSecond : id ∈ second.nodes) :
    id = first.post ∧ id = second.pre := by
  have increasing := h.order_increasing.filter session.sheet.isCore
  have firstOrder := increasing.sublist
    (Worksheet.nodes_sublist_of_windows (List.mem_filter.mp mem).1)
  have secondOrder := increasing.sublist
    (Worksheet.nodes_sublist_of_windows (List.mem_filter.mp other).1)
  have apart : first.post ≠ second.command := by
    intro same
    have bears := isTriple_of_mem_triples mem
    have isCommand := isTriple_of_mem_triples other
    simp only [Worksheet.isTriple, Bool.and_eq_true] at bears isCommand
    have bare := Worksheet.bearsAssertion_of_isCommand isCommand.1.2
    rw [← same, bears.2] at bare
    cases bare
  have meet := (Worksheet.post_le_of_windows increasing
    (List.mem_filter.mp mem).1 (List.mem_filter.mp other).1
    before).resolve_right apart
  simp only [TripleRef.nodes, List.pairwise_cons, List.mem_cons,
    List.not_mem_nil, or_false, forall_eq_or_imp, forall_eq]
    at firstOrder secondOrder inFirst inSecond
  unfold NodeId at *
  omega

end Session

/-! ## Which complaint is older -/

namespace Walks

variable {σ : Type} {checker : Checker σ}
  {value? : TripleRef → Option Triple} {triples : List TripleRef}
  {state last : σ} {calls : List Call}
  {ending : Except VerifyError StopReason}

private theorem verdicts_isPrefix
    (h : Walks checker value? triples state calls ending last) :
    (verdicts triples calls).map Prod.fst <+: triples := by
  induction h with
  | completed => simp
  | incomplete missing => simp
  | failed found answered => simp
  | incorrect found answered refused => simp
  | correct found answered praised more ih =>
      simpa [List.cons_prefix_cons] using ih

/-- A verdict that is not praise is the last of the walk. -/
theorem praised_of_more
    (h : Walks checker value? triples state calls ending last)
    {before after : List (TripleRef × Feedback)}
    {verdict : TripleRef × Feedback}
    (split : verdicts triples calls = before ++ verdict :: after)
    (more : after ≠ []) : verdict.2.isCorrect = true := by
  induction h generalizing before with
  | completed => simp at split
  | incomplete missing => simp at split
  | failed found answered => simp at split
  | incorrect found answered refused =>
      have length := congrArg List.length split
      have some := List.length_pos_iff.mpr more
      simp at length
      omega
  | correct found answered praised rest ih =>
      rw [verdicts_ok] at split
      cases before with
      | nil =>
          cases split
          exact praised
      | cons first before =>
          rw [List.cons_append, List.cons.injEq] at split
          exact ih split.2

end Walks

namespace Worksheet

private theorem Settled.awaits_of_setAttempt {sheet : Worksheet}
    (h : sheet.Settled) {target : NodeId} {text : String} {triple : TripleRef}
    (awaits : (sheet.setAttempt target text).Awaits triple) :
    sheet.Awaits triple := by
  cases found : sheet.attempt? target with
  | none => rwa [setAttempt_of_not_hole found] at awaits
  | some old =>
      by_cases same : text = old
      · subst same
        rw [h.setAttempt_same found] at awaits
        exact awaits
      · obtain ⟨cleared, -, effect, -⟩ := h.setAttempt_cleared found same
        exact (effect.awaits_iff.mp awaits).1

private theorem Settled.awaits_of_prevalidate {sheet : Worksheet}
    (h : sheet.Settled) {target : NodeId} {triple : TripleRef}
    (awaits : (sheet.prevalidate target).2.Awaits triple) :
    sheet.Awaits triple := by
  cases present : sheet.hole? target with
  | none => rwa [prevalidate_of_not_hole present] at awaits
  | some hole =>
      rw [h.prevalidate (hole?_eq_some_iff.mp present)] at awaits
      exact awaits

end Worksheet

namespace Session

theorem awaits_of_walks {σ : Type} {checker : Checker σ} {session : Session}
    {state last : σ} {calls : List Call}
    {ending : Except VerifyError StopReason} (reachable : session.Reachable)
    (walk : Walks checker session.sheet.triple? session.triples.reverse state
      calls ending last)
    {triple : TripleRef}
    (awaits : (session.sheet.routeAll
      (verdicts session.triples.reverse calls)).Awaits triple) :
    (∀ verdict ∈ verdicts session.triples.reverse calls,
        triple ≠ verdict.1) ∧ session.sheet.Awaits triple ∨
      ∃ before verdict, verdict.1 = triple ∧
        verdicts session.triples.reverse calls = before ++ [verdict] := by
  have settled := reachable.steady.settled
  by_cases judged : ∃ verdict ∈ verdicts session.triples.reverse calls,
      triple = verdict.1
  · obtain ⟨verdict, mem, rfl⟩ := judged
    obtain ⟨before, after, split⟩ := List.append_of_mem mem
    have decreasing := (List.pairwise_map.mp
      ((List.pairwise_reverse.mpr reachable.triples_increasing).sublist
        (verdicts_sublist session.triples.reverse calls)))
    rw [split] at decreasing
    have once : ∀ other ∈ after, verdict.1 ≠ other.1 := by
      intro other later same
      have less := (List.pairwise_cons.mp
        (List.pairwise_append.mp decreasing).2.1).1 other later
      rw [same] at less
      exact Nat.lt_irrefl _ less
    rw [split, settled.awaits_routeAll_last once] at awaits
    refine .inr ⟨before, verdict, rfl, ?_⟩
    cases after with
    | nil => exact split
    | cons other after =>
        have praised := walk.praised_of_more split (List.cons_ne_nil _ _)
        rw [praised] at awaits
        cases awaits.1
  · have never : ∀ verdict ∈ verdicts session.triples.reverse calls,
        triple ≠ verdict.1 :=
      fun verdict mem same => judged ⟨verdict, mem, same⟩
    exact .inl ⟨never, (settled.awaits_routeAll_iff never).mp awaits⟩

/-- Receipts and waiting triples of a session, in the order of its steps. -/
structure Chronological (session : Session) (receipts : Receipts) : Prop where
  placed : ∀ {id : NodeId} {receipt : Receipt},
    receipts id = some receipt →
      receipt.triple ∈ session.triples ∧ id ∈ receipt.triple.nodes
  waiting : ∀ {triple : TripleRef}, session.sheet.Awaits triple →
    triple ∈ session.triples
  /-- What awaits an edit does not come after what was judged last. -/
  earlier : ∀ {id : NodeId} {receipt : Receipt} {triple : TripleRef},
    receipts id = some receipt → session.sheet.Awaits triple →
      id ∈ triple.nodes → triple.command ≤ receipt.triple.command

theorem Chronological.quiet {session after : Session} {receipts : Receipts}
    (h : session.Chronological receipts)
    (triples : after.triples = session.triples)
    (fewer : ∀ {triple : TripleRef}, after.sheet.Awaits triple →
      session.sheet.Awaits triple) : after.Chronological receipts where
  placed noted := triples ▸ h.placed noted
  waiting awaits := triples ▸ h.waiting (fewer awaits)
  earlier noted awaits := h.earlier noted (fewer awaits)

theorem Chronological.submit {σ : Type} {checker : Checker σ}
    {session : Session} {receipts : Receipts} {state last : σ}
    {calls : List Call} {ending : Except VerifyError StopReason}
    (h : session.Chronological receipts) (reachable : session.Reachable)
    (walk : Walks checker session.sheet.triple? session.triples.reverse state
      calls ending last)
    (same : triples
      { session with
        sheet := session.sheet.routeAll
          (verdicts session.triples.reverse calls) } = session.triples) :
    Chronological
      { session with
        sheet := session.sheet.routeAll
          (verdicts session.triples.reverse calls) }
      (session.sheet.noteAll (verdicts session.triples.reverse calls)
        receipts) := by
  have inTriples {verdict : TripleRef × Feedback}
      (mem : verdict ∈ verdicts session.triples.reverse calls) :
      verdict.1 ∈ session.triples :=
    List.mem_reverse.mp (mem_of_mem_verdicts mem)
  constructor
  case placed =>
    intro id receipt noted
    rw [same]
    rcases session.sheet.noteAll_cases (verdicts session.triples.reverse calls)
      receipts id with
        ⟨-, old⟩ | ⟨before, verdict, after, split, inside, -, new⟩
    · exact h.placed (old ▸ noted)
    · cases new.symm.trans noted
      exact ⟨inTriples (by simp [split]), inside⟩
  case waiting =>
    intro triple awaits
    rw [same]
    rcases awaits_of_walks reachable walk awaits with
      ⟨-, old⟩ | ⟨before, verdict, rfl, split⟩
    · exact h.waiting old
    · exact inTriples (by simp [split])
  case earlier =>
    intro id receipt triple noted awaits among
    rcases session.sheet.noteAll_cases (verdicts session.triples.reverse calls)
      receipts id with
        ⟨outside, old⟩ | ⟨before, verdict, after, split, inside, outside, new⟩
    · rcases awaits_of_walks reachable walk awaits with
        ⟨-, waited⟩ | ⟨init, final, rfl, ends⟩
      · exact h.earlier (old ▸ noted) waited among
      · exact absurd among (outside final (by simp [ends]))
    · cases new.symm.trans noted
      rcases awaits_of_walks reachable walk awaits with
        ⟨never, waited⟩ | ⟨init, final, rfl, ends⟩
      · -- The walk came from the end and did not get as far as this triple.
        obtain ⟨rest, walked⟩ := walk.verdicts_isPrefix
        have decreasing :=
          List.pairwise_reverse.mpr reachable.triples_increasing
        have mem := List.mem_reverse.mpr (h.waiting waited)
        rw [← walked] at decreasing mem
        have unwalked : triple ∈ rest := by
          refine (List.mem_append.mp mem).resolve_left fun judged => ?_
          obtain ⟨other, there, rfl⟩ := List.mem_map.mp judged
          exact never other there rfl
        have judged : verdict.1 ∈
            (verdicts session.triples.reverse calls).map Prod.fst :=
          List.mem_map_of_mem (by simp [split])
        exact Nat.le_of_lt ((List.pairwise_append.mp decreasing).2.2 _ judged
          _ unwalked)
      · have final? : (verdict :: after).getLast? = some final := by
          have ends := congrArg List.getLast? (split.symm.trans ends)
          simpa [List.getLast?_append] using ends
        rcases List.mem_cons.mp (List.mem_of_getLast? final?) with rfl | later
        · exact Nat.le_refl _
        · exact absurd among (outside final later)

theorem Recorded.chronological {session : Session} {receipts : Receipts}
    (h : session.Recorded receipts) : session.Chronological receipts := by
  refine h.invariant Chronological (fun steps => ⟨?_, ?_, ?_⟩) ?_
  · intro id receipt noted
    cases noted
  · rintro triple ⟨id, clearing, listens, -⟩
    exact absurd listens List.not_mem_nil
  · intro id receipt triple noted
    cases noted
  · intro session after receipts later reachable chronological step
    have settled := reachable.steady.settled
    have same := step.triples_eq reachable
    cases step with
    | setAttempt id text =>
        exact chronological.quiet same settled.awaits_of_setAttempt
    | prevalidate id =>
        exact chronological.quiet same settled.awaits_of_prevalidate
    | submit walk => exact chronological.submit reachable walk same

end Session

/-! ## Complaints and edits elsewhere -/

namespace Worksheet

private theorem Steady.mustAddress_eq {sheet : Worksheet} (h : sheet.Steady)
    {id : NodeId} (isHole : sheet.isHole id = true) {feedback : Feedback}
    (told : sheet.feedback? id = some feedback) :
    sheet.mustAddress id = feedback.shouldBeAddressed := by
  obtain ⟨hole, found⟩ := Option.isSome_iff_exists.mp isHole
  have there := hole?_eq_some_iff.mp found
  rw [feedback?, there] at told
  rw [mustAddress, found, Option.map_some, Option.getD_some,
    (h.truthful there).flag, Option.some.inj told]

end Worksheet

namespace Session

/-- The message of a complaint came to the hole last and is still shown. -/
structure Complains (session : Session) (receipts : Receipts) (hole : NodeId)
    (triple : TripleRef) (verdict : Feedback) : Prop where
  isHole : session.sheet.isHole hole = true
  noted : ∃ attempt,
    receipts hole = some ⟨triple, verdict, verdict, attempt⟩
  refused : verdict.isCorrect = false
  shows : session.sheet.feedback? hole = some verdict

/--
The hole starts the triple and also ends one that starts with the edited hole
and awaits an edit.
-/
def Exposed (session : Session) (hole : NodeId) (triple : TripleRef)
    (edited : NodeId) : Prop :=
  hole = triple.pre ∧ ∃ earlier, session.sheet.Awaits earlier ∧
    earlier.pre = edited ∧ earlier.post = hole

private theorem Recorded.exposed_of_awaits {session : Session}
    {receipts : Receipts}
    (recorded : session.Recorded receipts) {hole edited : NodeId}
    {receipt : Receipt} (noted : receipts hole = some receipt)
    (isHole : session.sheet.isHole edited = true)
    (apart : edited ∉ receipt.triple.nodes) {other : TripleRef}
    (awaits : session.sheet.Awaits other) (inside : hole ∈ other.nodes)
    (edits : edited ∈ other.nodes) :
    session.Exposed hole receipt.triple edited := by
  have reachable := recorded.reachable
  have chronological := recorded.chronological
  obtain ⟨mem, among⟩ := chronological.placed noted
  have waiting := chronological.waiting awaits
  have before : other.command < receipt.triple.command := by
    refine Nat.lt_of_le_of_ne (chronological.earlier noted awaits inside) ?_
    intro same
    exact apart (reachable.command_injective waiting mem same ▸ edits)
  obtain ⟨post, pre⟩ := reachable.shared_eq waiting mem before inside among
  refine ⟨pre, other, awaits, ?_, post.symm⟩
  simp only [TripleRef.nodes, List.mem_cons, List.not_mem_nil, or_false]
    at edits
  rcases edits with rfl | rfl | rfl
  · rfl
  · have isTriple := isTriple_of_mem_triples waiting
    simp only [Worksheet.isTriple, Bool.and_eq_true] at isTriple
    have bare := Worksheet.bearsAssertion_of_isCommand isTriple.1.2
    obtain ⟨content, found⟩ := Option.isSome_iff_exists.mp isHole
    rw [Worksheet.bearsAssertion, Worksheet.hole?_eq_some_iff.mp found] at bare
    cases bare
  · exact absurd (post ▸ among) apart

/--
The message of a complaint outlasts an edit outside of its triple, unless the
hole is exposed to that edit.
-/
theorem complaint_survives {session : Session} {receipts : Receipts}
    (recorded : session.Recorded receipts) {hole : NodeId}
    {triple : TripleRef} {verdict : Feedback}
    (complains : session.Complains receipts hole triple verdict)
    {edited : NodeId} {content : Hole}
    (found : session.sheet.hole? edited = some content)
    (apart : edited ∉ triple.nodes) (text : String) :
    let after := (session.setAttempt edited text).sheet
    (¬ (session.Exposed hole triple edited ∧ text ≠ content.attempt) →
      after.feedback? hole = some verdict ∧
        after.mustAddress hole = session.sheet.mustAddress hole) ∧
    (session.Exposed hole triple edited → text ≠ content.attempt →
      after.feedback? hole = some .empty ∧
        after.mustAddress hole = false) := by
  have steady := recorded.reachable.steady
  have there := Worksheet.hole?_eq_some_iff.mp found
  obtain ⟨attempt, noted⟩ := complains.noted
  have among := (recorded.chronological.placed noted).2
  have isHole : session.sheet.isHole edited = true :=
    Option.isSome_iff_exists.mpr ⟨content, found⟩
  intro after
  by_cases same : text = content.attempt
  · subst same
    have unchanged : after = session.sheet.edit edited content.attempt :=
      steady.settled.setAttempt_same (Worksheet.attempt?_of_hole there)
    obtain ⟨told, flag⟩ := Worksheet.edit_told session.sheet edited
      content.attempt hole
    rw [unchanged]
    exact ⟨fun _ => ⟨told.trans complains.shows, flag⟩,
      fun _ different => absurd rfl different⟩
  · obtain ⟨cleared, effect⟩ := steady.edited there same
    constructor
    · intro spared
      have outside : ∀ other ∈ cleared, hole ∉ other.nodes := by
        intro other mem inside
        obtain ⟨edits, awaits⟩ := (effect.which other).mp mem
        exact spared ⟨recorded.exposed_of_awaits noted isHole apart awaits
          inside edits, same⟩
      obtain ⟨told, flag⟩ := effect.kept hole outside
      exact ⟨told.trans complains.shows, flag⟩
    · rintro ⟨-, earlier, awaits, rfl, rfl⟩ -
      have wiped : after.feedback? earlier.post = some .empty := by
        have mem : earlier ∈ cleared :=
          (effect.which earlier).mpr ⟨by simp [TripleRef.nodes], awaits⟩
        exact effect.wiped earlier mem _ (by simp [TripleRef.nodes])
      have distinct : earlier.post ≠ earlier.pre :=
        fun same => apart (same ▸ among)
      have stillHole : after.isHole earlier.post = true := by
        have isHole := complains.isHole
        rw [Worksheet.isHole_eq] at isHole ⊢
        rwa [show after.attempt? earlier.post = _ from
          (effect.typed _ distinct).1]
      exact ⟨wiped,
        (steady.setAttempt _ text).mustAddress_eq stillHole wiped⟩

/-! ## Two complaints that meet -/

namespace Meeting

def steps : List Step :=
  [.hole Step.defaultPrompt, .command ⟨"skip;", .skip⟩,
    .hole Step.defaultPrompt, .command ⟨"skip;", .skip⟩,
    .hole Step.defaultPrompt]

def actions : List Action :=
  [.setAttempt 0 "\x7b true \x7d", .prevalidate 0,
    .setAttempt 2 "\x7b true \x7d", .prevalidate 2,
    .setAttempt 4 "\x7b true \x7d", .prevalidate 4, .submit,
    .setAttempt 4 "\x7b false \x7d", .prevalidate 4, .submit]

def run : (Session × Prepared Feedback Triple) × Receipts :=
  runNoting .scripted steps
    ⟨[.correct "fine", .incorrect "first", .incorrect "second"], []⟩ actions

theorem recorded : run.1.1.Recorded run.2 :=
  ⟨_, _, _, _, _, rfl, rfl⟩

theorem complains :
    run.1.1.Complains run.2 0 ⟨0, 1, 2⟩ (.incorrect "first") ∧
      run.1.1.Complains run.2 2 ⟨2, 3, 4⟩ (.incorrect "second") := by
  have shown : (run.1.1.sheet.isHole 0 = true ∧
        run.1.1.sheet.feedback? 0 = some (.incorrect "first")) ∧
      run.1.1.sheet.isHole 2 = true ∧
        run.1.1.sheet.feedback? 2 = some (.incorrect "second") := by
    decide +kernel
  have noted : run.2 0 = some ⟨⟨0, 1, 2⟩, .incorrect "first",
        .incorrect "first", some "\x7b true \x7d"⟩ ∧
      run.2 2 = some ⟨⟨2, 3, 4⟩, .incorrect "second",
        .incorrect "second", some "\x7b true \x7d"⟩ := by
    decide +kernel
  exact ⟨⟨shown.1.1, ⟨_, noted.1⟩, rfl, shown.1.2⟩,
    ⟨shown.2.1, ⟨_, noted.2⟩, rfl, shown.2.2⟩⟩

private theorem eq_of_awaits {triple : TripleRef}
    (awaits : run.1.1.sheet.Awaits triple) :
    triple = ⟨0, 1, 2⟩ ∨ triple = ⟨2, 3, 4⟩ := by
  obtain ⟨id, clearing, listens, rfl⟩ := awaits
  have known : ∀ sub ∈ run.1.1.sheet.subscriptions,
      sub.listener.clearsAny [⟨0, 1, 2⟩, ⟨2, 3, 4⟩] = true := by
    decide +kernel
  simpa [Listener.clearsAny] using known _ listens

/-- An edit that clears the second triple spares the message on the first. -/
theorem complaint_survives_meeting :
    run.1.1.Complains run.2 0 ⟨0, 1, 2⟩ (.incorrect "first") ∧
      ¬ run.1.1.Exposed 0 ⟨0, 1, 2⟩ 4 ∧
      (run.1.1.setAttempt 4 "\x7b true \x7d").sheet.feedback? 0 =
        some (.incorrect "first") ∧
      (run.1.1.setAttempt 4 "\x7b true \x7d").sheet.mustAddress 0 =
        run.1.1.sheet.mustAddress 0 := by
  have isHole : run.1.1.sheet.isHole 4 = true := by decide +kernel
  obtain ⟨content, found⟩ := Option.isSome_iff_exists.mp isHole
  have safe : ¬ run.1.1.Exposed 0 ⟨0, 1, 2⟩ 4 := by
    rintro ⟨-, earlier, awaits, starts, -⟩
    rcases eq_of_awaits awaits with rfl | rfl <;> simp at starts
  refine ⟨complains.1, safe, ?_⟩
  exact (complaint_survives recorded complains.1 found (by decide) _).1
    fun exposed => safe exposed.1

/-- Clearing the first triple takes the message about the second away. -/
theorem complaint_wiped :
    run.1.1.Recorded run.2 ∧
      run.1.1.Complains run.2 2 ⟨2, 3, 4⟩ (.incorrect "second") ∧
      run.1.1.sheet.isHole 0 = true ∧ 0 ∉ TripleRef.nodes ⟨2, 3, 4⟩ ∧
      (run.1.1.setAttempt 0 "\x7b false \x7d").sheet.feedback? 2 =
        some .empty := by
  exact ⟨recorded, complains.2, by decide +kernel, by decide,
    by decide +kernel⟩

end Meeting

end Session

end ProofOutline
