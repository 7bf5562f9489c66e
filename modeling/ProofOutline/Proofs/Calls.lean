import ProofOutline.Proofs.Holes

/-!
# The calls that a submission makes

A checker that takes notes shows which questions a submission puts and how they
are answered.  The questions follow the triples of the proof from the last to
the first.  They stop with the first triple that is not complete, not praised or
not judged at all, and what the submission returns can be read off the notes.
-/

namespace ProofOutline

structure Call where
  question : Triple
  answer : Except VerifyError Feedback

def Call.praises (call : Call) : Bool :=
  match call.answer with
  | .ok feedback => feedback.isCorrect
  | .error _ => false

def Checker.recording {σ : Type} (checker : Checker σ) :
    Checker (σ × List Call) := fun triple (state, calls) =>
  let (answer, state) := checker triple state
  (answer, state, calls ++ [⟨triple, answer⟩])

def verdicts (triples : List TripleRef) (calls : List Call) :
    List (TripleRef × Feedback) :=
  (triples.zip calls).filterMap fun (triple, call) =>
    call.answer.toOption.map (triple, ·)

@[simp] theorem verdicts_nil (triples : List TripleRef) :
    verdicts triples [] = [] := by
  simp [verdicts]

@[simp] theorem verdicts_ok (triple : TripleRef) (triples : List TripleRef)
    (question : Triple) (feedback : Feedback) (calls : List Call) :
    verdicts (triple :: triples) (⟨question, .ok feedback⟩ :: calls) =
      (triple, feedback) :: verdicts triples calls := rfl

@[simp] theorem verdicts_error (triple : TripleRef)
    (triples : List TripleRef) (question : Triple) (error : VerifyError)
    (calls : List Call) :
    verdicts (triple :: triples) (⟨question, .error error⟩ :: calls) =
      verdicts triples calls := rfl

/-! ## Walks -/

/--
A walk along the triples, each of which may have a value, leads a checker from
one state to another.
-/
inductive Walks {σ : Type} (checker : Checker σ)
    (value? : TripleRef → Option Triple) :
    List TripleRef → σ → List Call → Except VerifyError StopReason → σ → Prop
  | completed {state : σ} :
      Walks checker value? [] state [] (.ok .completed) state
  | incomplete {triple : TripleRef} {rest : List TripleRef} {state : σ}
      (missing : value? triple = none) :
      Walks checker value? (triple :: rest) state []
        (.ok (.incomplete triple)) state
  | failed {triple : TripleRef} {rest : List TripleRef} {state next : σ}
      {value : Triple} {error : VerifyError}
      (found : value? triple = some value)
      (answered : checker value state = (.error error, next)) :
      Walks checker value? (triple :: rest) state [⟨value, .error error⟩]
        (.error error) next
  | incorrect {triple : TripleRef} {rest : List TripleRef} {state next : σ}
      {value : Triple} {feedback : Feedback}
      (found : value? triple = some value)
      (answered : checker value state = (.ok feedback, next))
      (refused : feedback.isCorrect = false) :
      Walks checker value? (triple :: rest) state [⟨value, .ok feedback⟩]
        (.ok (.incorrect triple)) next
  | correct {triple : TripleRef} {rest : List TripleRef} {state next last : σ}
      {value : Triple} {feedback : Feedback} {calls : List Call}
      {ending : Except VerifyError StopReason}
      (found : value? triple = some value)
      (answered : checker value state = (.ok feedback, next))
      (praised : feedback.isCorrect = true)
      (more : Walks checker value? rest next calls ending last) :
      Walks checker value? (triple :: rest) state
        (⟨value, .ok feedback⟩ :: calls) ending last

def report (checked : List TripleRef) (ending : Except VerifyError StopReason) :
    Except VerifyError Submission :=
  ending.map (Submission.mk checked)

namespace Worksheet

def routeAll (sheet : Worksheet) (verdicts : List (TripleRef × Feedback)) :
    Worksheet :=
  verdicts.foldl (fun sheet verdict => sheet.route verdict.1 verdict.2) sheet

theorem walks_submitFrom {σ : Type} (checker : Checker σ)
    {value? : TripleRef → Option Triple}
    (triples checked : List TripleRef) {sheet : Worksheet}
    (h : sheet.OnlyClearing) (same : sheet.triple? = value?) (state : σ)
    (log : List Call) :
    ∃ calls ending last,
      Walks checker value? triples state calls ending last ∧
      sheet.submitFrom checker triples checked state =
        (report (checked ++ triples.take calls.length) ending,
          sheet.routeAll (verdicts triples calls), last) ∧
      sheet.submitFrom checker.recording triples checked (state, log) =
        (report (checked ++ triples.take calls.length) ending,
          sheet.routeAll (verdicts triples calls), last, log ++ calls) := by
  induction triples generalizing checked sheet state log with
  | nil =>
      refine ⟨[], .ok .completed, state, .completed, ?_, ?_⟩
      · simp [submitFrom, report, Except.map, routeAll]
      · simp [submitFrom, report, Except.map, routeAll]
  | cons triple rest ih =>
      cases found : sheet.triple? triple with
      | none =>
          refine ⟨[], .ok (.incomplete triple), state,
            .incomplete (same ▸ found), ?_, ?_⟩
          · simp [submitFrom, found, report, Except.map, routeAll]
          · simp [submitFrom, found, report, Except.map, routeAll]
      | some value =>
          rcases answered : checker value state with ⟨answer, next⟩
          cases answer with
          | error error =>
              refine ⟨[⟨value, .error error⟩], .error error, next,
                .failed (same ▸ found) answered, ?_, ?_⟩
              · simp [submitFrom, found, answered, report, Except.map,
                  routeAll]
              · simp [submitFrom, found, answered, Checker.recording, report,
                  Except.map, routeAll]
          | ok feedback =>
              cases praised : feedback.isCorrect with
              | false =>
                  refine ⟨[⟨value, .ok feedback⟩], .ok (.incorrect triple),
                    next, .incorrect (same ▸ found) answered praised, ?_, ?_⟩
                  · simp [submitFrom, found, answered, praised, report,
                      Except.map, routeAll]
                  · simp [submitFrom, found, answered, praised,
                      Checker.recording, report, Except.map, routeAll]
              | true =>
                  have routed := keeps_route triple feedback h
                  have unchanged :
                      (sheet.route triple feedback).triple? = value? := by
                    rw [← same]
                    exact funext (triple?_of_contents routed.contents)
                  obtain ⟨calls, ending, last, walk, plain, recorded⟩ :=
                    ih (checked ++ [triple]) routed.onlyClearing unchanged
                      next (log ++ [⟨value, .ok feedback⟩])
                  refine ⟨⟨value, .ok feedback⟩ :: calls, ending, last,
                    .correct (same ▸ found) answered praised walk, ?_, ?_⟩
                  · simp [submitFrom, found, answered, praised, plain,
                      routeAll]
                  · simp [submitFrom, found, answered, praised,
                      Checker.recording, recorded, routeAll]

end Worksheet

@[simp] theorem report_eq_ok_iff {checked : List TripleRef}
    {ending : Except VerifyError StopReason} {submission : Submission} :
    report checked ending = .ok submission ↔
      submission.checked = checked ∧ ending = .ok submission.stopped := by
  obtain ⟨triples, stopped⟩ := submission
  cases ending with
  | error error => simp [report, Except.map]
  | ok stop => simp [report, Except.map, eq_comm]

@[simp] theorem report_eq_error_iff {checked : List TripleRef}
    {ending : Except VerifyError StopReason} {error : VerifyError} :
    report checked ending = .error error ↔ ending = .error error := by
  cases ending with
  | error other => simp [report, Except.map]
  | ok stop => simp [report, Except.map]

/-! ## Where a walk stops -/

/-- All triples before this one were praised; `final` is what came after. -/
def StopsAt (triples : List TripleRef) (calls : List Call)
    (triple : TripleRef) (final : List Call) : Prop :=
  ∃ before after praised, triples = before ++ triple :: after ∧
    calls = praised ++ final ∧ praised.length = before.length ∧
    ∀ call ∈ praised, call.praises = true

theorem StopsAt.mem {triples : List TripleRef} {calls final : List Call}
    {triple : TripleRef} (h : StopsAt triples calls triple final) :
    triple ∈ triples := by
  obtain ⟨before, after, praised, rfl, -⟩ := h
  simp

@[simp] theorem not_stopsAt_nil {calls final : List Call}
    {triple : TripleRef} : ¬ StopsAt [] calls triple final :=
  fun h => absurd h.mem List.not_mem_nil

@[simp] theorem stopsAt_unasked {first triple : TripleRef}
    {rest : List TripleRef} {final : List Call} :
    StopsAt (first :: rest) [] triple final ↔ triple = first ∧ final = [] := by
  constructor
  · rintro ⟨before, after, praised, split, said, same, -⟩
    obtain ⟨rfl, rfl⟩ := List.append_eq_nil_iff.mp said.symm
    cases List.length_eq_zero_iff.mp same.symm
    cases split
    exact ⟨rfl, rfl⟩
  · rintro ⟨rfl, rfl⟩
    exact ⟨[], rest, [], rfl, rfl, rfl, by simp⟩

@[simp] theorem stopsAt_asked {first triple : TripleRef}
    {rest : List TripleRef} {call : Call} {calls final : List Call} :
    StopsAt (first :: rest) (call :: calls) triple final ↔
      triple = first ∧ final = call :: calls ∨
        call.praises = true ∧ StopsAt rest calls triple final := by
  constructor
  · rintro ⟨before, after, praised, split, said, same, praise⟩
    cases before with
    | nil =>
        cases List.length_eq_zero_iff.mp same
        cases split
        exact .inl ⟨rfl, said.symm⟩
    | cons head before =>
        cases praised with
        | nil => cases same
        | cons answer praised =>
            cases split
            cases said
            refine .inr ⟨praise _ List.mem_cons_self, before, after, praised,
              rfl, rfl, Nat.succ.inj same, fun other mem => ?_⟩
            exact praise other (List.mem_cons_of_mem _ mem)
  · rintro (⟨rfl, rfl⟩ | ⟨praise, before, after, praised, rfl, rfl, same,
      others⟩)
    · exact ⟨[], rest, [], rfl, rfl, rfl, by simp⟩
    · refine ⟨first :: before, after, call :: praised, rfl, rfl,
        congrArg Nat.succ same, fun other mem => ?_⟩
      rcases List.mem_cons.mp mem with rfl | mem
      · exact praise
      · exact others other mem

def Checker.Replays {σ : Type} (checker : Checker σ) :
    σ → List Call → σ → Prop
  | state, [], last => last = state
  | state, call :: calls, last =>
      ∃ next, checker call.question state = (call.answer, next) ∧
        checker.Replays next calls last

namespace Walks

variable {σ : Type} {checker : Checker σ}
  {value? : TripleRef → Option Triple} {triples : List TripleRef}
  {state last : σ} {calls : List Call}
  {ending : Except VerifyError StopReason}

theorem replays (h : Walks checker value? triples state calls ending last) :
    checker.Replays state calls last := by
  induction h with
  | completed => rfl
  | incomplete missing => rfl
  | failed found answered => exact ⟨_, answered, rfl⟩
  | incorrect found answered refused => exact ⟨_, answered, rfl⟩
  | correct found answered praised more ih => exact ⟨_, answered, ih⟩

theorem asks (h : Walks checker value? triples state calls ending last)
    {place : Nat} {call : Call} (called : calls[place]? = some call) :
    ∃ triple, triples[place]? = some triple ∧
      value? triple = some call.question := by
  induction h generalizing place with
  | completed => simp at called
  | incomplete missing => simp at called
  | @failed triple _ _ _ _ _ found answered =>
      cases place with
      | zero =>
          cases called
          exact ⟨triple, rfl, found⟩
      | succ place => simp at called
  | @incorrect triple _ _ _ _ _ found answered refused =>
      cases place with
      | zero =>
          cases called
          exact ⟨triple, rfl, found⟩
      | succ place => simp at called
  | @correct triple _ _ _ _ _ _ _ _ found answered praised more ih =>
      cases place with
      | zero =>
          cases called
          exact ⟨triple, rfl, found⟩
      | succ place => exact ih called

theorem completed_iff
    (h : Walks checker value? triples state calls ending last) :
    ending = .ok .completed ↔
      calls.length = triples.length ∧ ∀ call ∈ calls, call.praises = true := by
  induction h with
  | completed => simp
  | incomplete missing => simp
  | failed found answered => simp [Call.praises]
  | incorrect found answered refused => simp [Call.praises, refused]
  | correct found answered praised more ih => simp [Call.praises, praised, ih]

theorem incomplete_iff
    (h : Walks checker value? triples state calls ending last)
    (triple : TripleRef) :
    ending = .ok (.incomplete triple) ↔
      StopsAt triples calls triple [] ∧ value? triple = none := by
  induction h with
  | completed => simp
  | @incomplete first _ _ missing =>
      constructor
      · rintro ⟨⟩
        simp [missing]
      · rintro ⟨stops, -⟩
        simp [(stopsAt_unasked.mp stops).1]
  | failed found answered => simp [Call.praises]
  | incorrect found answered refused => simp [Call.praises, refused]
  | correct found answered praised more ih => simp [Call.praises, praised, ih]

theorem incorrect_iff
    (h : Walks checker value? triples state calls ending last)
    (triple : TripleRef) :
    ending = .ok (.incorrect triple) ↔ ∃ question feedback,
      StopsAt triples calls triple [⟨question, .ok feedback⟩] ∧
        feedback.isCorrect = false := by
  induction h with
  | completed => simp
  | incomplete missing => simp
  | failed found answered => simp [Call.praises]
  | @incorrect first _ _ _ value feedback found answered refused =>
      constructor
      · rintro ⟨⟩
        exact ⟨value, feedback, by simp, refused⟩
      · rintro ⟨question, other, stops, -⟩
        rcases stopsAt_asked.mp stops with ⟨rfl, -⟩ | ⟨praised, -⟩
        · rfl
        · simp [Call.praises, refused] at praised
  | @correct first _ _ _ _ value feedback calls _ found answered praised more
      ih =>
      rw [ih]
      constructor
      · rintro ⟨question, other, stops, refused⟩
        refine ⟨question, other, stopsAt_asked.mpr (.inr ⟨praised, stops⟩),
          refused⟩
      · rintro ⟨question, other, stops, refused⟩
        rcases stopsAt_asked.mp stops with ⟨-, same⟩ | ⟨-, later⟩
        · cases same
          simp [praised] at refused
        · exact ⟨question, other, later, refused⟩

theorem error_iff
    (h : Walks checker value? triples state calls ending last)
    (error : VerifyError) :
    ending = .error error ↔ ∃ triple question,
      StopsAt triples calls triple [⟨question, .error error⟩] := by
  induction h with
  | completed => simp
  | incomplete missing => simp
  | @failed first _ _ _ value other found answered =>
      constructor
      · rintro ⟨⟩
        exact ⟨first, value, by simp⟩
      · rintro ⟨triple, question, stops⟩
        rcases stopsAt_asked.mp stops with ⟨-, same⟩ | ⟨praised, -⟩
        · cases same
          rfl
        · simp [Call.praises] at praised
  | incorrect found answered refused => simp [Call.praises, refused]
  | correct found answered praised more ih => simp [Call.praises, praised, ih]

theorem answered (h : Walks checker value? triples state calls ending last)
    {stop : StopReason} (stopped : ending = .ok stop) :
    ∀ call ∈ calls, ∃ feedback, call.answer = .ok feedback := by
  induction h with
  | completed => simp
  | incomplete missing => simp
  | failed found answered => cases stopped
  | incorrect found answered refused => simp
  | correct found answered praised more ih => simpa using ih stopped

end Walks

end ProofOutline
