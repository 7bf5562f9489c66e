import ProofOutline.Checker

/-!
# Turning down false preconditions

A configured checker may turn down the precondition `{ false }`, which it tells
by its printed form.  No other formula is printed like that.  So the checker
differs from the plain one on triples whose precondition is literally false and
nowhere else: these are turned down without a query, and the others are checked
as if the former had never been there.
-/

namespace ProofOutline

/-! ## The printed form -/

@[simp] theorem Formula.render_eq_false_iff {formula : Formula} :
    formula.render = "false" ↔ formula = .truth false := by
  constructor
  · intro printed
    have chars := congrArg String.toList printed
    cases formula with
    | truth value =>
        cases value with
        | false => rfl
        | true => exact absurd printed (by decide)
    | predicate name args =>
        rw [render, String.toList_append] at chars
        have last := congrArg List.getLast? chars
        rw [show ")".toList = [')'] from rfl, List.getLast?_concat] at last
        exact absurd last (by decide)
    | neg body => simp [render, String.toList_append] at chars
    | connect op left right => simp [render, String.toList_append] at chars
    | compare op left right => simp [render, String.toList_append] at chars
  · rintro rfl
    rfl

@[simp] theorem Assertion.render_eq_false_iff {assertion : Assertion} :
    assertion.render = "\x7b false \x7d" ↔
      assertion.formula = .truth false := by
  have text : "\x7b false \x7d" = "\x7b " ++ "false" ++ " \x7d" := by decide
  unfold render
  rw [text, String.append_left_inj, String.append_right_inj,
    Formula.render_eq_false_iff]

/-! ## Complaints of the plain checker -/

def Text.Begins (start : List Char) (text : String) : Prop :=
  start <+: text.toList

theorem Text.begins_append_ofList (front : String) (start rest : List Char) :
    Begins (front.toList ++ start) (front ++ String.ofList (start ++ rest)) := by
  rw [Begins, String.toList_append, String.toList_ofList, ← List.append_assoc]
  exact List.prefix_append _ _

theorem Text.Begins.append {start : List Char} {text : String}
    (h : Begins start text) (more : String) : Begins start (text ++ more) := by
  rw [Begins, String.toList_append]
  exact h.trans (List.prefix_append _ _)

theorem Text.Begins.unique {start other : List Char} {text : String}
    (h : Begins start text) (h' : Begins other text)
    (alike : start.length = other.length) : start = other :=
  (List.prefix_of_prefix_length_le h h' (Nat.le_of_eq alike)).eq_of_length
    alike

namespace Verdict

open Text

def complaintStart : List Char := Feedback.sayIncorrect.toList ++ ['\n', 'T']

private theorem begins_counterexampleMessage (triple : Triple) (model : Model) :
    Begins complaintStart (counterexampleMessage triple model) := by
  have start := begins_append_ofList Feedback.sayIncorrect ['\n', 'T']
  unfold counterexampleMessage counterexampleSetup
  exact ((((((((start _).append _).append _).append _).append _).append
    _).append _).append _).append _

private theorem begins_undecidedMessage (reason : String) :
    Begins complaintStart (undecidedMessage reason) := by
  have start := begins_append_ofList Feedback.sayIncorrect ['\n', 'T']
  unfold undecidedMessage
  exact (((start _).append _).append _).append _

private theorem not_begins_falsePreconditionMessage :
    ¬Begins complaintStart Checker.falsePreconditionMessage := by
  intro begins
  have start := begins_append_ofList Feedback.sayIncorrect ['\n', '\n']
  have blankLine : Begins (Feedback.sayIncorrect.toList ++ ['\n', '\n'])
      Checker.falsePreconditionMessage := by
    unfold Checker.falsePreconditionMessage
    exact ((start _).append _).append _
  have same := begins.unique blankLine (by simp [complaintStart])
  exact absurd (List.append_cancel_left same) (by decide)

private theorem feedback_ne_rejection (verdict : Verdict) (triple : Triple) :
    verdict.feedback triple ≠
      .incorrect Checker.falsePreconditionMessage := by
  intro same
  apply not_begins_falsePreconditionMessage
  cases verdict with
  | valid => cases congrArg Feedback.outcome same
  | refuted model =>
      have text : counterexampleMessage triple model = _ :=
        Option.some.inj (congrArg Feedback.message same)
      exact text ▸ begins_counterexampleMessage triple model
  | undecided reason =>
      have text : undecidedMessage reason = _ :=
        Option.some.inj (congrArg Feedback.message same)
      exact text ▸ begins_undecidedMessage reason

end Verdict

/-! ## One triple -/

section Checkers

variable {σ : Type}

private theorem Checker.ofSolver_ne_rejection (solver : Solver σ)
    (triple : Triple) (state : σ) :
    (ofSolver solver triple state).1 ≠
      .ok (.incorrect falsePreconditionMessage) := by
  intro same
  have given : ((solver (.neg triple.query) state).1.map
      Verdict.ofAnswer).map (Verdict.feedback triple) =
        .ok (.incorrect falsePreconditionMessage) := same
  cases answer : (solver (.neg triple.query) state).1 with
  | error error =>
      rw [answer] at given
      cases given
  | ok answer' =>
      rw [answer] at given
      exact Verdict.feedback_ne_rejection _ triple (Except.ok.inj given)

/-- The triple is turned down because its precondition is literally false. -/
def CheckerConfig.Rejects (config : CheckerConfig) (triple : Triple) : Prop :=
  config.rejectFalsePrecondition = true ∧ triple.pre.formula = .truth false

instance (config : CheckerConfig) (triple : Triple) :
    Decidable (config.Rejects triple) :=
  inferInstanceAs (Decidable (_ ∧ _))

theorem CheckerConfig.checker_apply (config : CheckerConfig)
    (solver : Solver σ) (triple : Triple) (state : σ) :
    config.checker solver triple state =
      if config.Rejects triple then
        (.ok (.incorrect Checker.falsePreconditionMessage), state)
      else Checker.ofSolver solver triple state := by
  unfold checker wrap
  by_cases on : config.rejectFalsePrecondition = true
  · simp only [on, if_true, Checker.rejectingFalse,
      Assertion.render_eq_false_iff, Rejects, true_and]
  · simp [on, Rejects]

/-! ## Notes on the queries -/

def Solver.recording (solver : Solver σ) : Solver (σ × List Formula) :=
  fun query (state, queries) =>
    let (answer, state) := solver query state
    (answer, state, queries ++ [query])

structure Examination where
  triple : Triple
  queries : List Formula
  answer : Except VerifyError Feedback

namespace Checker

/-- Check one triple and report what the solver was asked meanwhile. -/
def examine (checker : Checker (σ × List Formula)) (triple : Triple)
    (state : σ) : Examination × σ :=
  let (answer, state, queries) := checker triple (state, [])
  (⟨triple, queries, answer⟩, state)

def examineAll (checker : Checker (σ × List Formula)) :
    List Triple → σ → List Examination × σ
  | [], state => ([], state)
  | triple :: rest, state =>
      let (first, state) := checker.examine triple state
      let (others, state) := checker.examineAll rest state
      (first :: others, state)

def checkAll (checker : Checker σ) :
    List Triple → σ → List (Except VerifyError Feedback) × σ
  | [], state => ([], state)
  | triple :: rest, state =>
      let (first, state) := checker triple state
      let (others, state) := checker.checkAll rest state
      (first :: others, state)

private theorem examine_ofSolver (solver : Solver σ) (triple : Triple)
    (state : σ) :
    (ofSolver solver.recording).examine triple state =
      (⟨triple, [.neg triple.query], (ofSolver solver triple state).1⟩,
        (ofSolver solver triple state).2) := rfl

end Checker

namespace CheckerConfig

variable (config : CheckerConfig) (solver : Solver σ)

theorem examine_checker (triple : Triple) (state : σ) :
    (config.checker solver.recording).examine triple state =
      (⟨triple, if config.Rejects triple then [] else [.neg triple.query],
          (config.checker solver triple state).1⟩,
        (config.checker solver triple state).2) := by
  by_cases rejected : config.Rejects triple
  · simp only [Checker.examine, checker_apply, rejected, if_true]
  · rw [if_neg rejected, checker_apply, if_neg rejected,
      ← Checker.examine_ofSolver]
    simp only [Checker.examine, checker_apply, rejected, if_false]

private theorem examine_of_not_rejects {triple : Triple}
    (notRejected : ¬config.Rejects triple) (state : σ) :
    (config.checker solver.recording).examine triple state =
      (Checker.ofSolver solver.recording).examine triple state := by
  rw [examine_checker, if_neg notRejected, checker_apply, if_neg notRejected,
    Checker.examine_ofSolver]

end CheckerConfig

/-! ## A list of triples -/

namespace Checker

@[simp] theorem map_triple_examineAll (checker : Checker (σ × List Formula))
    (triples : List Triple) (state : σ) :
    (checker.examineAll triples state).1.map Examination.triple = triples := by
  induction triples generalizing state with
  | nil => rfl
  | cons triple rest ih => exact congrArg (triple :: ·) (ih _)

private theorem exists_of_mem_examineAll {checker : Checker (σ × List Formula)}
    {triples : List Triple} {state : σ} {examination : Examination}
    (mem : examination ∈ (checker.examineAll triples state).1) :
    ∃ triple before, examination = (checker.examine triple before).1 := by
  induction triples generalizing state with
  | nil => exact absurd mem List.not_mem_nil
  | cons triple rest ih =>
      rcases List.mem_cons.mp mem with first | later
      · exact ⟨triple, state, first⟩
      · exact ih later

end Checker

namespace CheckerConfig

variable (config : CheckerConfig) (solver : Solver σ)

private theorem checkAll_eq (triples : List Triple) (state : σ) :
    (config.checker solver).checkAll triples state =
      (((config.checker solver.recording).examineAll triples state).1.map
          Examination.answer,
        ((config.checker solver.recording).examineAll triples state).2) := by
  induction triples generalizing state with
  | nil => rfl
  | cons triple rest ih =>
      simp only [Checker.checkAll, Checker.examineAll, examine_checker, ih,
        List.map_cons]

variable {config}

/-- Triples that are turned down leave no trace in the other examinations. -/
theorem examineAll_filter (on : config.rejectFalsePrecondition = true)
    (triples : List Triple) (state : σ) :
    (Checker.ofSolver solver.recording).examineAll
        (triples.filter (·.pre.formula ≠ .truth false)) state =
      (((config.checker solver.recording).examineAll triples state).1.filter
          (·.triple.pre.formula ≠ .truth false),
        ((config.checker solver.recording).examineAll triples state).2) := by
  induction triples generalizing state with
  | nil => rfl
  | cons triple rest ih =>
      by_cases isFalse : triple.pre.formula = .truth false
      · have rejected : config.Rejects triple := ⟨on, isFalse⟩
        simp only [Checker.examineAll, examine_checker, checker_apply,
          rejected, if_true]
        rw [List.filter_cons_of_neg (by simp [isFalse]),
          List.filter_cons_of_neg (by simp [isFalse]), ih]
      · have notRejected : ¬config.Rejects triple := fun both =>
          isFalse both.2
        rw [List.filter_cons_of_pos (by simp [isFalse])]
        simp only [Checker.examineAll,
          examine_of_not_rejects config solver notRejected, ih]
        rw [List.filter_cons_of_pos]
        exact decide_eq_true isFalse

theorem examination_iff (on : config.rejectFalsePrecondition = true)
    {triples : List Triple} {state : σ} {examination : Examination}
    (mem : examination ∈
      ((config.checker solver.recording).examineAll triples state).1) :
    (examination.answer =
        .ok (.incorrect Checker.falsePreconditionMessage) ↔
      examination.triple.pre.formula = .truth false) ∧
    (examination.queries = [] ↔
      examination.triple.pre.formula = .truth false) := by
  obtain ⟨triple, before, rfl⟩ := Checker.exists_of_mem_examineAll mem
  rw [examine_checker]
  by_cases isFalse : triple.pre.formula = .truth false
  · have rejected : config.Rejects triple := ⟨on, isFalse⟩
    simp [checker_apply, rejected, isFalse]
  · have notRejected : ¬config.Rejects triple := fun both => isFalse both.2
    have otherwise := Checker.ofSolver_ne_rejection solver triple before
    simp [checker_apply, notRejected, isFalse, otherwise]

variable (config)

/--
A checker that turns false preconditions down does so exactly with the triples
whose precondition is literally false, and exactly these cost no query.  The
other triples get the answers, with the queries, that the plain checker gives
when it is run on them alone.  Without the setting the checker is the plain one.
-/
theorem differs_only_on_false (triples : List Triple) (state : σ) :
    let run := (config.checker solver.recording).examineAll triples state
    let plain := (Checker.ofSolver solver.recording).examineAll
    (config.checker solver).checkAll triples state =
      (run.1.map Examination.answer, run.2) ∧
    run.1.map Examination.triple = triples ∧
    (config.rejectFalsePrecondition = true →
      (∀ examination ∈ run.1,
        (examination.answer =
            .ok (.incorrect Checker.falsePreconditionMessage) ↔
          examination.triple.pre.formula = .truth false) ∧
        (examination.queries = [] ↔
          examination.triple.pre.formula = .truth false)) ∧
      plain (triples.filter (·.pre.formula ≠ .truth false)) state =
        (run.1.filter (·.triple.pre.formula ≠ .truth false), run.2)) ∧
    (config.rejectFalsePrecondition = false →
      run = plain triples state) := by
  refine ⟨config.checkAll_eq solver triples state,
    Checker.map_triple_examineAll _ triples state, fun on => ?_, fun off => ?_⟩
  · exact ⟨fun examination mem => examination_iff solver on mem,
      examineAll_filter solver on triples state⟩
  · have same : config.checker solver.recording =
        Checker.ofSolver solver.recording := by
      simp [checker, wrap, off]
    simp only [same]

end CheckerConfig

end Checkers

namespace CheckerConfig

def idle (pre : Formula) : Triple :=
  ⟨⟨pre.render, pre⟩, ⟨"skip;", .skip⟩, ⟨"true", .truth true⟩⟩

/--
The solver has one answer, which goes to the precondition `!true`.  The literal
`false` is turned down without it, and `true` meets the error.
-/
theorem differs_only_on_false_exhausted :
    let config : CheckerConfig := ⟨true, none⟩
    let start : Prepared Answer Formula := ⟨[.unsat], []⟩
    let never := idle (.neg (.truth true))
    let always := idle (.truth true)
    let run := (config.checker Solver.scripted.recording).examineAll
      [never, idle (.truth false), always] start
    config.rejectFalsePrecondition = true ∧
      run.1.map Examination.answer =
        [.ok (.correct Feedback.sayCorrect),
          .ok (.incorrect Checker.falsePreconditionMessage),
          .error .solverExhausted] ∧
      (∀ examination ∈ run.1, examination.queries = [] ↔
        examination.triple.pre.formula = .truth false) ∧
      (Checker.ofSolver Solver.scripted.recording).examineAll
          [never, always] start =
        (run.1.filter (·.triple.pre.formula ≠ .truth false), run.2) := by
  intro config start never always run
  obtain ⟨-, -, strict, -⟩ := differs_only_on_false config Solver.scripted
    [never, idle (.truth false), always] start
  obtain ⟨each, others⟩ := strict rfl
  exact ⟨rfl, rfl, fun examination mem => (each examination mem).2, others⟩

end CheckerConfig

end ProofOutline
