import ProofOutline.Feedback
import ProofOutline.Text

/-!
# Solvers and checkers

A solver answers whether a formula is satisfiable; a checker gives feedback on
a triple.  Both are state machines: they see one question at a time and may
answer the same question differently the next time, or fail.
-/

namespace ProofOutline

/-- Whatever a solver or a checker has to say about its failure. -/
structure VerifyError where
  detail : String
  deriving DecidableEq, Repr

namespace VerifyError

def noSolver : VerifyError :=
  ⟨"Z3 solver is not enabled. Rebuild with `--features imp-verify/z3`."⟩

def solverExhausted : VerifyError := ⟨"scripted solver has no answer left"⟩

def checkerExhausted : VerifyError := ⟨"scripted checker has no answer left"⟩

def message (error : VerifyError) : String :=
  "verification error: " ++ error.detail

def diagnostic (error : VerifyError) : Diagnostic where
  code := "imp::verify"
  message := error.message

end VerifyError

inductive Answer where
  | unsat
  | sat (model : Model)
  | unknown (reason : String)
  deriving DecidableEq

abbrev Solver (σ : Type) :=
  Formula → σ → Except VerifyError Answer × σ

abbrev Checker (σ : Type) :=
  Triple → σ → Except VerifyError Feedback × σ

/-! ## Prepared answers -/

structure Prepared (α β : Type) where
  answers : List α
  heard : List β := []

namespace Prepared

variable {α β : Type}

def ask (exhausted : VerifyError) (question : β) (prepared : Prepared α β) :
    Except VerifyError α × Prepared α β :=
  let heard := prepared.heard ++ [question]
  match prepared.answers with
  | [] => (.error exhausted, ⟨[], heard⟩)
  | answer :: rest => (.ok answer, ⟨rest, heard⟩)

end Prepared

def Solver.scripted : Solver (Prepared Answer Formula) :=
  Prepared.ask .solverExhausted

/-- The solver of a program that was built without one. -/
def Solver.missing {σ : Type} : Solver σ :=
  fun _ state => (.error .noSolver, state)

def Checker.scripted : Checker (Prepared Feedback Triple) :=
  Prepared.ask .checkerExhausted

/-! ## Checking a triple -/

def Verdict.ofAnswer : Answer → Verdict
  | .unsat => .valid
  | .sat model => .refuted model
  | .unknown reason => .undecided reason

/-- A triple is valid when the negation of its query is unsatisfiable. -/
def Triple.decide {σ : Type} (solver : Solver σ) (triple : Triple)
    (state : σ) : Except VerifyError Verdict × σ :=
  let (answer, state) := solver (.neg triple.query) state
  (answer.map Verdict.ofAnswer, state)

namespace Checker

variable {σ : Type}

def ofSolver (solver : Solver σ) : Checker σ := fun triple state =>
  let (verdict, state) := triple.decide solver state
  (verdict.map (Verdict.feedback triple), state)

def falsePreconditionMessage : String :=
  Feedback.sayIncorrect ++
    "\n\nIt's true that you can prove any postcondition from " ++
    "\x7b false \x7d.\n But we aren't allowing it as a precondition here, " ++
    "because we want you to practice applying the rules mechanically"

/-- Turn down a precondition that is printed as false, without asking. -/
def rejectingFalse (inner : Checker σ) : Checker σ := fun triple state =>
  if triple.pre.render = "\x7b false \x7d" then
    (.ok (.incorrect falsePreconditionMessage), state)
  else inner triple state

end Checker

structure CheckerConfig where
  rejectFalsePrecondition : Bool := false
  solverTimeoutMs : Option Nat := none
  deriving DecidableEq, Repr

namespace CheckerConfig

/-- The longest timeout that solvers take, which have 32 bits for it. -/
def maxTimeout : Nat := 4294967295

def timeout32 (config : CheckerConfig) : Option Nat :=
  config.solverTimeoutMs.map (min maxTimeout)

def wrap {σ : Type} (config : CheckerConfig) (checker : Checker σ) :
    Checker σ :=
  if config.rejectFalsePrecondition then checker.rejectingFalse else checker

def checker {σ : Type} (config : CheckerConfig) (solver : Solver σ) :
    Checker σ :=
  config.wrap (.ofSolver solver)

end CheckerConfig

end ProofOutline
