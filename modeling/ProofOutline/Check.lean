import ProofOutline.Exercise.Load
import ProofOutline.Session

/-!
# Checking a whole exercise

One pass over an exercise: the attempts are filled in, every hole that is not
blank is prevalidated, and the proof is submitted.
-/

namespace ProofOutline

/-- Why an attempt cannot be filled in; steps are numbered from one. -/
inductive FillError where
  | noSuchStep (number : Nat)
  | notAHole (number : Nat)
  deriving DecidableEq, Repr

def FillError.message : FillError → String
  | noSuchStep number => "step " ++ toString number ++ " does not exist"
  | notAHole number => "step " ++ toString number ++ " is not a hole"

namespace Session

def fillOne (session : Session) (attempt : Nat × String) :
    Except FillError Session :=
  match session.order[attempt.1]? with
  | none => .error (.noSuchStep (attempt.1 + 1))
  | some id =>
      if session.sheet.isHole id then
        .ok (session.setAttempt id attempt.2)
      else .error (.notAHole (attempt.1 + 1))

def fill (session : Session) (attempts : List (Nat × String)) :
    Except FillError Session :=
  attempts.foldlM fillOne session

def isBlankHole (session : Session) (id : NodeId) : Bool :=
  match session.sheet.attempt? id with
  | some attempt => (Text.trimChars attempt.toList).isEmpty
  | none => true

def prevalidateFilled (session : Session) : Session :=
  session.holes.foldl
    (fun session id =>
      if session.isBlankHole id then session else (session.prevalidate id).2)
    session

def runPass {σ : Type} (checker : Checker σ) (session : Session)
    (state : σ) : Except VerifyError Submission × Session × σ :=
  session.prevalidateFilled.submit checker state

end Session

inductive CheckError where
  | load (error : LoadError)
  | fill (error : FillError)
  | verify (error : VerifyError)
  deriving DecidableEq, Repr

def CheckError.message : CheckError → String
  | load error => error.diagnostic.message
  | fill error => error.message
  | verify error => error.message

structure CheckResult where
  exercise : Exercise
  session : Session
  submission : Submission

/-- Attempts given from outside go over those of the file. -/
def Exercise.check {σ : Type} (exercise : Exercise)
    (attempts : List (Nat × String)) (solver : Solver σ) (state : σ) :
    Except CheckError CheckResult := do
  let session ←
    ((Session.ofSteps exercise.steps).fill
      (exercise.attempts ++ attempts)).mapError .fill
  let (result, session, _) :=
    session.runPass (exercise.config.checker solver) state
  let submission ← result.mapError .verify
  return ⟨exercise, session, submission⟩

end ProofOutline
