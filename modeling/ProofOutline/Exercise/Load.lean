import ProofOutline.Exercise
import ProofOutline.Folder

/-!
# Loading an exercise

Reading an exercise from a named file, with the name in every complaint.
-/

namespace ProofOutline

def ExerciseError.diagnostic (error : ExerciseError) : Diagnostic where
  code := "hoare::exercise"
  message := "exercise error: " ++ error.detail

inductive LoadError where
  | unreadable (path : String) (failure : ReadFailure)
  | invalid (path : String) (error : ExerciseError)
  deriving DecidableEq, Repr

namespace LoadError

def detail : LoadError → String
  | unreadable path failure =>
      "failed to read " ++ path ++ ": " ++ failure.message
  | invalid path error => path ++ ": " ++ error.detail

def diagnostic (error : LoadError) : Diagnostic where
  code := "hoare::exercise"
  message := "exercise error: " ++ error.detail

end LoadError

def Exercise.load (read : String → Except ReadFailure String)
    (path : String) : Except LoadError Exercise :=
  match read path with
  | .error failure => .error (.unreadable path failure)
  | .ok raw => (Exercise.parse raw).mapError (.invalid path)

end ProofOutline
