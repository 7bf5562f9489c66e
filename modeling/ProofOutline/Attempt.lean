import ProofOutline.Text

/-!
# Attempts on the command line

An attempt is written `N=TEXT`: the number of a step, counted from one, and
the text to put into it.  The first equals sign divides the two.
-/

namespace ProofOutline

inductive AttemptError where
  | noNumber (raw : String)
  | notANumber (text : String)
  | zero
  deriving DecidableEq, Repr

def AttemptError.message : AttemptError → String
  | noNumber raw => "expected N=TEXT, got `" ++ raw ++ "`"
  | notANumber text => "`" ++ text ++ "` is not a step number"
  | zero => "step numbers start at 1"

namespace Attempt

/-- Step numbers fit an unsigned machine word of 64 bits. -/
def maxStep : Nat := 18446744073709551615

def read (raw : String) : Except AttemptError (Nat × String) :=
  let chars := raw.toList
  match chars.dropWhile (· ≠ '=') with
  | [] => .error (.noNumber raw)
  | _ :: text =>
      let number := Text.trimChars (chars.takeWhile (· ≠ '='))
      match Text.readNatural? number with
      | some value =>
          if maxStep < value then
            .error (.notANumber (String.ofList number))
          else if value = 0 then .error .zero
          else .ok (value - 1, String.ofList text)
      | none => .error (.notANumber (String.ofList number))

end Attempt

end ProofOutline
