import ProofOutline.CommandLine

/-!
# The program

Reads the file that the command line names, if any, and prints the answer.
-/

namespace ProofOutline.Program

def readFailure : IO.Error → ReadFailure
  | .inappropriateType .. => .isAFolder
  | _ => .notFound

def readFile (path : String) : IO (Except ReadFailure String) := do
  try
    let bytes ← IO.FS.readBinFile path
    match String.fromUTF8? bytes with
    | some text => return .ok text
    | none => return .error .notText
  catch error => return .error (readFailure error)

def requestedPath? (words : List String) : Option String :=
  match Request.read? words with
  | some (.check path _ _) => some path
  | _ => none

def run (words : List String) : IO UInt32 := do
  let content ←
    match requestedPath? words with
    | some path => readFile path
    | none => pure (.error .notFound)
  let response := respond (fun _ => content) words
  IO.print response.output
  IO.eprint response.complaint
  return UInt32.ofNat response.status

end ProofOutline.Program

def main (words : List String) : IO UInt32 :=
  ProofOutline.Program.run words
