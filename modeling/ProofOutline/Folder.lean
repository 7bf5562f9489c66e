/-!
# A folder of files

The working folder as the program sees it: files by name, each a string of
bytes.  Paths are followed part by part, so that a path may end at the folder,
run through a file, or name nothing.
-/

namespace ProofOutline

inductive ReadFailure where
  | notFound
  | notAFolder
  | isAFolder
  | nameTooLong
  | zeroByte
  | notText
  deriving DecidableEq, Repr

def ReadFailure.message : ReadFailure → String
  | notFound => "No such file or directory (os error 2)"
  | notAFolder => "Not a directory (os error 20)"
  | isAFolder => "Is a directory (os error 21)"
  | nameTooLong => "File name too long (os error 36)"
  | zeroByte => "file name contained an unexpected NUL byte"
  | notText => "stream did not contain valid UTF-8"

structure Folder where
  files : List (String × ByteArray)

namespace Folder

def maxName : Nat := 255

def maxPath : Nat := 4095

/-- Where a path has led so far; folders outside are taken to be empty. -/
inductive Place where
  | here
  | outside
  | file (bytes : ByteArray)

def enter (folder : Folder) (name : String) : Place → Except ReadFailure Place
  | .file _ => .error .notAFolder
  | place =>
      if name = "" ∨ name = "." then .ok place
      else if name = ".." then .ok .outside
      else if maxName < name.utf8ByteSize then .error .nameTooLong
      else
        match place, folder.files.find? fun file => file.1 = name with
        | .here, some file => .ok (.file file.2)
        | _, _ => .error .notFound

def follow (folder : Folder) (path : String) : Except ReadFailure Place :=
  let start := if path.startsWith "/" then Place.outside else .here
  (path.splitOn "/").foldlM (fun place name => folder.enter name place) start

def read (folder : Folder) (path : String) : Except ReadFailure String := do
  if path.toList.contains '\x00' then throw .zeroByte
  if path = "" then throw .notFound
  if maxPath < path.utf8ByteSize then throw .nameTooLong
  match ← folder.follow path with
  | .file bytes =>
      match String.fromUTF8? bytes with
      | some text => return text
      | none => throw .notText
  | _ => throw .isAFolder

end Folder

end ProofOutline
