import ProofOutline.Toml.Reader

/-!
# TOML documents

A document is read line by line: key and value, table header, array-of-tables
header, comment or blank.  The table under the last header is kept apart until
the next header, when it takes its place in the whole.
-/

namespace ProofOutline.Toml

structure Document where
  root : Entries := []
  /-- The last header, as path and last key; none before the first header. -/
  header : Option (List String × String) := none
  /-- Whether that header names one table of an array. -/
  inArray : Bool := false
  current : Entries := []

namespace Document

def close? (document : Document) : Option Entries :=
  match document.header with
  | none => some document.current
  | some (path, last) => do
      let (_, root) ← document.root.descend .implicit
        (fun _ table =>
          match document.inArray, table.lookup? last with
          | true, some (.tables items) =>
              some ((), table.update last
                (.tables (items ++ [document.current])))
          | false, none =>
              some ((), table ++ [(last, .table .header document.current)])
          | _, _ => none)
        path .header
      return root

/-- A header may take over a table that was only named on the way so far. -/
def openTable? (document : Document) (path : List String) (last : String) :
    Option Document := do
  let (current, root) ← (← document.close?).descend .implicit
    (fun _ table =>
      match table.lookup? last with
      | none => some ([], table)
      | some (.table .implicit inner) => some (inner, table.without last)
      | some _ => none)
    path .header
  return ⟨root, some (path, last), false, current⟩

def openArray? (document : Document) (path : List String) (last : String) :
    Option Document := do
  let (_, root) ← (← document.close?).descend .implicit
    (fun _ table =>
      match table.lookup? last with
      | none => some ((), table ++ [(last, .tables [])])
      | some (.tables _) => some ((), table)
      | some _ => none)
    path .header
  return ⟨root, some (path, last), true, []⟩

def line (document : Document) : Reader Document := do
  Reader.spaces
  match ← Reader.peek with
  | none | some '#' | some '\n' | some '\r' =>
      Reader.lineEnd
      return document
  | some '[' =>
      let isArray ← Reader.accept ['[', '[']
      if !isArray then Reader.expect '['
      let (path, last) ← Reader.key
      Reader.expect ']'
      if isArray then Reader.expect ']'
      Reader.lineEnd
      match
        if isArray then document.openArray? path last
        else document.openTable? path last with
      | some document => return document
      | none => failure
  | some _ =>
      let (path, last) ← Reader.key
      Reader.expect '='
      Reader.spaces
      let value ← Reader.value
      Reader.lineEnd
      match document.current.assign? path last value with
      | some current => return { document with current }
      | none => failure

def linesWithin : Nat → Document → Reader Document
  | 0, document => return document
  | rounds + 1, document => do
      if (← get).isEmpty then return document
      linesWithin rounds (← document.line)

end Document

/-- The entries of a document; a leading byte-order mark is skipped. -/
def parse? (text : String) : Option Entries := do
  let input :=
    match text.toList with
    | '\ufeff' :: rest => rest
    | chars => chars
  let (document, _) ← (Document.linesWithin (input.length + 1) {}).run input
  document.close?

end ProofOutline.Toml
