/-!
# Values of a TOML document

The part of TOML that exercise files use: strings, integers, booleans, arrays
and tables.  A table remembers how it came about, because that decides whether
later lines of the document may still add to it.
-/

namespace ProofOutline.Toml

inductive Origin where
  /-- Opened by a header of its own. -/
  | header
  /-- Only named on the way in a header. -/
  | implicit
  /-- Only named on the way in a dotted key. -/
  | dotted
  /-- Written in braces, and closed with them. -/
  | inline
  deriving DecidableEq, Repr

inductive Value where
  | string (value : String)
  | integer (value : Int)
  | boolean (value : Bool)
  | array (items : List Value)
  | table (origin : Origin) (entries : List (String × Value))
  /-- The tables of repeated double-bracket headers. -/
  | tables (items : List (List (String × Value)))

abbrev Entries := List (String × Value)

namespace Entries

def lookup? (entries : Entries) (key : String) : Option Value :=
  (entries.find? fun entry => entry.1 == key).map Prod.snd

def update (entries : Entries) (key : String) (value : Value) : Entries :=
  entries.map fun entry => if entry.1 == key then (key, value) else entry

def without (entries : Entries) (key : String) : Entries :=
  entries.filter fun entry => entry.1 != key

/-- Add an entry; no key may be given twice. -/
def add? (entries : Entries) (key : String) (value : Value) :
    Option Entries :=
  if (entries.lookup? key).isSome then none
  else some (entries ++ [(key, value)])

/--
Change the table reached by a path of keys.  Tables missing on the way are
made, with origin `fresh`.  A dotted key may only pass through tables that
have no header of their own, and nothing passes into a table in braces.
-/
def descend {α : Type} (fresh : Origin)
    (change : Origin → Entries → Option (α × Entries)) :
    List String → Origin → Entries → Option (α × Entries)
  | [], origin, entries => change origin entries
  | key :: path, _, entries =>
      match entries.lookup? key with
      | none => do
          let (result, inner) ← descend fresh change path fresh []
          return (result, entries ++ [(key, .table fresh inner)])
      | some (.table origin inner) =>
          if origin = .inline ∨ (fresh = .dotted ∧ origin = .header) then none
          else do
            let (result, inner) ← descend fresh change path origin inner
            return (result, entries.update key (.table origin inner))
      | some (.tables items) =>
          match items.reverse with
          | [] => none
          | last :: before => do
              let (result, last) ← descend fresh change path .header last
              return (result,
                entries.update key (.tables (before.reverse ++ [last])))
      | some _ => none

def assign? (entries : Entries) (path : List String) (key : String)
    (value : Value) : Option Entries := do
  let (_, entries) ← entries.descend .dotted
    (fun origin table =>
      if (origin == .dotted) == path.isEmpty then none
      else (table.add? key value).map ((), ·))
    path .header
  return entries

end Entries

end ProofOutline.Toml
