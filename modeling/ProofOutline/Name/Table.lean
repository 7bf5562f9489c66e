import ProofOutline.Name

/-!
# Tables keyed by name

A finite map from names, kept as a list of entries in increasing order of
their names.
-/

namespace ProofOutline

structure NameTable (α : Type) where
  entries : List (Name × α)
  ordered : entries.Pairwise fun a b => a.1 < b.1
  deriving DecidableEq

namespace NameTable

variable {α : Type}

def empty : NameTable α := ⟨[], .nil⟩

instance : Inhabited (NameTable α) := ⟨empty⟩

def insertEntry (name : Name) (value : α) :
    List (Name × α) → List (Name × α)
  | [] => [(name, value)]
  | entry :: rest =>
      if name < entry.1 then (name, value) :: entry :: rest
      else if name = entry.1 then (name, value) :: rest
      else entry :: insertEntry name value rest

private theorem mem_insertEntry {name : Name} {value : α} {entry : Name × α}
    {entries : List (Name × α)} (h : entry ∈ insertEntry name value entries) :
    entry = (name, value) ∨ entry ∈ entries := by
  induction entries with
  | nil => simpa [insertEntry] using h
  | cons first rest ih =>
      unfold insertEntry at h
      split at h
      · simpa using h
      · split at h
        · rcases List.mem_cons.mp h with h | h
          · exact .inl h
          · exact .inr (List.mem_cons_of_mem _ h)
        · rcases List.mem_cons.mp h with h | h
          · exact .inr (h ▸ List.mem_cons_self)
          · exact (ih h).imp id (List.mem_cons_of_mem _)

private theorem ordered_insertEntry (name : Name) (value : α)
    {entries : List (Name × α)} (h : entries.Pairwise fun a b => a.1 < b.1) :
    (insertEntry name value entries).Pairwise fun a b => a.1 < b.1 := by
  induction entries with
  | nil => simp [insertEntry]
  | cons first rest ih =>
      obtain ⟨below, tail⟩ := List.pairwise_cons.mp h
      unfold insertEntry
      split
      case isTrue lt =>
        refine List.pairwise_cons.mpr ⟨fun entry mem => ?_, h⟩
        rcases List.mem_cons.mp mem with rfl | mem
        · exact lt
        · exact Name.lt_trans lt (below entry mem)
      case isFalse notLt =>
        split
        case isTrue eq =>
          refine List.pairwise_cons.mpr ⟨fun entry mem => ?_, tail⟩
          exact eq ▸ below entry mem
        case isFalse ne =>
          refine List.pairwise_cons.mpr ⟨fun entry mem => ?_, ih tail⟩
          rcases mem_insertEntry mem with rfl | mem
          · exact Name.lt_of_not_lt_of_ne notLt ne
          · exact below entry mem

def insert (table : NameTable α) (name : Name) (value : α) : NameTable α :=
  ⟨insertEntry name value table.entries,
    ordered_insertEntry name value table.ordered⟩

def ofList (entries : List (Name × α)) : NameTable α :=
  entries.foldl (fun table entry => table.insert entry.1 entry.2) empty

def get? (table : NameTable α) (name : Name) : Option α :=
  (table.entries.find? fun entry => entry.1 = name).map Prod.snd

@[simp] theorem find?_insertEntry (name other : Name) (value : α)
    (entries : List (Name × α)) :
    ((insertEntry name value entries).find? fun entry => entry.1 = other) =
      if other = name then some (name, value)
      else entries.find? fun entry => entry.1 = other := by
  induction entries with
  | nil => by_cases same : name = other <;> simp [insertEntry, same, eq_comm]
  | cons entry rest ih =>
      unfold insertEntry
      split
      case isTrue => by_cases same : name = other <;> simp [same, eq_comm]
      case isFalse =>
        split
        case isTrue taken =>
          by_cases same : name = other
          · simp [same]
          · simp [same, taken ▸ same, Ne.symm same]
        case isFalse free =>
          by_cases same : entry.1 = other
          · have different : other ≠ name := same ▸ Ne.symm free
            simp [same, different]
          · simpa [same] using ih

@[simp] theorem get?_insert (table : NameTable α) (name other : Name)
    (value : α) :
    (table.insert name value).get? other =
      if other = name then some value else table.get? other := by
  rw [get?, insert, find?_insertEntry]
  split <;> rfl

theorem get?_ofList_map (names : List Name) (value : Name → α) (name : Name) :
    (ofList (names.map fun key => (key, value key))).get? name =
      if name ∈ names then some (value name) else none := by
  have all (table : NameTable α) :
      ((names.map fun key => (key, value key)).foldl
        (fun table entry => table.insert entry.1 entry.2) table).get? name =
        if name ∈ names then some (value name) else table.get? name := by
    induction names generalizing table with
    | nil => simp
    | cons first rest ih =>
        rw [List.map_cons, List.foldl_cons, ih, get?_insert]
        by_cases same : name = first <;> simp [same]
  exact all empty

theorem mem_entries_iff (table : NameTable α) (name : Name) (value : α) :
    (name, value) ∈ table.entries ↔ table.get? name = some value := by
  obtain ⟨entries, ordered⟩ := table
  simp only [get?]
  induction entries with
  | nil => simp
  | cons entry rest ih =>
      obtain ⟨below, tail⟩ := List.pairwise_cons.mp ordered
      by_cases same : entry.1 = name
      · have absent : (name, value) ∉ rest := by
          intro mem
          have less : entry.1 < name := below _ mem
          rw [same] at less
          exact Name.lt_irrefl name less
        subst same
        simp [absent, Prod.ext_iff, eq_comm]
      · have different : (name, value) ≠ entry := by
          rintro rfl
          exact same rfl
        simp [same, different, ih tail]

def size (table : NameTable α) : Nat := table.entries.length

def isEmpty (table : NameTable α) : Bool := table.entries.isEmpty

end NameTable

end ProofOutline
