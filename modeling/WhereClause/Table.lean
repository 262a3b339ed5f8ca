/-!
Entries kept under distinct names in the order in which the names were first written; a later
write under a name replaces its item and keeps its place. Main statements: the names after a write,
and the item found under a name after a write.
-/
namespace WhereClause

namespace Entries

variable {α : Type}

/-- Writes an item under a name: in the place of an entry of that name, else at the end. -/
def upsert (name : String) (item : α) : List (String × α) → List (String × α)
  | [] => [(name, item)]
  | entry :: rest =>
    if entry.1 = name then (name, item) :: rest else entry :: upsert name item rest

def find? (name : String) : List (String × α) → Option α
  | [] => none
  | entry :: rest => if entry.1 = name then some entry.2 else find? name rest

def names (entries : List (String × α)) : List String := entries.map Prod.fst

@[simp] theorem names_nil : names ([] : List (String × α)) = [] := rfl

@[simp] theorem names_cons (entry : String × α) (rest : List (String × α)) :
    names (entry :: rest) = entry.1 :: names rest := rfl

theorem names_upsert (name : String) (item : α) (entries : List (String × α)) :
    names (upsert name item entries) =
      if name ∈ names entries then names entries else names entries ++ [name] := by
  induction entries with
  | nil => rfl
  | cons entry rest ih =>
    by_cases h : entry.1 = name
    · simp [upsert, h]
    · have h' : name ≠ entry.1 := Ne.symm h
      simp only [upsert, h, if_false, names_cons, ih, List.mem_cons, h', false_or]
      split <;> rfl

theorem nodup_names_upsert (name : String) (item : α) {entries : List (String × α)}
    (h : (names entries).Nodup) : (names (upsert name item entries)).Nodup := by
  rw [names_upsert]
  split
  · exact h
  · next absent =>
    refine List.nodup_append.2 ⟨h, by simp, ?_⟩
    rintro a ha b hb rfl
    exact absent (List.mem_singleton.1 hb ▸ ha)

theorem find?_upsert (name other : String) (item : α) (entries : List (String × α)) :
    find? other (upsert name item entries) =
      if name = other then some item else find? other entries := by
  induction entries with
  | nil => rfl
  | cons entry rest ih =>
    by_cases h : entry.1 = name
    · subst h
      by_cases h' : entry.1 = other <;> simp [upsert, find?, h']
    · by_cases h' : entry.1 = other
      · subst h'
        simp [upsert, find?, h, Ne.symm h]
      · simp [upsert, find?, h, h', ih]

end Entries

structure Table (α : Type) where
  entries : List (String × α)
  nodup_names : (Entries.names entries).Nodup

namespace Table

variable {α : Type}

def empty : Table α := ⟨[], List.nodup_nil⟩

instance : Inhabited (Table α) := ⟨empty⟩

instance : EmptyCollection (Table α) := ⟨empty⟩

def put (table : Table α) (name : String) (item : α) : Table α :=
  ⟨Entries.upsert name item table.entries, Entries.nodup_names_upsert name item table.nodup_names⟩

def ofList (entries : List (String × α)) : Table α :=
  entries.foldl (fun table entry => table.put entry.1 entry.2) empty

def get? (table : Table α) (name : String) : Option α := Entries.find? name table.entries

def names (table : Table α) : List String := Entries.names table.entries

def size (table : Table α) : Nat := table.entries.length

def isEmpty (table : Table α) : Bool := table.entries.isEmpty

theorem eq_of_entries {table other : Table α} (h : table.entries = other.entries) :
    table = other := by
  cases table
  cases other
  cases h
  rfl

theorem names_put (table : Table α) (name : String) (item : α) :
    (table.put name item).names =
      if name ∈ table.names then table.names else table.names ++ [name] :=
  Entries.names_upsert name item table.entries

theorem get?_put (table : Table α) (name other : String) (item : α) :
    (table.put name item).get? other = if name = other then some item else table.get? other :=
  Entries.find?_upsert name other item table.entries

end Table

end WhereClause
