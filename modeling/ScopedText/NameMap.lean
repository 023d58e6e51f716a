/-!
# Tables keyed by names

A `NameMap` lists its entries by increasing name, each name once. An entry put under a name that is
already there takes its place.
-/

namespace ScopedText

/-- A finite map from names, in the order of the names. -/
structure NameMap (α : Type) where
  entries : List (String × α) := []
deriving DecidableEq, Repr, Inhabited

namespace NameMap

variable {α β : Type}

def empty : NameMap α := {}

def find? (m : NameMap α) (name : String) : Option α :=
  (m.entries.find? (·.1 == name)).map (·.2)

def names (m : NameMap α) : List String := m.entries.map (·.1)

/-- Puts an entry in its place in an ordered list. -/
def insertEntry (name : String) (a : α) : List (String × α) → List (String × α)
  | [] => [(name, a)]
  | (other, b) :: entries =>
    if name < other then (name, a) :: (other, b) :: entries
    else if name = other then (name, a) :: entries
    else (other, b) :: insertEntry name a entries

def insert (m : NameMap α) (name : String) (a : α) : NameMap α :=
  ⟨insertEntry name a m.entries⟩

/-- Puts the entries in one after the other; later ones take the place of earlier ones. -/
def ofList (entries : List (String × α)) : NameMap α :=
  entries.foldl (fun m (name, a) => m.insert name a) empty

def map (f : α → β) (m : NameMap α) : NameMap β := ⟨m.entries.map fun (name, a) => (name, f a)⟩

theorem find?_insertEntry_self (name : String) (a : α) (entries : List (String × α)) :
    (insertEntry name a entries).find? (·.1 == name) = some (name, a) := by
  induction entries with
  | nil => simp [insertEntry]
  | cons e entries ih =>
    obtain ⟨other, b⟩ := e
    unfold insertEntry
    split
    · simp
    · split
      · simp
      · rename_i _ hne
        simp [ih, Ne.symm hne]

@[simp] theorem find?_insert_self (m : NameMap α) (name : String) (a : α) :
    (m.insert name a).find? name = some a := by
  simp [find?, insert, find?_insertEntry_self]

theorem find?_insertEntry_of_ne {name other : String} (h : other ≠ name) (a : α)
    (entries : List (String × α)) :
    (insertEntry name a entries).find? (·.1 == other) = entries.find? (·.1 == other) := by
  induction entries with
  | nil => simp [insertEntry, Ne.symm h]
  | cons e entries ih =>
    obtain ⟨n, b⟩ := e
    unfold insertEntry
    split
    · simp [Ne.symm h]
    · split
      · rename_i _ hn
        subst hn
        simp [Ne.symm h]
      · simp [List.find?_cons, ih]

theorem find?_insert_of_ne (m : NameMap α) {name other : String} (h : other ≠ name) (a : α) :
    (m.insert name a).find? other = m.find? other := by
  simp [find?, insert, find?_insertEntry_of_ne h]

theorem mem_of_find? {m : NameMap α} {name : String} {a : α} (h : m.find? name = some a) :
    a ∈ m.entries.map (·.2) := by
  obtain ⟨e, he, rfl⟩ := Option.map_eq_some_iff.mp h
  exact List.mem_map_of_mem (List.mem_of_find?_eq_some he)

end NameMap

end ScopedText
