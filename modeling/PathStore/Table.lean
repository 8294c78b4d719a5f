/-!
# Finite maps and finite sets

A table holds at most one value for each of finitely many keys, as a list of
entries with distinct keys.  Lookup is the view through which tables are read:
the lemmas below say what insertion and removal do to it.  A key set is the
same for keys alone.
-/

namespace PathStore

universe u v

/-- Finitely many entries with distinct keys, the latest insertion first. -/
structure Table (α : Type u) (β : Type v) where
  entries : List (α × β)
  nodup : (entries.map Prod.fst).Nodup
deriving DecidableEq, Repr

namespace Table

variable {α : Type u} {β : Type v}

/-- The table without entries. -/
def empty : Table α β := ⟨[], List.nodup_nil⟩

instance : Inhabited (Table α β) := ⟨empty⟩

/-- The keys that have a value. -/
def keys (table : Table α β) : List α := table.entries.map Prod.fst

/-- The number of keys that have a value. -/
def size (table : Table α β) : Nat := table.entries.length

variable [DecidableEq α]

/-- The entry of a key in a list of entries. -/
def find? : List (α × β) → α → Option β
  | [], _ => none
  | (k, v) :: rest, key => if k = key then some v else find? rest key

/-- The entries of a list under other keys. -/
def others (entries : List (α × β)) (key : α) : List (α × β) :=
  entries.filter fun entry => entry.1 ≠ key

theorem nodup_others {entries : List (α × β)} (nodup : (entries.map Prod.fst).Nodup)
    (key : α) : ((others entries key).map Prod.fst).Nodup :=
  (List.filter_sublist.map Prod.fst).nodup nodup

theorem not_mem_others (entries : List (α × β)) (key : α) :
    key ∉ (others entries key).map Prod.fst := by
  simp [others]

/-- The value of a key. -/
def get? (table : Table α β) (key : α) : Option β :=
  find? table.entries key

/-- Gives a key a value, whether or not it had one. -/
def insert (table : Table α β) (key : α) (value : β) : Table α β where
  entries := (key, value) :: others table.entries key
  nodup := List.nodup_cons.2
    ⟨not_mem_others table.entries key, nodup_others table.nodup key⟩

/-- Takes the value of a key away. -/
def erase (table : Table α β) (key : α) : Table α β where
  entries := others table.entries key
  nodup := nodup_others table.nodup key

theorem find?_others (entries : List (α × β)) (key other : α) :
    find? (others entries key) other = if key = other then none else find? entries other := by
  induction entries with
  | nil => simp [others, find?]
  | cons entry rest ih =>
    obtain ⟨k, v⟩ := entry
    unfold others at ih ⊢
    by_cases same : k = key
    · subst same
      by_cases equal : k = other <;> simp_all [find?]
    · by_cases equal : k = other
      · subst equal
        simp [find?, same, Ne.symm same]
      · simp_all [find?]

@[simp]
theorem get?_empty (key : α) : (empty : Table α β).get? key = none := rfl

theorem get?_insert (table : Table α β) (key other : α) (value : β) :
    (table.insert key value).get? other =
      if key = other then some value else table.get? other := by
  by_cases equal : key = other
  · simp [get?, insert, find?, equal]
  · simp [get?, insert, find?, find?_others, equal]

theorem get?_erase (table : Table α β) (key other : α) :
    (table.erase key).get? other = if key = other then none else table.get? other :=
  find?_others table.entries key other

end Table

/-- Finitely many distinct keys, the latest insertion first. -/
structure KeySet (α : Type u) where
  members : List α
  nodup : members.Nodup
deriving DecidableEq, Repr

namespace KeySet

variable {α : Type u}

/-- The set without members. -/
def empty : KeySet α := ⟨[], List.nodup_nil⟩

instance : Inhabited (KeySet α) := ⟨empty⟩

/-- The number of members. -/
def size (set : KeySet α) : Nat := set.members.length

instance : Membership α (KeySet α) := ⟨fun set key => key ∈ set.members⟩

theorem mem_def (set : KeySet α) (key : α) : key ∈ set ↔ key ∈ set.members := Iff.rfl

@[simp]
theorem not_mem_empty (key : α) : key ∉ (empty : KeySet α) := by
  simp [mem_def, empty]

variable [DecidableEq α]

instance (set : KeySet α) (key : α) : Decidable (key ∈ set) :=
  inferInstanceAs (Decidable (key ∈ set.members))

/-- Removes a member, if it is one. -/
def erase (set : KeySet α) (key : α) : KeySet α where
  members := set.members.filter (· ≠ key)
  nodup := List.filter_sublist.nodup set.nodup

/-- Adds a member, if it is none yet. -/
def insert (set : KeySet α) (key : α) : KeySet α where
  members := key :: (set.erase key).members
  nodup := List.nodup_cons.2 ⟨by simp [erase], (set.erase key).nodup⟩

theorem mem_erase (set : KeySet α) (key other : α) :
    other ∈ set.erase key ↔ other ∈ set ∧ other ≠ key := by
  simp [mem_def, erase]

theorem mem_insert (set : KeySet α) (key other : α) :
    other ∈ set.insert key ↔ other = key ∨ other ∈ set := by
  by_cases equal : other = key <;> simp [mem_def, insert, erase, equal]

end KeySet

end PathStore
