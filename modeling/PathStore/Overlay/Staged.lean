import PathStore.Store.Pairs

/-!
# Staged changes

An open transaction keeps what it will change in two collections: the values
to put and the keys to delete.  Recording a write takes its key out of the
other collection, so that the last write of a key is the one that counts.
-/

namespace PathStore

/-- The changes of an open transaction. -/
structure Staged where
  puts : Table Key Value
  deletes : KeySet Key
deriving DecidableEq, Repr

/-- The order in which a flush walks the staged puts and the staged deletes.
It may be any order, and it may differ from flush to flush. -/
structure FlushOrder where
  puts : List (Key × Value) → List (Key × Value)
  deletes : List Key → List Key
  puts_perm : ∀ entries, (puts entries).Perm entries
  deletes_perm : ∀ keys, (deletes keys).Perm keys

namespace FlushOrder

/-- The order that walks the latest changes first. -/
def latestFirst : FlushOrder where
  puts := id
  deletes := id
  puts_perm := List.Perm.refl
  deletes_perm := List.Perm.refl

instance : Inhabited FlushOrder := ⟨latestFirst⟩

end FlushOrder

namespace Staged

/-- No changes. -/
def empty : Staged := ⟨Table.empty, KeySet.empty⟩

instance : Inhabited Staged := ⟨empty⟩

/-- The changes with one more write, which overrules earlier ones of its
key. -/
def record (staged : Staged) : Write → Staged
  | .put key value => ⟨staged.puts.insert key value, staged.deletes.erase key⟩
  | .delete key => ⟨staged.puts.erase key, staged.deletes.insert key⟩

/-- The changes with a list of further writes, in order. -/
def recordAll (staged : Staged) (writes : List Write) : Staged :=
  writes.foldl record staged

/-- What the changes make of a key: nothing, or the value or absence that it
will have. -/
def outcome? (staged : Staged) (key : Key) : Option (Option Value) :=
  if key ∈ staged.deletes then some none
  else (staged.puts.get? key).map some

@[simp]
theorem outcome?_empty (key : Key) : empty.outcome? key = none := rfl

/-- A write settles the outcome of its own key and of no other. -/
theorem outcome?_record (staged : Staged) (change : Write) (key : Key) :
    (staged.record change).outcome? key =
      if change.key = key then some change.outcome else staged.outcome? key := by
  cases change with
  | put written value =>
    by_cases same : written = key
    · subst same
      simp [outcome?, record, Write.key, Write.outcome, KeySet.mem_erase, Table.get?_insert]
    · simp [outcome?, record, Write.key, KeySet.mem_erase, Table.get?_insert, same,
        Ne.symm same]
  | delete written =>
    by_cases same : written = key
    · subst same
      simp [outcome?, record, Write.key, Write.outcome, KeySet.mem_insert]
    · simp [outcome?, record, Write.key, KeySet.mem_insert, Table.get?_erase, same,
        Ne.symm same]

/-- The batch that a flush hands over. -/
def batch (order : FlushOrder) (staged : Staged) : Batch :=
  ⟨order.puts staged.puts.entries, order.deletes staged.deletes.members⟩

end Staged

end PathStore
