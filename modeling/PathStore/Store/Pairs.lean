import PathStore.Store.Backend
import PathStore.Table

/-!
# Pairs held in memory

The content of a store is a table of pairs.  The memory store keeps nothing
but its pairs: it refuses no call and writes a batch in one step.
-/

namespace PathStore

/-- The pairs of a store. -/
abbrev Pairs := Table Key Value

namespace Pairs

/-- Gives a key its outcome. -/
def set (pairs : Pairs) (key : Key) : Option Value → Pairs
  | some value => pairs.insert key value
  | none => pairs.erase key

/-- The pairs after a write. -/
def write (pairs : Pairs) (write : Write) : Pairs :=
  pairs.set write.key write.outcome

/-- The pairs after a list of writes, in order. -/
def writeAll (pairs : Pairs) (writes : List Write) : Pairs :=
  writes.foldl write pairs

theorem get?_set (pairs : Pairs) (key other : Key) (outcome : Option Value) :
    (pairs.set key outcome).get? other =
      if key = other then outcome else pairs.get? other := by
  cases outcome with
  | none => exact Table.get?_erase pairs key other
  | some value => exact Table.get?_insert pairs key other value

theorem get?_write (pairs : Pairs) (change : Write) (other : Key) :
    (pairs.write change).get? other =
      if change.key = other then change.outcome else pairs.get? other :=
  get?_set pairs change.key other change.outcome

end Pairs

/-- A store that keeps its pairs in memory. -/
structure MemoryStore where
  pairs : Pairs
deriving DecidableEq, Repr

namespace MemoryStore

/-- The store without pairs. -/
def empty : MemoryStore := ⟨Table.empty⟩

instance : Backend MemoryStore where
  read store key := .ok (store.pairs.get? key)
  write store write := .done ⟨store.pairs.write write⟩
  close store := .done store
  writeBatch store batch := .done ⟨store.pairs.writeAll batch.writes⟩

end MemoryStore

end PathStore
