import PathStore.Key

/-!
# Writes and batches

A write gives one key its outcome: a value, or absence.  A batch collects puts
and deletes and stands for its puts in order followed by its deletes in order,
whatever order they were added in.
-/

namespace PathStore

/-- A stored value. -/
abbrev Value := Bytes

/-- A change of one key. -/
inductive Write where
  | put (key : Key) (value : Value)
  | delete (key : Key)
deriving DecidableEq, Repr

namespace Write

/-- The key that a write changes. -/
def key : Write → Key
  | put key _ => key
  | delete key => key

/-- What the key of a write reads as afterwards. -/
def outcome : Write → Option Value
  | put _ value => some value
  | delete _ => none

end Write

/-- Puts and deletes that are handed over together. -/
structure Batch where
  puts : List (Key × Value)
  deletes : List Key
deriving DecidableEq, Repr

namespace Batch

/-- The batch without changes. -/
def empty : Batch := ⟨[], []⟩

instance : Inhabited Batch := ⟨empty⟩

/-- Adds a write behind the ones of its kind. -/
def add (batch : Batch) : Write → Batch
  | .put key value => { batch with puts := batch.puts ++ [(key, value)] }
  | .delete key => { batch with deletes := batch.deletes ++ [key] }

/-- The batch that collects a list of writes. -/
def ofWrites (writes : List Write) : Batch :=
  writes.foldl add empty

/-- The number of changes. -/
def size (batch : Batch) : Nat :=
  batch.puts.length + batch.deletes.length

/-- The batch changes nothing. -/
def isEmpty (batch : Batch) : Bool :=
  batch.puts.isEmpty && batch.deletes.isEmpty

/-- The writes that a batch stands for, in order. -/
def writes (batch : Batch) : List Write :=
  batch.puts.map (fun entry => .put entry.1 entry.2) ++ batch.deletes.map .delete

end Batch

end PathStore
