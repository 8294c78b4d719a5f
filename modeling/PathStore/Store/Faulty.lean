import PathStore.Store.Pairs

/-!
# Stores that refuse calls

Two memory stores with faults, to see what a failure leaves behind.  A
selective store refuses single writes to given keys, has no batch write of its
own and records each call that it accepts.  A batch-refusing store accepts
single writes and refuses every batch, the empty one included.
-/

namespace PathStore

/-- A call that a store accepted. -/
inductive Call where
  | write (write : Write)
  | close
deriving DecidableEq, Repr

/-- A store that refuses to put or to delete certain keys. -/
structure SelectiveStore where
  pairs : Pairs
  /-- Keys that may not be put. -/
  unputtable : List Key
  /-- Keys that may not be deleted. -/
  undeletable : List Key
  /-- The reason given for each refusal. -/
  reason : String
  /-- The accepted calls, in order. -/
  accepted : List Call
deriving DecidableEq, Repr

namespace SelectiveStore

/-- The store accepts a write. -/
def admits (store : SelectiveStore) : Write → Bool
  | .put key _ => key ∉ store.unputtable
  | .delete key => key ∉ store.undeletable

/-- Performs a write that is accepted, and leaves everything as it was
otherwise. -/
def perform (store : SelectiveStore) (write : Write) : Outcome SelectiveStore :=
  if store.admits write then
    .done { store with
      pairs := store.pairs.write write
      accepted := store.accepted ++ [.write write] }
  else .refused (.engine store.reason) store

instance : Backend SelectiveStore where
  read store key := .ok (store.pairs.get? key)
  write := perform
  close store := .done { store with accepted := store.accepted ++ [.close] }

end SelectiveStore

/-- A store that refuses every batch. -/
structure BatchRefusingStore where
  pairs : Pairs
  /-- The reason given for each refusal. -/
  reason : String
deriving DecidableEq, Repr

namespace BatchRefusingStore

instance : Backend BatchRefusingStore where
  read store key := .ok (store.pairs.get? key)
  write store write := .done { store with pairs := store.pairs.write write }
  close store := .done store
  writeBatch store _ := .refused (.engine store.reason) store

end BatchRefusingStore

end PathStore
