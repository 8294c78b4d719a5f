import PathStore.Failure
import PathStore.Store.Write

/-!
# Backends

A backend is any state that can be read and written by key.  Each mutating
call answers with a result and the state it leaves behind, because a call that
fails may still have changed something.  A backend that has no way of its own
to write a batch runs the writes one by one and stops at the first refusal.
-/

namespace PathStore

universe u v

/-- Why a store refuses a call. -/
inductive StoreError where
  /-- A transaction is open already. -/
  | alreadyTracking
  /-- There is no transaction to end. -/
  | notTracking
  /-- The engine below the store gives a reason of its own. -/
  | engine (reason : String)
deriving DecidableEq, Repr

namespace StoreError

/-- The wording of a refusal. -/
def message : StoreError → String
  | alreadyTracking => "a transaction is already being tracked"
  | notTracking => "no transaction is being tracked"
  | engine reason => "sled error: " ++ reason

/-- The failure behind a refusal.  The reason of the engine is its cause. -/
def failure : StoreError → Failure
  | engine reason => .because (message (engine reason)) (.plain reason)
  | error => .plain error.message

end StoreError

/-- The answer of a mutating call and the state behind it. -/
structure Outcome (σ : Type u) where
  result : Except StoreError Unit
  store : σ

namespace Outcome

variable {σ : Type u} {τ : Type v}

/-- The call succeeded. -/
def done (store : σ) : Outcome σ := ⟨.ok (), store⟩

/-- The call was refused. -/
def refused (error : StoreError) (store : σ) : Outcome σ := ⟨.error error, store⟩

/-- The same answer over a larger state. -/
def map (wrap : σ → τ) (outcome : Outcome σ) : Outcome τ :=
  ⟨outcome.result, wrap outcome.store⟩

/-- Runs a call for each write, in order, up to and including the first that
is refused. -/
def each (call : σ → Write → Outcome σ) : List Write → σ → Outcome σ
  | [], store => done store
  | write :: rest, store =>
    match call store write with
    | ⟨.ok (), next⟩ => each call rest next
    | stopped => stopped

end Outcome

/-- The operations of a store. -/
class Backend (σ : Type u) where
  /-- The value of a key, or its absence. -/
  read : σ → Key → Except StoreError (Option Value)
  /-- Changes one key.  Deleting an absent key is no error. -/
  write : σ → Write → Outcome σ
  /-- Releases the store. -/
  close : σ → Outcome σ
  /-- Writes a batch, one write after the other unless the backend knows
  better. -/
  writeBatch : σ → Batch → Outcome σ :=
    fun store batch => Outcome.each write batch.writes store

/-- A store whose kind of backend is hidden. -/
structure AnyStore where
  {Kind : Type u}
  [backend : Backend Kind]
  store : Kind

namespace AnyStore

/-- A hidden backend answers every call itself, batches included. -/
instance : Backend AnyStore where
  read any key := any.backend.read any.store key
  write any write := (any.backend.write any.store write).map fun store =>
    @AnyStore.mk any.Kind any.backend store
  close any := (any.backend.close any.store).map fun store =>
    @AnyStore.mk any.Kind any.backend store
  writeBatch any batch := (any.backend.writeBatch any.store batch).map fun store =>
    @AnyStore.mk any.Kind any.backend store

end AnyStore

end PathStore
