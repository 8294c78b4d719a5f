import PathStore.Counters
import PathStore.Operation
import PathStore.Overlay.Stack

/-!
# Applying a batch file

The operations of a file go through one transaction of their own.  It is
committed if all of them decode, and rolled back if one does not or if only a
rehearsal was asked for.
-/

namespace PathStore

universe u

/-- What a transaction changed, or would have changed. -/
structure Summary where
  puts : Nat
  deletes : Nat
  committed : Bool
deriving DecidableEq, Repr

/-- Why a batch file was not applied. -/
inductive ApplyError where
  /-- The transaction could not be opened. -/
  | transaction (error : StoreError)
  /-- An operand does not decode. -/
  | operand (error : OperandError)
  /-- The store refused the changes. -/
  | flush (error : StoreError)
deriving DecidableEq, Repr

namespace ApplyError

/-- The failure behind a refusal. -/
def failure : ApplyError → Failure
  | transaction error => error.failure
  | operand error => error.failure
  | flush error => .because "commit failed" error.failure

end ApplyError

/-- The answer of an application, and the overlay and counters behind it. -/
structure Applied (σ : Type u) where
  result : Except ApplyError Summary
  overlay : Overlay σ
  counters : Counters

/-- Applies operations in a transaction of their own.  Their changes are
counted as staged once all of them have decoded, even if the store then
refuses them. -/
def Overlay.apply {σ : Type u} [Backend σ] (order : FlushOrder) (overlay : Overlay σ)
    (operations : List Operation) (dryRun : Bool) (counters : Counters) : Applied σ :=
  match overlay.start with
  | ⟨.error error, overlay⟩ => ⟨.error (.transaction error), overlay, counters⟩
  | ⟨.ok (), opened⟩ =>
    match Operation.decodeAll operations with
    | .error error =>
      ⟨.error (.operand error), opened.rollback.store, counters.countRollback⟩
    | .ok writes =>
      let staged := opened.stage writes
      let summary : Summary := ⟨staged.pendingPuts, staged.pendingDeletes, !dryRun⟩
      let counted := counters.countStaged summary.puts summary.deletes
      if dryRun then
        ⟨.ok summary, staged.rollback.store, counted.countRollback⟩
      else
        match staged.commit order with
        | ⟨.ok (), flushed⟩ => ⟨.ok summary, flushed, counted.countCommit⟩
        | ⟨.error error, flushed⟩ => ⟨.error (.flush error), flushed, counted⟩

end PathStore
