import PathStore.Overlay.Staged

/-!
# Overlays over a backend

An overlay is idle or has a transaction open.  An idle overlay hands every
call to the store below it; an overlay with an open transaction stages writes
and batches and answers reads from them first.  Overlays stack to any height,
and every store in a stack can be driven directly: `onLayer` addresses the one
that has a given number of overlays of its own.
-/

namespace PathStore

universe u

/-- A backend under any number of overlays. -/
inductive Stack (σ : Type u) where
  | base (store : σ)
  | overlay (staged : Option Staged) (below : Stack σ)

namespace Stack

variable {σ : Type u}

/-- The number of overlays. -/
def depth : Stack σ → Nat
  | base _ => 0
  | overlay _ below => below.depth + 1

/-- The backend at the bottom. -/
def backend : Stack σ → σ
  | base store => store
  | overlay _ below => below.backend

/-- The staged changes of each overlay, the topmost first. -/
def transactions : Stack σ → List (Option Staged)
  | base _ => []
  | overlay staged below => staged :: below.transactions

/-- A backend under idle overlays. -/
def idle (store : σ) : Nat → Stack σ
  | 0 => base store
  | depth + 1 => overlay none (idle store depth)

/-- The store of a stack that has `layer` overlays of its own. -/
def layer? (layer : Nat) : Stack σ → Option (Stack σ)
  | base store => if layer = 0 then some (base store) else none
  | overlay staged below =>
    if layer = below.depth + 1 then some (overlay staged below)
    else below.layer? layer

variable [Backend σ]

/-- What a key reads as.  Staged changes hide what is below them. -/
def read : Stack σ → Key → Except StoreError (Option Value)
  | base store, key => Backend.read store key
  | overlay none below, key => below.read key
  | overlay (some staged) below, key =>
    match staged.outcome? key with
    | some outcome => .ok outcome
    | none => below.read key

/-- Writes one key, or stages the write. -/
def write : Stack σ → Write → Outcome (Stack σ)
  | base store, change => (Backend.write store change).map base
  | overlay none below, change => (below.write change).map (overlay none)
  | overlay (some staged) below, change =>
    .done (overlay (some (staged.record change)) below)

/-- Writes a batch as one batch, or stages its writes. -/
def writeBatch : Stack σ → Batch → Outcome (Stack σ)
  | base store, batch => (Backend.writeBatch store batch).map base
  | overlay none below, batch => (below.writeBatch batch).map (overlay none)
  | overlay (some staged) below, batch =>
    .done (overlay (some (staged.recordAll batch.writes)) below)

/-- Closes the backend.  Open transactions on the way down are given up. -/
def close : Stack σ → Outcome (Stack σ)
  | base store => (Backend.close store).map base
  | overlay _ below => below.close.map (overlay none)

instance : Backend (Stack σ) where
  read := read
  write := write
  close := close
  writeBatch := writeBatch

end Stack

/-- The topmost overlay of a stack and the store below it. -/
structure Overlay (σ : Type u) where
  staged : Option Staged
  below : Stack σ

namespace Overlay

variable {σ : Type u}

/-- An idle overlay over a store. -/
def idle (below : Stack σ) : Overlay σ := ⟨none, below⟩

/-- The overlay as a stack. -/
def toStack (overlay : Overlay σ) : Stack σ :=
  .overlay overlay.staged overlay.below

/-- A transaction is open. -/
def isTracking (overlay : Overlay σ) : Bool := overlay.staged.isSome

/-- The number of staged puts. -/
def pendingPuts (overlay : Overlay σ) : Nat :=
  overlay.staged.elim 0 fun staged => staged.puts.size

/-- The number of staged deletes. -/
def pendingDeletes (overlay : Overlay σ) : Nat :=
  overlay.staged.elim 0 fun staged => staged.deletes.size

/-- Opens a transaction, unless one is open. -/
def start (overlay : Overlay σ) : Outcome (Overlay σ) :=
  match overlay.staged with
  | some _ => .refused .alreadyTracking overlay
  | none => .done { overlay with staged := some .empty }

/-- Gives up the open transaction. -/
def rollback (overlay : Overlay σ) : Outcome (Overlay σ) :=
  match overlay.staged with
  | none => .refused .notTracking overlay
  | some _ => .done { overlay with staged := none }

/-- Stages writes in the open transaction, if there is one. -/
def stage (overlay : Overlay σ) (writes : List Write) : Overlay σ :=
  { overlay with staged := overlay.staged.map fun staged => staged.recordAll writes }

/-- Ends the open transaction by handing its changes to the store below as one
batch.  The overlay is idle afterwards, whatever the store below answers. -/
def commit [Backend σ] (order : FlushOrder) (overlay : Overlay σ) : Outcome (Overlay σ) :=
  match overlay.staged with
  | none => .refused .notTracking overlay
  | some staged => (overlay.below.writeBatch (staged.batch order)).map idle

end Overlay

namespace Stack

variable {σ : Type u}

/-- The topmost overlay, if there is one. -/
def top? : Stack σ → Option (Overlay σ)
  | base _ => none
  | overlay staged below => some ⟨staged, below⟩

/-- Replaces the store that has `layer` overlays of its own by what `act`
makes of it.  The overlays above it stay as they are. -/
def onLayer {α : Type} (layer : Nat) (act : Stack σ → Option (α × Stack σ)) :
    Stack σ → Option (α × Stack σ)
  | base store => if layer = 0 then act (base store) else none
  | overlay staged below =>
    if layer = below.depth + 1 then act (overlay staged below)
    else (below.onLayer layer act).map fun answer => (answer.1, overlay staged answer.2)

end Stack

end PathStore
