import PathStore.Overlay.Session
import PathStore.Proofs.Applying

/-!
# Overlays that keep a journal

The reference for transactions.  An open overlay keeps one list of the writes
it was given, in the order in which they came; a read takes the last write of
its key, or asks the store below; a commit makes all writes of the list once
more, one after the other, on the store below.  A batch is nothing but its
writes in order.
-/

namespace PathStore

universe u

/-- A backend under any number of overlays.  The log of an overlay is there
exactly while its transaction is open. -/
inductive Journal (σ : Type u) where
  | base (store : σ)
  | overlay (log : Option (List Write)) (below : Journal σ)

namespace Journal

variable {σ : Type u}

/-- The number of overlays. -/
def depth : Journal σ → Nat
  | base _ => 0
  | overlay _ below => below.depth + 1

/-- A backend under idle overlays. -/
def idle (store : σ) : Nat → Journal σ
  | 0 => base store
  | depth + 1 => overlay none (idle store depth)

variable [Backend σ]

/-- What a key reads as: its last write in the log, or what is below. -/
def read : Journal σ → Key → Except StoreError (Option Value)
  | base store, key => Backend.read store key
  | overlay none below, key => below.read key
  | overlay (some log) below, key => (Write.latest? log key).elim (below.read key) .ok

/-- Writes one key, or puts the write at the end of the log. -/
def write : Journal σ → Write → Outcome (Journal σ)
  | base store, change => (Backend.write store change).map base
  | overlay none below, change => (below.write change).map (overlay none)
  | overlay (some log) below, change => .done (overlay (some (log ++ [change])) below)

/-- Makes a list of writes, one after the other. -/
def replay (journal : Journal σ) (writes : List Write) : Outcome (Journal σ) :=
  Outcome.each write writes journal

/-- Closes the backend.  The logs on the way down are given up. -/
def close : Journal σ → Outcome (Journal σ)
  | base store => (Backend.close store).map base
  | overlay _ below => below.close.map (overlay none)

/-- Opens a transaction with an empty log, unless one is open. -/
def start : Journal σ → Option (Outcome (Journal σ))
  | base _ => none
  | overlay none below => some (.done (overlay (some []) below))
  | overlay (some log) below => some (.refused .alreadyTracking (overlay (some log) below))

/-- Ends the open transaction by replaying its log on the store below. -/
def commit : Journal σ → Option (Outcome (Journal σ))
  | base _ => none
  | overlay none below => some (.refused .notTracking (overlay none below))
  | overlay (some log) below => some ((below.replay log).map (overlay none))

/-- Gives up the open transaction. -/
def rollback : Journal σ → Option (Outcome (Journal σ))
  | base _ => none
  | overlay none below => some (.refused .notTracking (overlay none below))
  | overlay (some _) below => some (.done (overlay none below))

/-- Reads below the topmost overlay. -/
def readBelow : Journal σ → Key → Option (Except StoreError (Option Value))
  | base _, _ => none
  | overlay _ below, key => some (below.read key)

/-- Applies operations in a transaction of their own: their writes are its log.
The summary counts keys by their last write in it. -/
def apply (operations : List Operation) (dryRun : Bool) (counters : Counters) :
    Journal σ → Option ((Reply × Counters) × Journal σ)
  | base _ => none
  | overlay (some log) below =>
    some ((.applied (.error (.transaction .alreadyTracking)), counters),
      overlay (some log) below)
  | overlay none below =>
    match Operation.decodeAll operations with
    | .error error =>
      some ((.applied (.error (.operand error)), counters.countRollback), overlay none below)
    | .ok writes =>
      let summary := Summary.ofWrites writes dryRun
      let counted := counters.countSummary summary
      if dryRun then
        some ((.applied (.ok summary), counted.countRollback), overlay none below)
      else
        match below.replay writes with
        | ⟨.ok (), flushed⟩ =>
          some ((.applied (.ok summary), counted.countCommit), overlay none flushed)
        | ⟨.error error, flushed⟩ =>
          some ((.applied (.error (.flush error)), counted), overlay none flushed)

/-- A mutating call as an answer, the counters and the store behind it. -/
def answer (counters : Counters) (outcome : Outcome (Journal σ)) :
    (Reply × Counters) × Journal σ :=
  ((.done outcome.result, counters), outcome.store)

/-- Performs a call.  The order in which a flush walks means nothing here. -/
def perform (counters : Counters) (journal : Journal σ) :
    Action → Option ((Reply × Counters) × Journal σ)
  | .get key => some ((.value (journal.read key), counters), journal)
  | .write change => some (answer counters (journal.write change))
  | .batch batch => some (answer counters (journal.replay batch.writes))
  | .close => some (answer counters journal.close)
  | .start => journal.start.map (answer counters)
  | .commit _ => journal.commit.map (answer counters)
  | .rollback => journal.rollback.map (answer counters)
  | .getBelow key =>
    (journal.readBelow key).map fun result => ((.value result, counters), journal)
  | .apply _ operations dryRun => journal.apply operations dryRun counters

/-- Replaces the store that has `layer` overlays of its own by what `act`
makes of it. -/
def onLayer {α : Type} (layer : Nat) (act : Journal σ → Option (α × Journal σ)) :
    Journal σ → Option (α × Journal σ)
  | base store => if layer = 0 then act (base store) else none
  | overlay log below =>
    if layer = below.depth + 1 then act (overlay log below)
    else (below.onLayer layer act).map fun answer => (answer.1, overlay log answer.2)

/-- What a key reads as at a layer. -/
def readAt : Journal σ → Nat → Key → Option (Except StoreError (Option Value))
  | base store, layer, key => if layer = 0 then some (Backend.read store key) else none
  | overlay log below, layer, key =>
    if layer = below.depth + 1 then some ((overlay log below).read key)
    else below.readAt layer key

end Journal

/-- A journal and the counters of its transactions. -/
structure JournalSession (σ : Type u) where
  journal : Journal σ
  counters : Counters

namespace JournalSession

variable {σ : Type u} [Backend σ]

/-- Performs a step, if it addresses a layer that can perform it. -/
def step (session : JournalSession σ) : Step → Option (Reply × JournalSession σ)
  | .call layer action =>
    (session.journal.onLayer layer fun journal =>
      journal.perform session.counters action).map
        fun answer => (answer.1.1, ⟨answer.2, answer.1.2⟩)
  | .wrap => some (.done (.ok ()), { session with journal := .overlay none session.journal })
  | .unwrap =>
    match session.journal with
    | .base _ => none
    | .overlay _ below => some (.done (.ok ()), { session with journal := below })

/-- Performs steps in order, with the answer of each. -/
def run (session : JournalSession σ) : List Step → Option (List Reply × JournalSession σ)
  | [] => some ([], session)
  | step :: rest => do
    let (reply, next) ← session.step step
    let (replies, last) ← next.run rest
    return (reply :: replies, last)

end JournalSession

/-! ## Replaying writes -/

namespace Outcome

variable {σ τ : Type u}

/-- Calls that go through to a store inside leave what is around it alone. -/
theorem each_map {call : σ → Write → Outcome σ} {outer : τ → Write → Outcome τ} {wrap : σ → τ}
    (through : ∀ store change, outer (wrap store) change = (call store change).map wrap)
    (writes : List Write) (store : σ) :
    each outer writes (wrap store) = (each call writes store).map wrap := by
  induction writes generalizing store with
  | nil => rfl
  | cons change rest ih =>
      rw [each, each, through]
      rcases call store change with ⟨result, next⟩
      cases result with
      | ok done => exact ih next
      | error error => rfl

end Outcome

namespace Journal

variable {σ : Type u} [Backend σ]

theorem replay_base (store : σ) (writes : List Write) :
    (base store).replay writes = (Outcome.each Backend.write writes store).map base :=
  Outcome.each_map (fun _ _ => rfl) writes store

theorem replay_idle (below : Journal σ) (writes : List Write) :
    (overlay none below).replay writes = (below.replay writes).map (overlay none) :=
  Outcome.each_map (fun _ _ => rfl) writes below

/-- An open transaction puts the writes at the end of its log. -/
theorem replay_tracking (log : List Write) (below : Journal σ) (writes : List Write) :
    (overlay (some log) below).replay writes =
      .done (overlay (some (log ++ writes)) below) := by
  induction writes generalizing log with
  | nil =>
      rw [List.append_nil]
      rfl
  | cons change rest ih =>
      have replayed := ih (log ++ [change])
      rw [List.append_assoc, List.singleton_append] at replayed
      exact replayed

end Journal

end PathStore
