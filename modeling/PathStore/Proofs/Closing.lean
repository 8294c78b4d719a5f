import PathStore.Proofs.PartialCommit
import PathStore.Proofs.Recorder

/-!
# Closing a store of a stack

A close goes down through every overlay to the backend.  It flushes nothing: on
the way each overlay gives up its open transaction, and the backend receives the
close and no write.  So a closed store is its backend, closed, under idle
overlays, whatever the backend answers; the overlays above are not asked.
-/

namespace PathStore

universe u v

namespace Stack

variable {σ : Type u}

/-- Nothing is staged at idle overlays. -/
theorem stagedAt_idle (store : σ) (depth layer : Nat) :
    (idle store depth).stagedAt layer = none := by
  induction depth with
  | zero => exact stagedAt_base store layer
  | succ depth ih =>
      rw [idle, stagedAt_overlay, ih]
      split <;> rfl

theorem landing_idle (store : σ) (depth : Nat) : (idle store depth).landing = 0 := by
  induction depth with
  | zero => rfl
  | succ depth ih => exact ih

theorem depth_mapBackend {τ : Type v} (change : σ → τ) (stack : Stack σ) :
    (stack.mapBackend change).depth = stack.depth := by
  induction stack with
  | base store => rfl
  | overlay staged below ih => exact congrArg (· + 1) ih

theorem backend_mapBackend {τ : Type v} (change : σ → τ) (stack : Stack σ) :
    (stack.mapBackend change).backend = change stack.backend := by
  induction stack with
  | base store => rfl
  | overlay staged below ih => exact ih

variable [Backend σ]

theorem read_idle (store : σ) (depth : Nat) (key : Key) :
    (idle store depth).read key = Backend.read store key := by
  induction depth with
  | zero => rfl
  | succ depth ih => exact ih

/-- Idle overlays read what their backend does. -/
theorem readAt_idle (store : σ) {depth layer : Nat} (within : layer ≤ depth) (key : Key) :
    (idle store depth).readAt layer key = some (Backend.read store key) := by
  have lands : (idle store depth).landing ≤ layer := by
    rw [landing_idle]
    exact Nat.zero_le layer
  rw [readAt_of_landing_le lands (by rwa [depth_idle]), read_idle]

/-- A closed store is its backend, closed, under idle overlays. -/
theorem close_eq_idle (stack : Stack σ) :
    stack.close = (Backend.close stack.backend).map fun store => idle store stack.depth := by
  induction stack with
  | base store => rfl
  | overlay staged below ih =>
      rw [close, ih]
      rfl

end Stack

namespace Session

variable {σ : Type u}

/-- The session with a recorder around its backend. -/
def recorded (session : Session σ) : Session (Recorder σ) :=
  ⟨session.stack.mapBackend .fresh, session.counters⟩

/-- The session without the recorder. -/
def unrecorded (session : Session (Recorder σ)) : Session σ :=
  ⟨session.stack.mapBackend Recorder.store, session.counters⟩

variable [Backend σ]

/-- A close at a layer closes the store there and leaves the overlays above. -/
theorem step_close {session : Session σ} {store : Stack σ} {overlays : List (Option Staged)}
    (stack_eq : session.stack = store.beneath overlays) :
    session.step (.call store.depth .close) =
      some (.done (Backend.close store.backend).result,
        ⟨(Stack.idle (Backend.close store.backend).store store.depth).beneath overlays,
          session.counters⟩) := by
  rw [step_beneath stack_eq, Action.perform, Stack.close_eq_idle]
  rfl

end Session

/-- What a close at `layer` makes of a session.  The backend is closed, and from
`layer` down no transaction is open and every key reads as at the backend; the
overlays above keep their transactions, and nothing is counted. -/
structure ClosedDown {σ : Type u} [Backend σ] (layer : Nat) (before after : Session σ) :
    Prop where
  depth : after.stack.depth = before.stack.depth
  counters : after.counters = before.counters
  backend : after.stack.backend = (Backend.close before.stack.backend).store
  idle : ∀ lower, lower ≤ layer → after.stack.stagedAt lower = none
  readAt : ∀ lower, lower ≤ layer → ∀ key,
    after.stack.readAt lower key = some (Backend.read after.stack.backend key)
  stagedAt_above : ∀ upper, layer < upper →
    after.stack.stagedAt upper = before.stack.stagedAt upper

theorem closedDown_of_stack_eq {σ : Type u} [Backend σ] {before : Session σ} {store : Stack σ}
    {overlays : List (Option Staged)} (stack_eq : before.stack = store.beneath overlays) :
    ClosedDown store.depth before
      ⟨(Stack.idle (Backend.close store.backend).store store.depth).beneath overlays,
        before.counters⟩ where
  depth := by simp [stack_eq]
  counters := rfl
  backend := by simp [stack_eq]
  idle lower within := by
    rw [Stack.stagedAt_beneath (by rwa [Stack.depth_idle]), Stack.stagedAt_idle]
  readAt lower within key := by
    rw [Stack.readAt_beneath (by rwa [Stack.depth_idle]), Stack.readAt_idle _ within,
      Stack.backend_beneath, Stack.backend_idle]
  stagedAt_above upper above := by
    rw [stack_eq]
    exact Stack.stagedAt_beneath_congr (Stack.depth_idle _ _) overlays (by rwa [Stack.depth_idle])

/-- A close at a layer answers what the backend does and leaves every layer from
there down without a transaction, whether or not the backend could be closed; the
overlays above keep what they have staged.  Over a backend whose content outlives
its closing, that content is then what every key reads as.  A recorder around the
backend shows that it is closed once and not written to. -/
theorem close_cascades {σ : Type u} [Backend σ]
    (outlives : ∀ store : σ, ReadsAlike (Backend.close store).store store)
    {session : Session σ} {layer : Nat} (within : layer ≤ session.stack.depth) :
    ∃ after recorded,
      session.step (.call layer .close) =
        some (.done (Backend.close session.stack.backend).result, after) ∧
      ClosedDown layer session after ∧
      ReadsAlike after.stack.backend session.stack.backend ∧
      session.recorded.step (.call layer .close) =
        some (.done (Backend.close session.stack.backend).result, recorded) ∧
      recorded.unrecorded = after ∧ recorded.stack.backend.calls = [.close] := by
  rcases Stack.exists_of_le_depth within with ⟨store, overlays, rfl, stack_eq⟩
  have closed := Session.step_close stack_eq
  have recorded_eq : session.recorded.stack = (store.mapBackend .fresh).beneath overlays := by
    rw [Session.recorded, stack_eq, Stack.mapBackend_beneath]
  have noted := Session.step_close recorded_eq
  rw [Stack.depth_mapBackend, Stack.backend_mapBackend] at noted
  have backend_eq : session.stack.backend = store.backend := by
    rw [stack_eq, Stack.backend_beneath]
  have closedDown := closedDown_of_stack_eq stack_eq
  rw [backend_eq]
  refine ⟨_, _, closed, closedDown, ?alike, noted, ?same, ?calls⟩
  case alike =>
    intro key
    rw [closedDown.backend, backend_eq]
    exact outlives store.backend key
  case same =>
    rw [Session.unrecorded, Stack.mapBackend_beneath, Stack.mapBackend_idle]
    rfl
  case calls =>
    rw [Stack.backend_beneath, Stack.backend_idle]
    rfl

/-- A store in memory whose closing fails. -/
structure UnclosableStore where
  pairs : Pairs
deriving DecidableEq, Repr

instance : Backend UnclosableStore where
  read store key := .ok (store.pairs.get? key)
  write store change := .done ⟨store.pairs.write change⟩
  close store := .refused (.engine "device is gone") store

/-- Two transactions above each other are given up by a close between them and a
third one, although the close fails.  The third keeps its put. -/
theorem close_cascades_failing :
    let store : UnclosableStore := ⟨Table.empty.insert ⟨[1]⟩ [10]⟩
    let steps : List Step :=
      [.call 1 .start, .call 1 (.write (.delete ⟨[1]⟩)), .call 3 .start,
        .call 3 (.write (.put ⟨[1]⟩ [11])), .call 4 .start, .call 4 (.write (.put ⟨[1]⟩ [12]))]
    ∃ replies session,
      (Session.mk (.idle store 4) .zero).run steps = some (replies, session) ∧
      session.stack.readAt 3 ⟨[1]⟩ = some (.ok (some [11])) ∧ 3 ≤ session.stack.depth ∧
      (∀ store : UnclosableStore, ReadsAlike (Backend.close store).store store) ∧
      ∃ after recorded,
        session.step (.call 3 .close) = some (.done (.error (.engine "device is gone")), after) ∧
        ClosedDown 3 session after ∧
        ReadsAlike after.stack.backend session.stack.backend ∧
        session.recorded.step (.call 3 .close) =
          some (.done (.error (.engine "device is gone")), recorded) ∧
        recorded.unrecorded = after ∧ recorded.stack.backend.calls = [.close] := by
  intro store steps
  have outlives : ∀ store : UnclosableStore, ReadsAlike (Backend.close store).store store :=
    fun _ _ => rfl
  refine ⟨_, _, rfl, rfl, by decide, outlives, ?_⟩
  exact close_cascades outlives (by decide)

end PathStore
