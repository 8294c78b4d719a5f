import PathStore.Proofs.Applying
import PathStore.Proofs.Layers

/-!
# Stores that record their calls

A recorder passes every call on to the store inside and keeps a list of the
mutating ones, whether they succeed or not.  Put in the place of the lower
layers of a stack it shows which calls reach them.  Nothing above can tell that
it is there: a session over a recorder runs as the session over what the
recorder holds.
-/

namespace PathStore

universe u

/-- A mutating call, as a store receives it. -/
inductive StoreCall where
  | write (change : Write)
  | batch (batch : Batch)
  | close
deriving DecidableEq, Repr

/-- A store and the mutating calls that it has received, in order. -/
structure Recorder (σ : Type u) where
  store : σ
  calls : List StoreCall

namespace Recorder

variable {σ : Type u}

/-- A recorder that has received nothing yet. -/
def fresh (store : σ) : Recorder σ := ⟨store, []⟩

/-- Notes a call beside what the store inside makes of it. -/
def note (recorder : Recorder σ) (call : StoreCall) (outcome : Outcome σ) :
    Outcome (Recorder σ) :=
  outcome.map fun store => ⟨store, recorder.calls ++ [call]⟩

instance [Backend σ] : Backend (Recorder σ) where
  read recorder key := Backend.read recorder.store key
  write recorder change :=
    recorder.note (.write change) (Backend.write recorder.store change)
  close recorder := recorder.note .close (Backend.close recorder.store)
  writeBatch recorder batch :=
    recorder.note (.batch batch) (Backend.writeBatch recorder.store batch)

end Recorder

namespace Stack

variable {σ : Type u}

/-- Puts a fresh recorder in the place of the store below a layer. -/
def tap (layer : Nat) : Stack σ → Stack (Recorder (Stack σ))
  | base store => base (.fresh (base store))
  | overlay staged below =>
    if layer = below.depth + 1 then overlay staged (base (.fresh below))
    else overlay staged (below.tap layer)

/-- Takes the recorder out and leaves the store it holds in its place. -/
def untap : Stack (Recorder (Stack σ)) → Stack σ
  | base recorder => recorder.store
  | overlay staged below => overlay staged below.untap

theorem untap_tap (layer : Nat) (stack : Stack σ) : (stack.tap layer).untap = stack := by
  induction stack with
  | base store => rfl
  | overlay staged below ih =>
      rw [tap]
      split
      · rfl
      · exact congrArg (overlay staged) ih

/-- The tapped overlay has a fresh recorder below it. -/
theorem tap_beneath_overlay (staged : Option Staged) (below : Stack σ)
    (overlays : List (Option Staged)) :
    ((overlay staged below).beneath overlays).tap (below.depth + 1) =
      (overlay staged (base (Recorder.fresh below))).beneath overlays := by
  induction overlays with
  | nil => exact if_pos rfl
  | cons top rest ih =>
      have notTop : below.depth + 1 ≠ ((overlay staged below).beneath rest).depth + 1 :=
        Nat.ne_of_lt (Nat.lt_succ_of_le (depth_le_depth_beneath (overlay staged below) rest))
      rw [beneath_cons, beneath_cons, tap, if_neg notTop, ih]

theorem depth_untap (stack : Stack (Recorder (Stack σ))) :
    stack.untap.depth = stack.depth + stack.backend.store.depth := by
  induction stack with
  | base recorder => exact (Nat.zero_add _).symm
  | overlay staged below ih =>
      rw [untap, depth_overlay, depth_overlay, ih, backend, Nat.add_right_comm]

/-! ## The same calls, recorded -/

variable [Backend σ] (stack : Stack (Recorder (Stack σ)))

theorem read_untap (key : Key) : stack.untap.read key = stack.read key := by
  induction stack with
  | base recorder => rfl
  | overlay staged below ih =>
      cases staged with
      | none => exact ih
      | some staged => rw [untap, read, read, ih]

theorem write_untap (change : Write) :
    stack.untap.write change = (stack.write change).map untap := by
  induction stack with
  | base recorder => rfl
  | overlay staged below ih =>
      cases staged with
      | none => exact congrArg (Outcome.map (overlay none)) ih
      | some staged => rfl

theorem writeBatch_untap (batch : Batch) :
    stack.untap.writeBatch batch = (stack.writeBatch batch).map untap := by
  induction stack with
  | base recorder => rfl
  | overlay staged below ih =>
      cases staged with
      | none => exact congrArg (Outcome.map (overlay none)) ih
      | some staged => rfl

theorem close_untap : stack.untap.close = stack.close.map untap := by
  induction stack with
  | base recorder => rfl
  | overlay staged below ih => exact congrArg (Outcome.map (overlay none)) ih

end Stack

/-- An application without the recorder. -/
def Applied.untap {σ : Type u} (applied : Applied (Recorder (Stack σ))) : Applied σ :=
  ⟨applied.result, ⟨applied.overlay.staged, applied.overlay.below.untap⟩, applied.counters⟩

theorem Overlay.apply_untap {σ : Type u} [Backend σ] (order : FlushOrder)
    (operations : List Operation) (dryRun : Bool) (counters : Counters)
    (below : Stack (Recorder (Stack σ))) :
    (Overlay.idle below.untap).apply order operations dryRun counters =
      ((Overlay.idle below).apply order operations dryRun counters).untap := by
  cases decoded : Operation.decodeAll operations with
  | error error =>
      rw [apply_of_decode_error order operations dryRun counters decoded,
        apply_of_decode_error order operations dryRun counters decoded]
      rfl
  | ok writes =>
      cases dryRun with
      | true =>
          rw [apply_rehearsal order operations counters decoded,
            apply_rehearsal order operations counters decoded]
          rfl
      | false =>
          rw [apply_flush order operations counters decoded,
            apply_flush order operations counters decoded, Stack.writeBatch_untap]
          rcases below.writeBatch ((Staged.empty.recordAll writes).batch order) with
            ⟨result, flushed⟩
          cases result <;> rfl

namespace Action

variable {σ : Type u} [Backend σ]

/-- What a call answers and leaves, without the recorder. -/
def untapAnswer {α : Type} (answer : α × Stack (Recorder (Stack σ))) : α × Stack σ :=
  (answer.1, answer.2.untap)

/-- A call to an overlay is the same call with a recorder below. -/
theorem perform_untap (counters : Counters) (staged : Option Staged)
    (below : Stack (Recorder (Stack σ))) (action : Action) :
    action.perform counters (Stack.overlay staged below).untap =
      (action.perform counters (Stack.overlay staged below)).map untapAnswer := by
  cases action with
  | get key =>
      rw [perform, Stack.read_untap]
      rfl
  | write change =>
      rw [perform, Stack.write_untap]
      rfl
  | batch batch =>
      rw [perform, Stack.writeBatch_untap]
      rfl
  | close =>
      rw [perform, Stack.close_untap]
      rfl
  | start => cases staged <;> rfl
  | commit order =>
      cases staged with
      | none => rfl
      | some staged =>
          have flushed := Stack.writeBatch_untap below (staged.batch order)
          simp only [perform, Stack.untap, Stack.top?, Option.map_some, Overlay.commit, flushed]
          rfl
  | rollback => cases staged <;> rfl
  | getBelow key =>
      have reads := Stack.read_untap below key
      simp only [perform, Stack.untap, Stack.top?, Option.map_some, reads]
      rfl
  | apply order operations dryRun =>
      cases staged with
      | none =>
          have applied := Overlay.apply_untap order operations dryRun counters below
          exact congrArg (fun applied => some (Applied.answer applied)) applied
      | some staged => rfl

end Action

/-! ## The same session, recorded -/

namespace Stack

variable {σ : Type u} [Backend σ]

/-- A call to a layer above the recorder is the same call with the layers
counted from the recorder. -/
theorem onLayer_untap (stack : Stack (Recorder (Stack σ))) {lower layer : Nat}
    (holds : stack.backend.store.depth = lower) (positive : 0 < layer) (counters : Counters)
    (action : Action) :
    (stack.untap.onLayer (layer + lower) fun store => action.perform counters store) =
      (stack.onLayer layer fun store => action.perform counters store).map
        Action.untapAnswer := by
  induction stack with
  | base recorder =>
      have above : recorder.store.depth < layer + lower := by
        rw [← holds]
        exact Nat.lt_add_of_pos_left positive
      rw [onLayer, if_neg (Nat.ne_of_gt positive)]
      exact onLayer_eq_none_of_depth_lt _ above
  | overlay staged below ih =>
      have same_layer : layer + lower = below.untap.depth + 1 ↔ layer = below.depth + 1 := by
        rw [depth_untap, show below.backend.store.depth = lower from holds]
        omega
      rw [untap, onLayer, onLayer]
      by_cases atTop : layer = below.depth + 1
      · rw [if_pos (same_layer.mpr atTop), if_pos atTop]
        exact Action.perform_untap counters staged below action
      · rw [if_neg (mt same_layer.mp atTop), if_neg atTop, ih holds, Option.map_map,
          Option.map_map]
        rfl

end Stack

/-- The step with the layers counted from a layer up. -/
def Step.lower (bottom : Nat) : Step → Step
  | .call layer action => .call (layer - bottom) action
  | .wrap => .wrap
  | .unwrap => .unwrap

namespace Session

variable {σ : Type u}

/-- A session that records the calls to the store below a layer. -/
def tap (layer : Nat) (session : Session σ) : Session (Recorder (Stack σ)) :=
  ⟨session.stack.tap layer, session.counters⟩

/-- A session without its recorder. -/
def untap (session : Session (Recorder (Stack σ))) : Session σ :=
  ⟨session.stack.untap, session.counters⟩

theorem untap_tap (layer : Nat) (session : Session σ) : (session.tap layer).untap = session :=
  congrArg (Session.mk · session.counters) (Stack.untap_tap layer session.stack)

variable [Backend σ]

/-- A step above the recorder is the same step, recorded. -/
theorem step_untap (session : Session (Recorder (Stack σ))) {lower : Nat}
    (holds : session.stack.backend.store.depth = lower) (top : 0 < session.stack.depth)
    (step : Step) (above : ∀ layer action, step = .call layer action → lower < layer) :
    session.untap.step step =
      (session.step (step.lower lower)).map fun answer => (answer.1, answer.2.untap) := by
  rcases session with ⟨stack, counters⟩
  cases step with
  | call layer action =>
      have isAbove := above layer action rfl
      have called := Stack.onLayer_untap stack holds (Nat.sub_pos_of_lt isAbove) counters action
      rw [Nat.sub_add_cancel (Nat.le_of_lt isAbove)] at called
      simp only [Session.step, untap, Step.lower, called, Option.map_map]
      rfl
  | wrap => rfl
  | unwrap =>
      cases stack with
      | base recorder => exact absurd top (Nat.lt_irrefl 0)
      | overlay staged below => rfl

end Session

end PathStore
