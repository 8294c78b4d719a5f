import PathStore.Command.Run
import PathStore.Proofs.Atomicity
import PathStore.Proofs.Contents

/-!
# What commands do with an open tree

A command that has opened a tree makes no more than one call to change it, a write or
a group of changes, and flushes the database behind a call that was accepted.  Operands
that do not decode and a rehearsal come to no such call.  The answers of the engine to
the two calls decide how the command ends; a flush that is refused leaves the changes
in their place.
-/

namespace PathStore

/-- The group in which an application hands over its writes. -/
def ChangeGroup.ofApplication (writes : List Write) : ChangeGroup :=
  .ofWrites (Overlay.batchOf .latestFirst writes).writes

/-- Settled as a group, writes do what they do one by one. -/
theorem ChangeGroup.settle_ofApplication (writes : List Write) (reads : Key → Option Value) :
    (ofApplication writes).settle reads = Write.replay id reads writes := by
  funext key
  rw [settle, ofApplication, get?_ofWrites, ← Overlay.replay_batchOf .latestFirst,
    Write.replay_eq_latest?]
  cases Write.latest? (Overlay.batchOf .latestFirst writes).writes key <;> rfl

variable {δ : Type} {engine : Engine δ}

namespace OpenTree

variable {tree : OpenTree engine} {request : EngineCall δ Unit} {after : δ} {reason : String}

theorem call_of_ok (accepted : request.run tree.disk = (.ok (), after)) :
    tree.call request = .done { tree with disk := after } := by
  rw [call, accepted]

theorem call_of_error (refused : request.run tree.disk = (.error reason, after)) :
    tree.call request = .refused (.engine reason) { tree with disk := after } := by
  rw [call, refused]

end OpenTree

namespace Command

variable (tree : OpenTree engine) {after written : δ} {reason : String}

/-! ## Single writes -/

section

variable {change : Write}

/-- Behind a write that is refused nothing is flushed. -/
theorem writeAndClose_of_refused
    (refused : (engine.write tree.handle change).run tree.disk = (.error reason, after)) :
    writeAndClose tree change = (.error (StoreError.engine reason).failure, after) := by
  have called : Backend.write tree change = _ := OpenTree.call_of_error refused
  rw [writeAndClose, called]
  rfl

/-- Behind a write that is accepted there is only the flush. -/
theorem disk_writeAndClose_of_accepted
    (accepted : (engine.write tree.handle change).run tree.disk = (.ok (), written)) :
    (writeAndClose tree change).2 = ((engine.flush tree.handle.home).run written).2 := by
  have called : Backend.write tree change = _ := OpenTree.call_of_ok accepted
  rw [writeAndClose, called]
  dsimp only [Outcome.done, Backend.close]
  rcases flushed : (engine.flush tree.handle.home).run written with ⟨reason | _, after⟩
  · rw [OpenTree.call_of_error flushed]
    rfl
  · rw [OpenTree.call_of_ok flushed]
    rfl

end

/-! ## Applications -/

section

variable {operations : List Operation} (dryRun metrics : Bool)

/-- Operations that do not decode come to no call. -/
theorem applyAndClose_of_decode_error {error : OperandError}
    (refused : Operation.decodeAll operations = .error error) :
    applyAndClose tree operations dryRun metrics = (.error error.failure, tree.disk) := by
  rw [applyAndClose, Overlay.apply_of_decode_error .latestFirst operations dryRun .zero refused]
  rfl

variable {writes : List Write} (decoded : Operation.decodeAll operations = .ok writes)

include decoded

/-- Of a rehearsal only the flush is left. -/
theorem disk_applyAndClose_rehearsal :
    (applyAndClose tree operations true metrics).2 =
      ((engine.flush tree.handle.home).run tree.disk).2 := by
  rw [applyAndClose, Overlay.apply_rehearsal .latestFirst operations .zero decoded]
  dsimp only [Overlay.idle, Overlay.toStack, Stack.close, Backend.close]
  rcases flushed : (engine.flush tree.handle.home).run tree.disk with ⟨reason | _, after⟩
  · rw [OpenTree.call_of_error flushed]
    rfl
  · rw [OpenTree.call_of_ok flushed]
    rfl

/-- Behind a batch that is accepted there is only the flush, and its answer decides. -/
theorem applyAndClose_of_accepted
    (accepted : (engine.writeGroup tree.handle (.ofApplication writes)).run tree.disk =
      (.ok (), written)) :
    (applyAndClose tree operations false metrics).2 =
        ((engine.flush tree.handle.home).run written).2 ∧
      ∀ failure, (applyAndClose tree operations false metrics).1 = .error failure →
        ∃ reason, ((engine.flush tree.handle.home).run written).1 = .error reason := by
  have called : Backend.writeBatch tree (Overlay.batchOf .latestFirst writes) = _ :=
    OpenTree.call_of_ok accepted
  rw [applyAndClose, Overlay.apply_flush .latestFirst operations .zero decoded, Stack.writeBatch,
    ← Overlay.batchOf, called]
  dsimp only [Outcome.map, Outcome.done, Overlay.idle, Overlay.toStack, Stack.close,
    Backend.close]
  rcases flushed : (engine.flush tree.handle.home).run written with ⟨reason | _, after⟩
  · rw [OpenTree.call_of_error flushed]
    exact ⟨rfl, fun _ _ => ⟨_, rfl⟩⟩
  · rw [OpenTree.call_of_ok flushed]
    exact ⟨rfl, fun _ fails => by cases fails⟩

end

end Command

end PathStore
