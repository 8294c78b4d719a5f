import PathStore.Overlay.Session
import PathStore.Proofs.Staging

/-!
# The ways an application ends

A batch file is applied to an idle overlay as the transaction of its decoded
writes.  One equation for each way it can end: a transaction is open already,
an operand does not decode, a rehearsal, and a flush with the answer of the
store below.  The summary is that of the writes, and of nothing else.
-/

namespace PathStore

universe u

/-- The summary of a transaction of writes: keys counted by their last write. -/
def Summary.ofWrites (writes : List Write) (dryRun : Bool) : Summary :=
  ⟨(Write.keysPut writes).length, (Write.keysDeleted writes).length, !dryRun⟩

/-- Counts what a summary says was staged. -/
def Counters.countSummary (counters : Counters) (summary : Summary) : Counters :=
  counters.countStaged summary.puts summary.deletes

namespace Overlay

variable {σ : Type u}

/-- What a transaction of writes reports as pending. -/
theorem pending_stage (below : Stack σ) (writes : List Write) (dryRun : Bool) :
    let staged := (⟨some .empty, below⟩ : Overlay σ).stage writes
    (⟨staged.pendingPuts, staged.pendingDeletes, !dryRun⟩ : Summary) =
      .ofWrites writes dryRun := by
  have follows := Staged.follows_empty.recordAll writes
  rw [List.nil_append] at follows
  rw [Summary.ofWrites, ← follows.size_puts, ← follows.size_deletes]
  rfl

variable [Backend σ] (order : FlushOrder) (operations : List Operation) (dryRun : Bool)
  (counters : Counters)

/-- An open transaction is not disturbed. -/
theorem apply_tracking (staged : Staged) (below : Stack σ) :
    (⟨some staged, below⟩ : Overlay σ).apply order operations dryRun counters =
      ⟨.error (.transaction .alreadyTracking), ⟨some staged, below⟩, counters⟩ :=
  rfl

/-- An operand that does not decode rolls everything back. -/
theorem apply_of_decode_error {error : OperandError}
    (refused : Operation.decodeAll operations = .error error) (below : Stack σ) :
    (Overlay.idle below).apply order operations dryRun counters =
      ⟨.error (.operand error), .idle below, counters.countRollback⟩ := by
  simp only [apply, idle, start, Outcome.done, refused]
  rfl

/-- A rehearsal leaves its summary and nothing else. -/
theorem apply_rehearsal {writes : List Write}
    (decoded : Operation.decodeAll operations = .ok writes) (below : Stack σ) :
    (Overlay.idle below).apply order operations true counters =
      ⟨.ok (.ofWrites writes true), .idle below,
        (counters.countSummary (.ofWrites writes true)).countRollback⟩ := by
  rw [← pending_stage below writes true]
  simp only [apply, idle, start, Outcome.done, decoded, if_true]
  rfl

/-- What is staged is flushed as one batch, and the answer of the store below
decides. -/
theorem apply_flush {writes : List Write}
    (decoded : Operation.decodeAll operations = .ok writes) (below : Stack σ) :
    (Overlay.idle below).apply order operations false counters =
      match below.writeBatch ((Staged.empty.recordAll writes).batch order) with
      | ⟨.ok (), flushed⟩ =>
        ⟨.ok (.ofWrites writes false), .idle flushed,
          (counters.countSummary (.ofWrites writes false)).countCommit⟩
      | ⟨.error error, flushed⟩ =>
        ⟨.error (.flush error), .idle flushed,
          counters.countSummary (.ofWrites writes false)⟩ := by
  rw [← pending_stage below writes false]
  simp only [apply, idle, start, Outcome.done, decoded, stage, Option.map_some, commit,
    Outcome.map]
  rcases below.writeBatch ((Staged.empty.recordAll writes).batch order) with ⟨result, flushed⟩
  cases result <;> rfl

end Overlay

/-- The application of a batch file as an answer, the counters and the stack
behind it. -/
def Applied.answer {σ : Type u} (applied : Applied σ) : (Reply × Counters) × Stack σ :=
  ((.applied applied.result, applied.counters), applied.overlay.toStack)

/-- A call to apply a batch file needs an overlay. -/
theorem Action.perform_apply {σ : Type u} [Backend σ] (order : FlushOrder)
    (operations : List Operation) (dryRun : Bool) (counters : Counters)
    (staged : Option Staged) (below : Stack σ) :
    (Action.apply order operations dryRun).perform counters (.overlay staged below) =
      some ((⟨staged, below⟩ : Overlay σ).apply order operations dryRun counters).answer :=
  rfl

end PathStore
