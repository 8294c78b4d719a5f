import PathStore.Overlay.Stack
import PathStore.Proofs.LastWrite
import PathStore.Store.Faulty

/-!
# What a backend may promise

Overlays work over any backend.  Three promises are told apart here, each
stronger than the one before: a batch is written entirely or not at all; no
write is ever refused; and closing, too, depends on the content alone.  Every
store that has them is shown to have them, and a stack of overlays has the
first two as soon as its backend does.
-/

namespace PathStore

universe u

/-- Two stores read alike for every key. -/
def ReadsAlike {σ : Type u} [Backend σ] (first second : σ) : Prop :=
  ∀ key, Backend.read first key = Backend.read second key

/-- A backend that writes a batch entirely or not at all.  It may refuse any
batch; if it does, it reads as before. -/
class AtomicBackend (σ : Type u) [Backend σ] : Prop where
  read_written : ∀ (store : σ) (batch : Batch),
    (Backend.writeBatch store batch).result = .ok () →
      ∀ key, Backend.read (Backend.writeBatch store batch).store key =
        (Write.latest? batch.writes key).elim (Backend.read store key) .ok
  read_refused : ∀ (store : σ) (batch : Batch) (error : StoreError),
    (Backend.writeBatch store batch).result = .error error →
      ReadsAlike (Backend.writeBatch store batch).store store

/-- A backend that refuses no write and no batch. -/
class ReliableBackend (σ : Type u) [Backend σ] : Prop extends AtomicBackend σ where
  write_result : ∀ (store : σ) (change : Write), (Backend.write store change).result = .ok ()
  read_write : ∀ (store : σ) (change : Write) (key : Key),
    Backend.read (Backend.write store change).store key =
      if change.key = key then .ok change.outcome else Backend.read store key
  writeBatch_result : ∀ (store : σ) (batch : Batch),
    (Backend.writeBatch store batch).result = .ok ()

/-- A backend that is nothing but a map: what closing it answers and leaves
depends on its content alone. -/
class MapBackend (σ : Type u) [Backend σ] : Prop extends ReliableBackend σ where
  close_result : ∀ {first second : σ}, ReadsAlike first second →
    (Backend.close first).result = (Backend.close second).result
  readsAlike_close : ∀ {first second : σ}, ReadsAlike first second →
    ReadsAlike (Backend.close first).store (Backend.close second).store

/-! ## Writes one by one -/

namespace Outcome

variable {σ : Type u}

/-- If no call is refused, then all of them are made. -/
theorem each_eq_done {call : σ → Write → Outcome σ}
    (accepts : ∀ store change, (call store change).result = .ok ())
    (writes : List Write) (store : σ) :
    each call writes store =
      done (writes.foldl (fun store change => (call store change).store) store) := by
  induction writes generalizing store with
  | nil => rfl
  | cons change rest ih =>
      have accepted := accepts store change
      rcases answer : call store change with ⟨result, next⟩
      rw [answer] at accepted
      cases accepted
      rw [each, answer, List.foldl_cons, answer]
      exact ih next

end Outcome

namespace ReliableBackend

variable {σ : Type u} [Backend σ]

/-- Single writes that are never refused leave the last write of each key. -/
theorem read_foldl_write
    (read_write : ∀ (store : σ) (change : Write) (key : Key),
      Backend.read (Backend.write store change).store key =
        if change.key = key then .ok change.outcome else Backend.read store key)
    (writes : List Write) (store : σ) (key : Key) :
    Backend.read (writes.foldl (fun store change => (Backend.write store change).store) store)
        key =
      (Write.latest? writes key).elim (Backend.read store key) .ok :=
  Write.foldl_eq_latest? key (fun store : σ => Backend.read store key) .ok
    (fun store change => (Backend.write store change).store)
    (fun store change => read_write store change key) writes store

/-- A backend that refuses no write and writes batches one write after the
other refuses no batch either. -/
theorem of_singleWrites
    (write_result : ∀ (store : σ) (change : Write),
      (Backend.write store change).result = .ok ())
    (read_write : ∀ (store : σ) (change : Write) (key : Key),
      Backend.read (Backend.write store change).store key =
        if change.key = key then .ok change.outcome else Backend.read store key)
    (writeBatch_eq : ∀ (store : σ) (batch : Batch),
      Backend.writeBatch store batch = Outcome.each Backend.write batch.writes store) :
    ReliableBackend σ := by
  have written : ∀ (store : σ) (batch : Batch), Backend.writeBatch store batch =
      .done (batch.writes.foldl (fun store change => (Backend.write store change).store) store) :=
    fun store batch =>
      (writeBatch_eq store batch).trans (Outcome.each_eq_done write_result batch.writes store)
  exact {
    write_result := write_result
    read_write := read_write
    writeBatch_result := fun store batch => by rw [written]; rfl
    read_written := fun store batch _ key => by
      rw [written]
      exact read_foldl_write read_write batch.writes store key
    read_refused := fun store batch error refused => by
      rw [written] at refused
      cases refused }

variable [ReliableBackend σ]

/-- A list of single writes is accepted as a whole. -/
theorem each_write_result (writes : List Write) (store : σ) :
    (Outcome.each Backend.write writes store).result = .ok () := by
  rw [Outcome.each_eq_done write_result]
  rfl

theorem read_each_write (writes : List Write) (store : σ) (key : Key) :
    Backend.read (Outcome.each Backend.write writes store).store key =
      (Write.latest? writes key).elim (Backend.read store key) .ok := by
  rw [Outcome.each_eq_done write_result]
  exact read_foldl_write read_write writes store key

/-- A batch reads like its writes made one by one. -/
theorem read_writeBatch (store : σ) (batch : Batch) (key : Key) :
    Backend.read (Backend.writeBatch store batch).store key =
      (Write.latest? batch.writes key).elim (Backend.read store key) .ok :=
  AtomicBackend.read_written store batch (writeBatch_result store batch) key

end ReliableBackend

/-! ## The stores -/

/-- What a store of pairs reads as after one write. -/
theorem Pairs.ok_get?_write (pairs : Pairs) (change : Write) (key : Key) :
    (Except.ok ((pairs.write change).get? key) : Except StoreError (Option Value)) =
      if change.key = key then .ok change.outcome else .ok (pairs.get? key) := by
  rw [get?_write, apply_ite Except.ok]

/-- A memory store writes a batch in one step. -/
instance : MapBackend MemoryStore where
  write_result _ _ := rfl
  read_write store change key := Pairs.ok_get?_write store.pairs change key
  writeBatch_result _ _ := rfl
  read_written store batch _ key := by
    change Except.ok ((store.pairs.writeAll batch.writes).get? key) =
      (Write.latest? batch.writes key).elim (.ok (store.pairs.get? key)) .ok
    rw [Pairs.get?_writeAll]
    cases Write.latest? batch.writes key <;> rfl
  read_refused _ _ _ refused := nomatch refused
  close_result _ := rfl
  readsAlike_close alike := alike

/-- A tree writes a batch as one group of changes. -/
instance : MapBackend TreeStore where
  write_result _ _ := rfl
  read_write tree change key := Pairs.ok_get?_write tree.pairs change key
  writeBatch_result _ _ := rfl
  read_written tree batch _ key := by
    change Except.ok (((ChangeGroup.ofWrites batch.writes).apply tree.pairs).get? key) =
      (Write.latest? batch.writes key).elim (.ok (tree.pairs.get? key)) .ok
    rw [ChangeGroup.get?_apply, ChangeGroup.get?_ofWrites]
    cases Write.latest? batch.writes key <;> rfl
  read_refused _ _ _ refused := nomatch refused
  close_result _ := rfl
  readsAlike_close alike := alike

/-- A store that refuses every batch leaves nothing of one. -/
instance : AtomicBackend BatchRefusingStore where
  read_written _ _ written := nomatch written
  read_refused _ _ _ _ _ := rfl

/-- A memory store without a batch write of its own. -/
structure SingleWriteStore where
  pairs : Pairs
deriving DecidableEq, Repr

namespace SingleWriteStore

instance : Backend SingleWriteStore where
  read store key := .ok (store.pairs.get? key)
  write store change := .done ⟨store.pairs.write change⟩
  close store := .done store

instance : ReliableBackend SingleWriteStore :=
  .of_singleWrites (fun _ _ => rfl)
    (fun store change key => Pairs.ok_get?_write store.pairs change key) fun _ _ => rfl

instance : MapBackend SingleWriteStore where
  close_result _ := rfl
  readsAlike_close alike := alike

end SingleWriteStore

/-! ## Stacks -/

namespace Stack

variable {σ : Type u} [Backend σ]

/-- An open transaction answers for the keys it has staged. -/
theorem read_tracking (staged : Staged) (below : Stack σ) (key : Key) :
    (overlay (some staged) below).read key =
      (staged.outcome? key).elim (below.read key) .ok := by
  rw [read]
  cases staged.outcome? key <;> rfl

/-- Staging writes is reading them on top of what was read before. -/
theorem read_tracking_recordAll (staged : Staged) (below : Stack σ) (writes : List Write)
    (key : Key) :
    (overlay (some (staged.recordAll writes)) below).read key =
      (Write.latest? writes key).elim ((overlay (some staged) below).read key) .ok := by
  rw [read_tracking, read_tracking, Staged.outcome?_recordAll]
  cases Write.latest? writes key <;> rfl

section Atomic

variable [AtomicBackend σ]

/-- A batch that a stack accepts is read on top of what was read before: idle
overlays pass it on as one batch, and a transaction stages it as a whole. -/
theorem read_writeBatch_of_ok {stack : Stack σ} {batch : Batch}
    (written : (stack.writeBatch batch).result = .ok ()) (key : Key) :
    (stack.writeBatch batch).store.read key =
      (Write.latest? batch.writes key).elim (stack.read key) .ok := by
  induction stack with
  | base store => exact AtomicBackend.read_written store batch written key
  | overlay staged below ih =>
      cases staged with
      | none => exact ih written
      | some staged => exact read_tracking_recordAll staged below batch.writes key

/-- A batch that a stack refuses leaves every read as it was. -/
theorem read_writeBatch_of_error {stack : Stack σ} {batch : Batch} {error : StoreError}
    (refused : (stack.writeBatch batch).result = .error error) (key : Key) :
    (stack.writeBatch batch).store.read key = stack.read key := by
  induction stack with
  | base store => exact AtomicBackend.read_refused store batch error refused key
  | overlay staged below ih =>
      cases staged with
      | none => exact ih refused
      | some staged => exact nomatch refused

/-- A stack writes a batch entirely or not at all if its backend does. -/
instance : AtomicBackend (Stack σ) where
  read_written _ _ := read_writeBatch_of_ok
  read_refused _ _ _ := read_writeBatch_of_error

end Atomic

section Reliable

variable [ReliableBackend σ]

theorem write_result (stack : Stack σ) (change : Write) :
    (stack.write change).result = .ok () := by
  induction stack with
  | base store => exact ReliableBackend.write_result store change
  | overlay staged below ih =>
      cases staged with
      | none => exact ih
      | some staged => rfl

theorem read_write (stack : Stack σ) (change : Write) (key : Key) :
    (stack.write change).store.read key =
      if change.key = key then .ok change.outcome else stack.read key := by
  induction stack with
  | base store => exact ReliableBackend.read_write store change key
  | overlay staged below ih =>
      cases staged with
      | none => exact ih
      | some staged =>
          change (overlay (some (staged.record change)) below).read key = _
          rw [read_tracking, read_tracking, Staged.outcome?_record]
          by_cases same : change.key = key <;> simp [same]

theorem writeBatch_result (stack : Stack σ) (batch : Batch) :
    (stack.writeBatch batch).result = .ok () := by
  induction stack with
  | base store => exact ReliableBackend.writeBatch_result store batch
  | overlay staged below ih =>
      cases staged with
      | none => exact ih
      | some staged => rfl

/-- A stack refuses no write if its backend refuses none. -/
instance : ReliableBackend (Stack σ) where
  write_result := write_result
  read_write := read_write
  writeBatch_result := writeBatch_result

end Reliable

end Stack

end PathStore
