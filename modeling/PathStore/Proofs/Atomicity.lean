import PathStore.Proofs.Backends
import PathStore.Proofs.Recorder
import PathStore.Proofs.Replay

/-!
# Applications are made as a whole

Operations are applied as a whole or not at all.  Unless all of them decode,
and more than a rehearsal is asked for, the store below the overlay receives no
mutating call; otherwise it receives one batch and nothing else, and its answer
to the batch decides.  A recorder in the place of the store below shows the
calls.
-/

namespace PathStore

universe u v

variable {σ : Type u}

/-- The overlay with a fresh recorder between it and the store below. -/
def Overlay.recorded (overlay : Overlay σ) : Overlay (Recorder (Stack σ)) :=
  ⟨overlay.staged, .base (.fresh overlay.below)⟩

/-- The mutating calls that the store below an overlay has received. -/
def Applied.calls (applied : Applied (Recorder (Stack σ))) : List StoreCall :=
  applied.overlay.below.backend.calls

variable [Backend σ]

/-- A store writes the batches that it accepts as what they stand for: their
puts in order and then their deletes in order. -/
def Stack.WritesBatches (store : Stack σ) : Prop :=
  ∀ batch, (store.writeBatch batch).result = .ok () →
    ∀ key, (store.writeBatch batch).store.read key =
      Write.replay .ok store.read batch.writes key

/-- A stack over a backend that writes batches as a whole does so too. -/
theorem Stack.writesBatches [AtomicBackend σ] (store : Stack σ) : store.WritesBatches := by
  intro batch written key
  rw [Write.replay_eq_latest?, read_writeBatch_of_ok written]

namespace Overlay

variable (order : FlushOrder) (operations : List Operation) (dryRun : Bool)
  (counters : Counters)

/-- The recorder changes nothing of what an application answers and leaves. -/
theorem untap_apply_recorded (overlay : Overlay σ) :
    (overlay.recorded.apply order operations dryRun counters).untap =
      overlay.apply order operations dryRun counters := by
  rcases overlay with ⟨staged, below⟩
  cases staged with
  | none => exact (apply_untap order operations dryRun counters (.base (.fresh below))).symm
  | some staged => rfl

/-! ## Applications that change nothing -/

/-- While a transaction is open, no other is applied and nothing is counted. -/
theorem apply_isTracking {overlay : Overlay σ} (tracking : overlay.isTracking) :
    overlay.apply order operations dryRun counters =
      ⟨.error (.transaction .alreadyTracking), overlay, counters⟩ := by
  rcases overlay with ⟨staged, below⟩
  rcases Option.isSome_iff_exists.mp tracking with ⟨inner, rfl⟩
  exact apply_tracking order operations dryRun counters inner below

variable (below : Stack σ)

/-- An operation that spells no write ends the application of all of them. -/
theorem apply_unspelled {operation : Operation} (listed : operation ∈ operations)
    (unspelled : ∀ write, ¬ operation.Spells write) :
    ∃ error, (idle below).apply order operations dryRun counters =
      ⟨.error (.operand error), idle below, counters.countRollback⟩ := by
  rcases Operation.exists_decodeAll_eq_error listed unspelled with ⟨error, refused⟩
  exact ⟨error, apply_of_decode_error order operations dryRun counters refused below⟩

variable {operations} {writes : List Write}

/-- A rehearsal succeeds with the summary of the writes. -/
theorem apply_spelled_rehearsal (spelled : List.Forall₂ Operation.Spells operations writes) :
    (idle below).apply order operations true counters =
      ⟨.ok (.ofWrites writes true), idle below,
        (counters.countSummary (.ofWrites writes true)).countRollback⟩ :=
  apply_rehearsal order operations counters (Operation.decodeAll_eq_ok_iff.mpr spelled) below

/-! ## Applications that end in a batch -/

/-- The batch that an application of writes hands to the store below. -/
def batchOf (writes : List Write) : Batch :=
  (Staged.empty.recordAll writes).batch order

/-- Whatever order the flush walks in, the batch replays as the writes do. -/
theorem replay_batchOf {ρ : Type v} (settle : Option Value → ρ) (reads : Key → ρ) (key : Key) :
    Write.replay settle reads (batchOf order writes).writes key =
      Write.replay settle reads writes key := by
  rw [Write.replay_eq_latest?, Write.replay_eq_latest?, batchOf, Staged.latest?_batch,
    Staged.outcome?_recordAll, Staged.outcome?_empty, Option.or_none]

variable (spelled : List.Forall₂ Operation.Spells operations writes)

include spelled

/-- The batch is all that the store below receives. -/
theorem calls_apply_recorded :
    ((idle below).recorded.apply order operations false counters).calls =
      [.batch (batchOf order writes)] := by
  have decoded := Operation.decodeAll_eq_ok_iff.mpr spelled
  change ((idle (.base (.fresh below))).apply order operations false counters).calls = _
  rw [apply_flush order operations counters decoded]
  split <;> rename_i flushed <;>
    exact congrArg (fun outcome => outcome.store.backend.calls) flushed.symm

/-- The overlay is idle over what the batch makes of the store below. -/
theorem overlay_apply :
    ((idle below).apply order operations false counters).overlay =
      idle (below.writeBatch (batchOf order writes)).store := by
  have decoded := Operation.decodeAll_eq_ok_iff.mpr spelled
  rw [apply_flush order operations counters decoded]
  split <;> rename_i flushed <;> rw [batchOf, flushed]

/-- The application succeeds if the batch is accepted. -/
theorem result_apply_of_ok
    (written : (below.writeBatch (batchOf order writes)).result = .ok ()) :
    ((idle below).apply order operations false counters).result =
      .ok (.ofWrites writes false) := by
  have decoded := Operation.decodeAll_eq_ok_iff.mpr spelled
  rw [apply_flush order operations counters decoded]
  split <;> rename_i flushed
  · rfl
  · rw [batchOf, flushed] at written
    cases written

/-- The application fails with the answer of the store below if the batch is
refused. -/
theorem result_apply_of_error {error : StoreError}
    (refused : (below.writeBatch (batchOf order writes)).result = .error error) :
    ((idle below).apply order operations false counters).result = .error (.flush error) := by
  have decoded := Operation.decodeAll_eq_ok_iff.mpr spelled
  rw [apply_flush order operations counters decoded]
  split <;> rename_i flushed <;> rw [batchOf, flushed] at refused <;> cases refused
  rfl

end Overlay

/-- An application of operations has one of five ends.

* While a transaction is open, nothing at all changes.
* If an operation spells no write, the application fails, the overlay stays
  idle, and the store below receives nothing.
* A rehearsal succeeds, the overlay stays idle, and the store below receives
  nothing.
* Otherwise the store below receives one batch and nothing else, and the
  overlay is idle over what the batch leaves.  If the batch is accepted, the
  application succeeds, and over a store that writes its batches every key
  reads as after the writes, made one by one in the order of the file.
* If the batch is refused, the application fails with the words
  `commit failed` and the answer of the store behind them. -/
theorem apply_all_or_nothing (order : FlushOrder) (overlay : Overlay σ)
    (operations : List Operation) (dryRun : Bool) (counters : Counters) :
    let applied := overlay.apply order operations dryRun counters
    let recorded := overlay.recorded.apply order operations dryRun counters
    recorded.untap = applied ∧
    (overlay.isTracking →
      applied = ⟨.error (.transaction .alreadyTracking), overlay, counters⟩ ∧
      recorded.calls = []) ∧
    (overlay.staged = none →
      (∀ operation ∈ operations, (∀ write, ¬ operation.Spells write) →
        ∃ error, applied.result = .error (.operand error) ∧ applied.overlay = overlay ∧
          recorded.calls = []) ∧
      ∀ writes, List.Forall₂ Operation.Spells operations writes →
        (dryRun = true →
          ∃ summary, applied.result = .ok summary ∧ applied.overlay = overlay ∧
            recorded.calls = []) ∧
        (dryRun = false →
          ∃ batch, recorded.calls = [.batch batch] ∧
            applied.overlay = .idle (overlay.below.writeBatch batch).store ∧
            ((overlay.below.writeBatch batch).result = .ok () →
              (∃ summary, applied.result = .ok summary) ∧
              (overlay.below.WritesBatches → ∀ key, applied.overlay.below.read key =
                Write.replay .ok overlay.below.read writes key)) ∧
            ∀ error, (overlay.below.writeBatch batch).result = .error error →
              applied.result = .error (.flush error) ∧
              (ApplyError.flush error).failure = .because "commit failed" error.failure)) := by
  dsimp only
  refine ⟨overlay.untap_apply_recorded order operations dryRun counters, ?_, ?_⟩
  · intro tracking
    have recorder : overlay.recorded.apply order operations dryRun counters = _ :=
      Overlay.apply_isTracking order operations dryRun counters tracking
    exact ⟨Overlay.apply_isTracking order operations dryRun counters tracking,
      congrArg Applied.calls recorder⟩
  · intro isIdle
    rcases overlay with ⟨staged, below⟩
    obtain rfl : staged = none := isIdle
    constructor
    · intro operation listed unspelled
      rcases Overlay.apply_unspelled order operations dryRun counters below listed unspelled with
        ⟨error, ends⟩
      rcases Overlay.apply_unspelled order operations dryRun counters
        (.base (Recorder.fresh below)) listed unspelled with ⟨_, recorder⟩
      exact ⟨error, congrArg Applied.result ends, congrArg Applied.overlay ends,
        congrArg Applied.calls recorder⟩
    · intro writes spelled
      constructor
      · rintro rfl
        have ends := Overlay.apply_spelled_rehearsal order counters below spelled
        have recorder := Overlay.apply_spelled_rehearsal order counters
          (.base (Recorder.fresh below)) spelled
        exact ⟨_, congrArg Applied.result ends, congrArg Applied.overlay ends,
          congrArg Applied.calls recorder⟩
      · rintro rfl
        have ends := Overlay.overlay_apply order counters below spelled
        refine ⟨Overlay.batchOf order writes,
          Overlay.calls_apply_recorded order counters below spelled, ends, ?_, ?_⟩
        · intro written
          refine ⟨⟨_, Overlay.result_apply_of_ok order counters below spelled written⟩, ?_⟩
          intro writesBatches key
          have reads := writesBatches (Overlay.batchOf order writes) written key
          rw [Overlay.replay_batchOf] at reads
          exact (congrArg (fun overlay => overlay.below.read key) ends).trans reads
        · intro error refused
          exact ⟨Overlay.result_apply_of_error order counters below spelled refused, rfl⟩

/-- Operations that spell one key in three ways. -/
def aliases : List Operation :=
  [.put "0xAb" "01", .delete "aB", .put "0x0xab" "02", .delete "0c"]

/-- The writes that they spell. -/
def aliasedWrites : List Write :=
  [.put ⟨[0xab]⟩ [1], .delete ⟨[0xab]⟩, .put ⟨[0xab]⟩ [2], .delete ⟨[0x0c]⟩]

theorem spells_aliases : List.Forall₂ Operation.Spells aliases aliasedWrites :=
  .cons (.put rfl rfl) (.cons (.delete rfl) (.cons (.put rfl rfl) (.cons (.delete rfl) .nil)))

/-- The aliases of one key are applied in order, are refused as a whole, and are
given up for one more operation that does not decode; a transaction that is
open is left alone. -/
theorem apply_all_or_nothing_aliases :
    let tree : Overlay TreeStore := .idle (.base ⟨Table.empty.insert ⟨[0x0c]⟩ [9]⟩)
    let full : Overlay BatchRefusingStore := .idle (.base ⟨.empty, "disk full"⟩)
    let busy : Overlay TreeStore := ⟨some .empty, .base .empty⟩
    List.Forall₂ Operation.Spells aliases aliasedWrites ∧ tree.below.WritesBatches ∧
    (∀ write, ¬ (Operation.delete "0").Spells write) ∧
    (∀ key, (tree.apply .latestFirst aliases false .zero).overlay.below.read key =
      Write.replay .ok tree.below.read aliasedWrites key) ∧
    (full.apply .latestFirst aliases false .zero).result =
      .error (.flush (.engine "disk full")) ∧
    (∃ summary, (full.apply .latestFirst aliases true .zero).result = .ok summary) ∧
    (∃ error, (tree.apply .latestFirst (aliases ++ [.delete "0"]) false .zero).result =
      .error (.operand error)) ∧
    busy.apply .latestFirst aliases false .zero =
      ⟨.error (.transaction .alreadyTracking), busy, .zero⟩ := by
  intro tree full busy
  have unspelled : ∀ write, ¬ (Operation.delete "0").Spells write := by
    intro write spelled
    cases spelled with
    | delete isKey => cases isKey
  refine ⟨spells_aliases, Stack.writesBatches _, unspelled, ?_, ?_, ?_, ?_, ?_⟩
  · have applied := (apply_all_or_nothing .latestFirst tree aliases false .zero).2.2 rfl
    rcases (applied.2 aliasedWrites spells_aliases).2 rfl with ⟨batch, _, _, written, _⟩
    exact (written rfl).2 (Stack.writesBatches _)
  · have applied := (apply_all_or_nothing .latestFirst full aliases false .zero).2.2 rfl
    rcases (applied.2 aliasedWrites spells_aliases).2 rfl with ⟨batch, _, _, _, refused⟩
    exact (refused (.engine "disk full") rfl).1
  · have applied := (apply_all_or_nothing .latestFirst full aliases true .zero).2.2 rfl
    rcases (applied.2 aliasedWrites spells_aliases).1 rfl with ⟨summary, rehearsed, _⟩
    exact ⟨summary, rehearsed⟩
  · have applied := apply_all_or_nothing .latestFirst tree (aliases ++ [.delete "0"]) false .zero
    have listed : Operation.delete "0" ∈ aliases ++ [.delete "0"] := List.mem_concat_self
    rcases (applied.2.2 rfl).1 _ listed unspelled with ⟨error, refused, _⟩
    exact ⟨error, refused⟩
  · exact ((apply_all_or_nothing .latestFirst busy aliases false .zero).2.1 rfl).1

end PathStore
