import PathStore.Proofs.Atomicity
import PathStore.Proofs.Batches
import PathStore.Proofs.Commit
import PathStore.Proofs.RefusedOperands

/-!
# What a rehearsal foretells

The summary of an application is one of its file.  It counts the keys that the
operations spell, each once and by the last operation on it, and the store has
no part in it; nor has it in the refusal of a file that does not decode.  So a
rehearsal answers what the flush of the same file would answer if the store
accepts it.  It leaves the stack as it was, and a flush behind it ends as it
would have ended alone.
-/

namespace PathStore

universe u

/-! ## The last operation on a key -/

namespace Operation

/-- The text of the key. -/
def keyText : Operation → String
  | put key _ => key
  | delete key => key

def isPut : Operation → Bool
  | put _ _ => true
  | delete _ => false

/-- The operation spells the key, in one way or another. -/
def isOn (key : Key) (operation : Operation) : Bool :=
  Hex.decode operation.keyText = .ok key.bytes

/-- The last operation of a file on a key. -/
def last? (operations : List Operation) (key : Key) : Option Operation :=
  operations.reverse.find? (isOn key)

/-- The keys on which the last operation is a put. -/
def keysPut (operations : List Operation) : Set Key :=
  {key | ∃ keyText valueText, last? operations key = some (.put keyText valueText)}

/-- The keys on which the last operation is a delete. -/
def keysDeleted (operations : List Operation) : Set Key :=
  {key | ∃ keyText, last? operations key = some (.delete keyText)}

theorem Spells.isOn_eq {operation : Operation} {write : Write} (spelled : operation.Spells write)
    (key : Key) : operation.isOn key = decide (write.key = key) := by
  rcases key with ⟨bytes⟩
  cases spelled with
  | put isKey isValue => simp [isOn, keyText, isKey, Write.key]
  | delete isKey => simp [isOn, keyText, isKey, Write.key]

theorem Spells.isPut_eq {operation : Operation} {write : Write}
    (spelled : operation.Spells write) : operation.isPut = write.outcome.isSome := by
  cases spelled <;> rfl

variable {operations : List Operation} {writes : List Write}

/-- The last operation on a key is of the kind of the last write of it. -/
theorem map_isPut_last? (spelled : List.Forall₂ Spells operations writes) (key : Key) :
    (last? operations key).map isPut = (Write.latest? writes key).map Option.isSome := by
  rw [last?, Write.latest?]
  have reversed := List.forall₂_reverse_iff.mpr spelled
  generalize operations.reverse = latestOperations at reversed ⊢
  generalize writes.reverse = latestWrites at reversed ⊢
  induction reversed with
  | nil => rfl
  | @cons operation write _ _ isLatest _ ih =>
      by_cases same : write.key = key
      · simp [isLatest.isOn_eq, isLatest.isPut_eq, same]
      · simpa [List.find?_cons, isLatest.isOn_eq, same] using ih

theorem exists_eq_put_iff {found : Option Operation} :
    (∃ keyText valueText, found = some (.put keyText valueText)) ↔
      found.map isPut = some true := by
  rcases found with _ | _ | _ <;> simp [isPut]

theorem exists_eq_delete_iff {found : Option Operation} :
    (∃ keyText, found = some (.delete keyText)) ↔ found.map isPut = some false := by
  rcases found with _ | _ | _ <;> simp [isPut]

/-- The keys that operations put last are those that the writes they spell put
last. -/
theorem mem_keysPut_iff (spelled : List.Forall₂ Spells operations writes) (key : Key) :
    key ∈ keysPut operations ↔ key ∈ Write.keysPut writes := by
  change (∃ keyText valueText, last? operations key = some (.put keyText valueText)) ↔ _
  rw [exists_eq_put_iff, map_isPut_last? spelled, Write.mem_keysPut_iff]
  simp [Option.isSome_iff_exists]

theorem mem_keysDeleted_iff (spelled : List.Forall₂ Spells operations writes) (key : Key) :
    key ∈ keysDeleted operations ↔ key ∈ Write.keysDeleted writes := by
  change (∃ keyText, last? operations key = some (.delete keyText)) ↔ _
  rw [exists_eq_delete_iff, map_isPut_last? spelled, Write.mem_keysDeleted_iff]
  simp

end Operation

/-- What operations come to: the keys that are put last and those that are
deleted last, and whether they are flushed. -/
noncomputable def Summary.foretold (operations : List Operation) (dryRun : Bool) : Summary :=
  ⟨(Operation.keysPut operations).ncard, (Operation.keysDeleted operations).ncard, !dryRun⟩

theorem Summary.ofWrites_eq_foretold {operations : List Operation} {writes : List Write}
    (spelled : List.Forall₂ Operation.Spells operations writes) (dryRun : Bool) :
    Summary.ofWrites writes dryRun = .foretold operations dryRun := by
  rw [ofWrites, foretold,
    ncard_eq_length (Write.nodup_keysPut writes) (Operation.mem_keysPut_iff spelled),
    ncard_eq_length (Write.nodup_keysDeleted writes) (Operation.mem_keysDeleted_iff spelled)]

/-- Operations spell writes if all their operands are hexadecimal text. -/
theorem Operation.exists_forall₂_spells {operations : List Operation}
    (texts : ∀ operation ∈ operations, ∀ field ∈ operation.fields, Hex.IsText field.2) :
    ∃ writes, List.Forall₂ Spells operations writes := by
  induction operations with
  | nil => exact ⟨[], .nil⟩
  | cons operation rest ih =>
      rcases List.forall_mem_cons.mp texts with ⟨ofFirst, ofRest⟩
      rcases exists_spells_iff.mpr ofFirst with ⟨write, isFirst⟩
      rcases ih ofRest with ⟨writes, areRest⟩
      exact ⟨write :: writes, .cons isFirst areRest⟩

/-! ## Applications of one file -/

namespace Overlay

variable {σ : Type u} [Backend σ] (order : FlushOrder) (operations : List Operation)
  (dryRun : Bool) (counters : Counters)

/-- A rehearsal leaves every overlay as it was. -/
theorem overlay_apply_rehearsal (overlay : Overlay σ) :
    (overlay.apply order operations true counters).overlay = overlay := by
  rcases overlay with ⟨_ | staged, below⟩
  · rw [← idle]
    cases decoded : Operation.decodeAll operations with
    | error error => rw [apply_of_decode_error order operations true counters decoded]
    | ok writes => rw [apply_rehearsal order operations counters decoded]
  · rw [apply_tracking]

/-- The counters have no part in an application. -/
theorem apply_counters_congr (overlay : Overlay σ) (others : Counters) :
    (overlay.apply order operations dryRun counters).result =
        (overlay.apply order operations dryRun others).result ∧
      (overlay.apply order operations dryRun counters).overlay =
        (overlay.apply order operations dryRun others).overlay := by
  rcases overlay with ⟨_ | staged, below⟩
  · rw [← idle]
    cases decoded : Operation.decodeAll operations with
    | error error => simp only [apply_of_decode_error _ _ _ _ decoded, and_self]
    | ok writes =>
        cases dryRun with
        | true => simp only [apply_rehearsal _ _ _ decoded, and_self]
        | false =>
            simp only [apply_flush _ _ _ decoded]
            split <;> simp only [and_self]
  · exact ⟨rfl, rfl⟩

section Spelled

variable {operations : List Operation} {writes : List Write} {below : Stack σ}
  (spelled : List.Forall₂ Operation.Spells operations writes)

include spelled

theorem result_apply_rehearsal :
    ((idle below).apply order operations true counters).result =
      .ok (.foretold operations true) := by
  rw [apply_spelled_rehearsal order counters below spelled,
    Summary.ofWrites_eq_foretold spelled]

/-- A flush ends with the summary of the file or with the refusal of the store
below. -/
theorem result_apply_flush :
    ((idle below).apply order operations false counters).result =
      match (below.writeBatch (batchOf order writes)).result with
      | .ok () => .ok (.foretold operations false)
      | .error error => .error (.flush error) := by
  cases answer : (below.writeBatch (batchOf order writes)).result with
  | ok done =>
      rw [result_apply_of_ok order counters below spelled answer,
        Summary.ofWrites_eq_foretold spelled]
  | error error => exact result_apply_of_error order counters below spelled answer

/-- Flushes that end alike were answered alike by the store below. -/
theorem answers_of_result_apply_eq {first second : FlushOrder} {others : Counters}
    (results : ((idle below).apply first operations false counters).result =
      ((idle below).apply second operations false others).result) :
    (below.writeBatch (batchOf first writes)).result =
      (below.writeBatch (batchOf second writes)).result := by
  rw [result_apply_flush _ _ spelled, result_apply_flush _ _ spelled] at results
  cases ofFirst : (below.writeBatch (batchOf first writes)).result <;>
    cases ofSecond : (below.writeBatch (batchOf second writes)).result <;> simp_all

end Spelled

/-- Operations that do not decode are refused alike by all idle overlays; an
overlay with an open transaction does not look at them. -/
theorem result_apply_of_decode_error {operations : List Operation} {error : OperandError}
    (refused : Operation.decodeAll operations = .error error) (overlay : Overlay σ) :
    (overlay.apply order operations dryRun counters).result =
      .error (if overlay.isTracking then .transaction .alreadyTracking else .operand error) := by
  rcases overlay with ⟨_ | staged, below⟩
  · exact (result_apply_eq_operand_iff order below dryRun counters).mpr refused
  · rfl

end Overlay

/-! ## Batches that stand for the same writes -/

namespace Stack

variable {σ : Type u} [Backend σ] [AtomicBackend σ] {below : Stack σ} {first second : Batch}

/-- Two batches with the same last writes, and the same answer to both, leave a
stack that reads alike. -/
theorem read_writeBatch_congr
    (alike : ∀ key, Write.latest? first.writes key = Write.latest? second.writes key)
    (answers : (below.writeBatch first).result = (below.writeBatch second).result) (key : Key) :
    (below.writeBatch first).store.read key = (below.writeBatch second).store.read key := by
  cases answer : (below.writeBatch second).result with
  | ok done =>
      rw [answer] at answers
      rw [read_writeBatch_of_ok answers, read_writeBatch_of_ok answer, alike]
  | error error =>
      rw [answer] at answers
      rw [read_writeBatch_of_error answers, read_writeBatch_of_error answer]

/-- So does every layer of it. -/
theorem readAt_writeBatch_congr
    (alike : ∀ key, Write.latest? first.writes key = Write.latest? second.writes key)
    (answers : (below.writeBatch first).result = (below.writeBatch second).result)
    (layer : Nat) (key : Key) :
    (below.writeBatch first).store.readAt layer key =
      (below.writeBatch second).store.readAt layer key := by
  rcases Nat.lt_or_ge layer below.landing with lower | atLeast
  · rw [readAt, readAt, layer?_writeBatch lower, layer?_writeBatch lower]
  · rcases Nat.lt_or_ge below.depth layer with beyond | within
    · rw [readAt, readAt, layer?_eq_none_of_depth_lt (by rwa [depth_writeBatch]),
        layer?_eq_none_of_depth_lt (by rwa [depth_writeBatch])]
    · rw [readAt_of_landing_le (by rwa [landing_writeBatch]) (by rwa [depth_writeBatch]),
        readAt_of_landing_le (by rwa [landing_writeBatch]) (by rwa [depth_writeBatch]),
        read_writeBatch_congr alike answers]

/-- And so does every layer of the overlays above it. -/
theorem readAt_flush_congr
    (alike : ∀ key, Write.latest? first.writes key = Write.latest? second.writes key)
    (answers : (below.writeBatch first).result = (below.writeBatch second).result)
    (overlays : List (Option Staged)) (layer : Nat) (key : Key) :
    (below.flush first overlays).readAt layer key =
      (below.flush second overlays).readAt layer key := by
  rcases Nat.lt_or_ge below.depth layer with above | within
  · refine readAt_beneath_congr (by simp) ?_ overlays (by simpa using above) key
    exact read_writeBatch_congr alike answers
  · rw [flush, flush, readAt_lower (le_depth_writeBatch within first),
      readAt_lower (le_depth_writeBatch within second), readAt_writeBatch_congr alike answers]

end Stack

/-- The order in which a flush walks the changes of a file makes no difference
to what is read afterwards, if the answer is the same. -/
theorem Overlay.readAt_apply_congr {σ : Type u} [Backend σ] [AtomicBackend σ]
    {overlay : Overlay σ} {first second : FlushOrder} {operations : List Operation}
    {counters others : Counters}
    (results : (overlay.apply first operations false counters).result =
      (overlay.apply second operations false others).result)
    (overlays : List (Option Staged)) (layer : Nat) (key : Key) :
    ((overlay.apply first operations false counters).overlay.toStack.beneath overlays).readAt
        layer key =
      ((overlay.apply second operations false others).overlay.toStack.beneath overlays).readAt
        layer key := by
  rcases overlay with ⟨_ | staged, below⟩
  · rw [← idle] at results ⊢
    cases decoded : Operation.decodeAll operations with
    | error error =>
        rw [apply_of_decode_error first operations false counters decoded,
          apply_of_decode_error second operations false others decoded]
    | ok writes =>
        have spelled := Operation.decodeAll_eq_ok_iff.mp decoded
        have alike : ∀ key, Write.latest? (batchOf first writes).writes key =
            Write.latest? (batchOf second writes).writes key := by
          intro key
          rw [batchOf, batchOf, Staged.latest?_batch, Staged.latest?_batch]
        rw [overlay_apply first counters below spelled,
          overlay_apply second others below spelled]
        exact Stack.readAt_flush_congr alike
          (answers_of_result_apply_eq counters spelled results) overlays layer key
  · rw [apply_tracking, apply_tracking]

/-! ## A rehearsal and the flush behind it -/

namespace Session

variable {σ : Type u} [Backend σ] {session : Session σ}

theorem exists_of_step_apply {next : Session σ} {layer : Nat} {order : FlushOrder}
    {operations : List Operation} {dryRun : Bool} {reply : Reply}
    (performed : session.step (.call layer (.apply order operations dryRun)) =
      some (reply, next)) :
    ∃ top below overlays, layer = below.depth + 1 ∧
      session.stack = (Stack.overlay top below).beneath overlays := by
  rcases exists_of_step_call performed with ⟨store, overlays, _, rfl, stack_eq, acted, _⟩
  cases store with
  | base store => cases acted
  | overlay top below => exact ⟨top, below, overlays, rfl, stack_eq⟩

/-- A rehearsal can be made wherever an application can, and leaves the stack. -/
theorem exists_step_rehearsal {top : Option Staged} {below : Stack σ}
    {overlays : List (Option Staged)}
    (stack_eq : session.stack = (Stack.overlay top below).beneath overlays) (order : FlushOrder)
    (operations : List Operation) :
    ∃ reply rehearsed,
      session.step (.call (below.depth + 1) (.apply order operations true)) =
        some (reply, rehearsed) ∧
      rehearsed.stack = session.stack := by
  refine ⟨_, _, step_apply stack_eq order operations true, ?_⟩
  rw [Overlay.overlay_apply_rehearsal, stack_eq]
  rfl

/-- Sessions with the same stack make the same of an application. -/
theorem exists_step_apply_of_stack_eq {other alone : Session σ} {layer : Nat}
    {order : FlushOrder} {operations : List Operation} {dryRun : Bool} {answer : Reply}
    (same : other.stack = session.stack)
    (performed : session.step (.call layer (.apply order operations dryRun)) =
      some (answer, alone)) :
    ∃ after, other.step (.call layer (.apply order operations dryRun)) = some (answer, after) ∧
      after.stack = alone.stack := by
  rcases exists_of_step_apply performed with ⟨top, below, overlays, rfl, stack_eq⟩
  have counted := (⟨top, below⟩ : Overlay σ).apply_counters_congr order operations dryRun
    other.counters session.counters
  have again := step_apply (same.trans stack_eq) order operations dryRun
  simp only [counted] at again
  rw [step_apply stack_eq] at performed
  cases performed
  exact ⟨_, again, rfl⟩

/-- The orders in which two flushes of one file walk make no difference to what
is read afterwards, if the store below answers them alike. -/
theorem readAt_apply_congr [AtomicBackend σ] {other alone after : Session σ} {layer : Nat}
    {order anyOrder : FlushOrder} {operations : List Operation} {answer : Reply}
    (same : other.stack = session.stack)
    (performed : session.step (.call layer (.apply order operations false)) =
      some (answer, alone))
    (again : other.step (.call layer (.apply anyOrder operations false)) = some (answer, after))
    (reader : Nat) (key : Key) :
    after.stack.readAt reader key = alone.stack.readAt reader key := by
  rcases exists_of_step_apply performed with ⟨top, below, overlays, rfl, stack_eq⟩
  rw [step_apply stack_eq, Option.some.injEq, Prod.mk.injEq] at performed
  rw [step_apply (same.trans stack_eq), Option.some.injEq, Prod.mk.injEq] at again
  rcases performed with ⟨answered, rfl⟩
  rcases again with ⟨answeredAgain, rfl⟩
  exact Overlay.readAt_apply_congr (Reply.applied.inj (answeredAgain.trans answered.symm))
    overlays reader key

theorem run_singleton {next : Session σ} {step : Step} {reply : Reply} :
    session.run [step] = some ([reply], next) ↔ session.step step = some (reply, next) := by
  rw [run]
  rcases session.step step with _ | ⟨other, after⟩ <;> simp [run]

theorem run_pair {last : Session σ} {first second : Step} {reply answer : Reply} :
    session.run [first, second] = some ([reply, answer], last) ↔
      ∃ next, session.step first = some (reply, next) ∧ next.step second = some (answer, last) := by
  rw [run]
  rcases session.step first with _ | ⟨other, next⟩
  · simp
  · rcases stepped : next.step second with _ | ⟨another, after⟩ <;>
      simp [run, stepped, and_assoc]

end Session

/-- An application does what its file foretells.  If all operands are hexadecimal
text, an idle overlay over any store answers with what the operations come to, a
rehearsal always and a flush unless the store below refuses a batch.  If some
operand is none, every idle overlay answers with the same error, rehearsal or not.
In any session, a flush behind a rehearsal answers as it would alone and leaves the
same stack; over a backend that writes a batch entirely or not at all it may even
walk in another order, as long as the answer is the same. -/
theorem rehearsal_foretells (operations : List Operation) :
    ((∀ operation ∈ operations, ∀ field ∈ operation.fields, Hex.IsText field.2) →
      ∀ {σ : Type u} [Backend σ] (order : FlushOrder) (below : Stack σ) (dryRun : Bool)
        (counters : Counters),
        let result := ((Overlay.idle below).apply order operations dryRun counters).result
        (∀ summary, result = .ok summary → summary = .foretold operations dryRun) ∧
        ∀ error, result = .error error →
          dryRun = false ∧ ∃ batch refusal, error = .flush refusal ∧
            (below.writeBatch batch).result = .error refusal) ∧
    ((∃ operation ∈ operations, ∃ field ∈ operation.fields, ¬ Hex.IsText field.2) →
      ∃ error, ∀ {σ : Type u} [Backend σ] (order : FlushOrder) (overlay : Overlay σ)
        (dryRun : Bool) (counters : Counters),
        (overlay.apply order operations dryRun counters).result =
          .error (if overlay.isTracking then .transaction .alreadyTracking
            else .operand error)) ∧
    ∀ {σ : Type u} [Backend σ] {session alone : Session σ} {layer : Nat} {order : FlushOrder}
      {answer : Reply},
      session.run [.call layer (.apply order operations false)] = some ([answer], alone) →
      ∀ rehearsalOrder,
        (∃ foretold after,
          session.run [.call layer (.apply rehearsalOrder operations true),
              .call layer (.apply order operations false)] =
            some ([foretold, answer], after) ∧
          after.stack = alone.stack) ∧
        ∀ [AtomicBackend σ] (anyOrder : FlushOrder) (foretold : Reply) (after : Session σ),
          session.run [.call layer (.apply rehearsalOrder operations true),
              .call layer (.apply anyOrder operations false)] =
            some ([foretold, answer], after) →
          ∀ reader key, after.stack.readAt reader key = alone.stack.readAt reader key := by
  refine ⟨?decoded, ?undecoded, ?behind⟩
  case decoded =>
    intro texts σ _ order below dryRun counters
    obtain ⟨writes, spelled⟩ := Operation.exists_forall₂_spells texts
    dsimp only
    cases dryRun with
    | true => simp [Overlay.result_apply_rehearsal order counters spelled]
    | false =>
        rw [Overlay.result_apply_flush order counters spelled]
        cases answer : (below.writeBatch (Overlay.batchOf order writes)).result with
        | ok done => simp
        | error refusal => simpa using ⟨_, answer⟩
  case undecoded =>
    rintro ⟨operation, listed, field, isField, noText⟩
    have refused : ∃ cause, Hex.decode field.2 = .error cause := by
      cases decoded : Hex.decode field.2 with
      | ok bytes => exact absurd ⟨bytes, decoded⟩ noText
      | error cause => exact ⟨cause, rfl⟩
    obtain ⟨error, refused⟩ := Operation.exists_decodeAll_eq_error_iff.mpr
      ⟨operation, listed, field, isField, refused⟩
    exact ⟨error, fun order overlay dryRun counters =>
      overlay.result_apply_of_decode_error order dryRun counters refused⟩
  case behind =>
    intro σ _ session alone layer order answer performed rehearsalOrder
    rw [Session.run_singleton] at performed
    rcases Session.exists_of_step_apply performed with ⟨top, below, overlays, rfl, stack_eq⟩
    rcases Session.exists_step_rehearsal stack_eq rehearsalOrder operations with
      ⟨foretold, rehearsed, rehearsal, same⟩
    constructor
    · rcases Session.exists_step_apply_of_stack_eq same performed with ⟨after, again, after_eq⟩
      exact ⟨foretold, after, Session.run_pair.mpr ⟨rehearsed, rehearsal, again⟩, after_eq⟩
    · intro _ anyOrder foretold after ran
      rcases Session.run_pair.mp ran with ⟨_, rehearsalAgain, again⟩
      rw [rehearsal] at rehearsalAgain
      cases rehearsalAgain
      exact Session.readAt_apply_congr same performed again

/-- The aliases of one key count once, as a put, beside the delete of another key;
one more operation spoils the file for all overlays.  The flush of an idle overlay
between two transactions stages its changes in the lower one, with a rehearsal
before it or without. -/
theorem rehearsal_foretells_aliases :
    let upper := Staged.empty.recordAll [.delete ⟨[0xab]⟩]
    let lower := Staged.empty.recordAll [.put ⟨[0x0c]⟩ [9]]
    let session : Session TreeStore :=
      ⟨.overlay (some upper) (.overlay none (.overlay (some lower) (.base .empty))), .zero⟩
    let flush : Step := .call 2 (.apply .latestFirst aliases false)
    let rehearse : Step := .call 2 (.apply .latestFirst aliases true)
    (∀ operation ∈ aliases, ∀ field ∈ operation.fields, Hex.IsText field.2) ∧
    Summary.foretold aliases true = ⟨1, 1, false⟩ ∧
    (∃ operation ∈ aliases ++ [.delete "0"], ∃ field ∈ operation.fields, ¬ Hex.IsText field.2) ∧
    (∃ error, ∀ (order : FlushOrder) (overlay : Overlay TreeStore) (dryRun : Bool)
      (counters : Counters),
      (overlay.apply order (aliases ++ [.delete "0"]) dryRun counters).result =
        .error (if overlay.isTracking then .transaction .alreadyTracking
          else .operand error)) ∧
    ∃ alone, session.run [flush] = some ([.applied (.ok ⟨1, 1, true⟩)], alone) ∧
      alone.stack.readAt 1 ⟨[0xab]⟩ = some (.ok (some [2])) ∧
      ∃ foretold after,
        session.run [rehearse, flush] =
          some ([foretold, .applied (.ok ⟨1, 1, true⟩)], after) ∧
        after.stack = alone.stack := by
  intro upper lower session flush rehearse
  have texts : ∀ operation ∈ aliases, ∀ field ∈ operation.fields, Hex.IsText field.2 := by
    intro operation listed
    obtain ⟨place, bound, rfl⟩ := List.getElem_of_mem listed
    have spelled := (List.forall₂_iff_get.mp spells_aliases).2 place bound bound
    exact Operation.exists_spells_iff.mp ⟨_, spelled⟩
  have spoiled : ∃ operation ∈ aliases ++ [.delete "0"], ∃ field ∈ operation.fields,
      ¬ Hex.IsText field.2 := by
    refine ⟨.delete "0", List.mem_concat_self, ("key", "0"), List.mem_cons_self, ?_⟩
    rintro ⟨bytes, decoded⟩
    cases decoded
  refine ⟨texts, ?_, spoiled, ?_, _, rfl, rfl, ?_⟩
  · have foretold := (rehearsal_foretells aliases).1 texts .latestFirst
      (.base TreeStore.empty) true .zero
    exact (foretold.1 ⟨1, 1, false⟩ rfl).symm
  · obtain ⟨error, refused⟩ := (rehearsal_foretells (aliases ++ [.delete "0"])).2.1 spoiled
    exact ⟨error, refused⟩
  · exact ((rehearsal_foretells aliases).2.2 rfl .latestFirst).1

end PathStore
