import Mathlib.Data.List.TakeWhile
import PathStore.Proofs.Commit
import PathStore.Proofs.Reachable
import PathStore.Proofs.Refusals

/-!
# Commits that stop half way

Over a backend that writes a batch one write after the other, a commit may stop
half way.  Which writes it has made by then depends on the order in which it
walks the staged changes, but some things hold for every order: no key takes a
third value besides its old one and its staged outcome, no write is tried twice,
and no delete is tried when a put is refused.
-/

namespace PathStore

universe u v

/-! ## The writes of a flush -/

namespace Staged

variable {order : FlushOrder} {staged : Staged} {key : Key}

theorem put_mem_batch_iff {value : Value} :
    .put key value ∈ (staged.batch order).writes ↔ staged.puts.get? key = some value := by
  rw [Table.get?_eq_some_iff, ← (order.puts_perm staged.puts.entries).mem_iff]
  simp [Batch.writes, batch]

theorem delete_mem_batch_iff :
    .delete key ∈ (staged.batch order).writes ↔ key ∈ staged.deletes := by
  rw [KeySet.mem_def, ← (order.deletes_perm staged.deletes.members).mem_iff]
  simp [Batch.writes, batch]

/-- A flush writes no key twice. -/
theorem OneWay.nodup_batch (oneWay : staged.OneWay) (order : FlushOrder) :
    ((staged.batch order).writes.map Write.key).Nodup := by
  have puts_nodup : ((order.puts staged.puts.entries).map Prod.fst).Nodup :=
    ((order.puts_perm staged.puts.entries).map Prod.fst).nodup_iff.mpr staged.puts.nodup
  have deletes_nodup : (order.deletes staged.deletes.members).Nodup :=
    (order.deletes_perm staged.deletes.members).nodup_iff.mpr staged.deletes.nodup
  have keys_eq : (staged.batch order).writes.map Write.key =
      (order.puts staged.puts.entries).map Prod.fst ++ order.deletes staged.deletes.members := by
    simp [Batch.writes, batch, Write.key, Function.comp_def]
  rw [keys_eq, List.nodup_append]
  refine ⟨puts_nodup, deletes_nodup, ?_⟩
  rintro put isPut deleted isDeleted rfl
  rcases List.mem_map.mp isPut with ⟨entry, walked, rfl⟩
  have found := Table.get?_eq_some_iff.mpr ((order.puts_perm staged.puts.entries).mem_iff.mp walked)
  rw [oneWay _ ((order.deletes_perm staged.deletes.members).mem_iff.mp isDeleted)] at found
  cases found

/-- Each write of a flush is the staged outcome of its key. -/
theorem OneWay.outcome?_eq_some_iff (oneWay : staged.OneWay) (order : FlushOrder)
    {outcome : Option Value} :
    staged.outcome? key = some outcome ↔
      ∃ change ∈ (staged.batch order).writes, change.key = key ∧ change.outcome = outcome := by
  rw [← latest?_batch order, Write.latest?_eq_some_iff_of_nodup (oneWay.nodup_batch order)]

/-- A refused write of a flush is a staged put or a staged delete. -/
theorem exists_covered_iff {refusals : Refusals} :
    (∃ change ∈ (staged.batch order).writes, refusals.covers change = true) ↔
      (∃ key value, staged.puts.get? key = some value ∧ refusals.puts key = true) ∨
        ∃ key ∈ staged.deletes, refusals.deletes key = true := by
  constructor
  · rintro ⟨change, member, covered⟩
    cases change with
    | put key value => exact .inl ⟨key, value, put_mem_batch_iff.mp member, covered⟩
    | delete key => exact .inr ⟨key, delete_mem_batch_iff.mp member, covered⟩
  · rintro (⟨key, value, found, covered⟩ | ⟨key, pending, covered⟩)
    · exact ⟨.put key value, put_mem_batch_iff.mpr found, covered⟩
    · exact ⟨.delete key, delete_mem_batch_iff.mpr pending, covered⟩

end Staged

namespace Refusals

variable {refusals : Refusals} {writes : List Write} {key : Key} {change : Write}

theorem mem_of_mem_admitted (member : change ∈ refusals.admitted writes) :
    change ∈ writes ∧ refusals.covers change = false :=
  ⟨(List.takeWhile_subset _) member, by simpa using List.mem_takeWhile_imp member⟩

/-- If no key is written twice, each admitted write is the last of its key. -/
theorem latest?_admitted_eq_some_iff (nodup : (writes.map Write.key).Nodup)
    {outcome : Option Value} :
    Write.latest? (refusals.admitted writes) key = some outcome ↔
      ∃ change ∈ refusals.admitted writes, change.key = key ∧ change.outcome = outcome :=
  Write.latest?_eq_some_iff_of_nodup (((List.takeWhile_sublist _).map Write.key).nodup nodup)

/-- The key of a refused write is not written at all. -/
theorem latest?_admitted_of_covers (nodup : (writes.map Write.key).Nodup)
    (member : change ∈ writes) (covered : refusals.covers change = true) :
    Write.latest? (refusals.admitted writes) change.key = none := by
  rw [Write.latest?_eq_none_iff]
  intro written
  rcases List.mem_map.mp written with ⟨other, isAdmitted, same_key⟩
  rcases mem_of_mem_admitted isAdmitted with ⟨otherMember, free⟩
  rw [List.inj_on_of_nodup_map nodup otherMember member same_key, covered] at free
  cases free

end Refusals

/-! ## What a commit may leave -/

/-- What a commit of staged changes leaves of a backend that refuses some of
its writes, and the calls that it makes on the way. -/
structure PartlyFlushed (staged : Staged) (refusals : Refusals)
    (before after : Key → Except StoreError (Option Value)) (result : Except StoreError Unit)
    (calls : List LoggedCall) : Prop where
  /-- The commit fails exactly if some staged change is refused. -/
  error_iff : (∃ error, result = .error error) ↔
    (∃ key value, staged.puts.get? key = some value ∧ refusals.puts key = true) ∨
      ∃ key ∈ staged.deletes, refusals.deletes key = true
  old_or_staged : ∀ key, after key = before key ∨
    ∃ outcome, staged.outcome? key = some outcome ∧ after key = .ok outcome
  unstaged : ∀ key, staged.outcome? key = none → after key = before key
  refused_put : ∀ key value, staged.puts.get? key = some value → refusals.puts key = true →
    after key = before key
  refused_delete : ∀ key ∈ staged.deletes, refusals.deletes key = true → after key = before key
  /-- All staged puts are made if none of them is refused. -/
  puts_made : (∀ key value, staged.puts.get? key = some value → refusals.puts key = false) →
    ∀ key value, staged.puts.get? key = some value → after key = .ok (some value)
  attempted_staged : ∀ call ∈ calls, staged.outcome? call.1.key = some call.1.outcome
  attempted_once : (calls.map fun call => call.1.key).Nodup
  /-- No delete is tried if a staged put is refused. -/
  no_delete : ∀ key value, staged.puts.get? key = some value → refusals.puts key = true →
    ∀ deleted, .delete deleted ∉ calls.map Prod.fst

theorem Ends.partlyFlushed {staged : Staged} (oneWay : staged.OneWay) {order : FlushOrder}
    {refusals : Refusals} {before after : Key → Except StoreError (Option Value)}
    {result : Except StoreError Unit} {calls : List LoggedCall}
    (ends : Ends refusals (staged.batch order).writes result calls)
    (reads : ∀ key, after key =
      (Write.latest? (refusals.admitted (staged.batch order).writes) key).elim (before key)
        .ok) :
    PartlyFlushed staged refusals before after result calls := by
  have nodup := oneWay.nodup_batch order
  have unwritten : ∀ change ∈ (staged.batch order).writes, refusals.covers change = true →
      after change.key = before change.key := by
    intro change member covered
    rw [reads, Refusals.latest?_admitted_of_covers nodup member covered]
    rfl
  have old_or_staged : ∀ key, after key = before key ∨
      ∃ outcome, staged.outcome? key = some outcome ∧ after key = .ok outcome := by
    intro key
    rw [reads]
    cases written : Write.latest? (refusals.admitted (staged.batch order).writes) key with
    | none => exact .inl rfl
    | some outcome =>
        rcases (Refusals.latest?_admitted_eq_some_iff nodup).mp written with
          ⟨change, member, isKey, isOutcome⟩
        have listed := (Refusals.mem_of_mem_admitted member).1
        exact .inr ⟨outcome,
          (oneWay.outcome?_eq_some_iff order).mpr ⟨change, listed, isKey, isOutcome⟩, rfl⟩
  have attempted : ∀ call ∈ calls, call.1 ∈ (staged.batch order).writes := fun call member =>
    ends.attempted_isPrefix.subset (List.mem_map_of_mem member)
  constructor
  case error_iff => exact ends.exists_error_iff.trans Staged.exists_covered_iff
  case old_or_staged => exact old_or_staged
  case unstaged =>
    intro key unstaged
    rcases old_or_staged key with old | ⟨outcome, isStaged, _⟩
    · exact old
    · rw [unstaged] at isStaged
      cases isStaged
  case refused_put =>
    intro key value found covered
    exact unwritten (.put key value) (Staged.put_mem_batch_iff.mpr found) covered
  case refused_delete =>
    intro key pending covered
    exact unwritten (.delete key) (Staged.delete_mem_batch_iff.mpr pending) covered
  case puts_made =>
    intro free key value found
    have listed : (key, value) ∈ order.puts staged.puts.entries :=
      (order.puts_perm _).mem_iff.mpr (Table.get?_eq_some_iff.mp found)
    have admitted : Write.put key value ∈ refusals.admitted (staged.batch order).writes := by
      rw [Batch.writes, Refusals.admitted_append]
      · exact List.mem_append_left _ (List.mem_map.mpr ⟨(key, value), listed, rfl⟩)
      · intro change member
        rcases List.mem_map.mp member with ⟨entry, walked, rfl⟩
        exact free entry.1 entry.2
          (Table.get?_eq_some_iff.mpr ((order.puts_perm _).mem_iff.mp walked))
    have last : Write.latest? (refusals.admitted (staged.batch order).writes) key =
        some (some value) :=
      (Refusals.latest?_admitted_eq_some_iff nodup).mpr ⟨_, admitted, rfl, rfl⟩
    rw [reads, last]
    rfl
  case attempted_staged =>
    intro call member
    exact (oneWay.outcome?_eq_some_iff order).mpr ⟨call.1, attempted call member, rfl, rfl⟩
  case attempted_once =>
    have keys := ends.attempted_isPrefix.sublist.map Write.key
    rw [List.map_map] at keys
    exact keys.nodup nodup
  case no_delete =>
    intro key value found covered deleted tried
    have listed : (key, value) ∈ order.puts staged.puts.entries :=
      (order.puts_perm _).mem_iff.mpr (Table.get?_eq_some_iff.mp found)
    have refused : ∃ change ∈ (staged.batch order).puts.map fun entry => Write.put entry.1 entry.2,
        refusals.covers change = true :=
      ⟨.put key value, List.mem_map.mpr ⟨(key, value), listed, rfl⟩, covered⟩
    -- The calls end with a refused put, so they are calls of puts only.
    have early := (ends.of_append refused).attempted_isPrefix.subset tried
    rcases List.mem_map.mp early with ⟨entry, _, isPut⟩
    cases isPut

/-! ## Stacks over another backend -/

namespace Stack

variable {σ : Type u} {τ : Type v}

/-- The same overlays over what becomes of the backend. -/
def mapBackend (change : σ → τ) : Stack σ → Stack τ
  | base store => base (change store)
  | overlay staged below => overlay staged (below.mapBackend change)

theorem mapBackend_beneath (change : σ → τ) (stack : Stack σ)
    (overlays : List (Option Staged)) :
    (stack.beneath overlays).mapBackend change =
      (stack.mapBackend change).beneath overlays := by
  induction overlays with
  | nil => rfl
  | cons staged rest ih => exact congrArg (overlay staged) ih

theorem mapBackend_idle (change : σ → τ) (store : σ) (depth : Nat) :
    (idle store depth).mapBackend change = idle (change store) depth := by
  induction depth with
  | zero => rfl
  | succ depth ih => exact congrArg (overlay none) ih

/-- A batch for a backend under idle overlays comes to the backend as it is. -/
theorem writeBatch_idle [Backend σ] (store : σ) (depth : Nat) (batch : Batch) :
    (idle store depth).writeBatch batch =
      (Backend.writeBatch store batch).map fun after => idle after depth := by
  induction depth with
  | zero => rfl
  | succ depth ih =>
      rw [idle, writeBatch, ih]
      rfl

end Stack

/-! ## The step -/

namespace Session

variable {σ : Type u}

/-- The session with a fresh log of the single writes that come to its
backend. -/
def logged (session : Session σ) : Session (Logged σ) :=
  ⟨session.stack.mapBackend .fresh, session.counters⟩

/-- The session without the log. -/
def unlogged (session : Session (Logged σ)) : Session σ :=
  ⟨session.stack.mapBackend Logged.store, session.counters⟩

theorem stack_logged {session : Session σ} {store : Stack σ} {overlays : List (Option Staged)}
    (stack_eq : session.stack = store.beneath overlays) :
    session.logged.stack = (store.mapBackend .fresh).beneath overlays := by
  rw [logged, stack_eq, Stack.mapBackend_beneath]

end Session

section

variable {σ : Type u} [Backend σ] [SelectiveBackend σ]

open SelectiveBackend

/-- A batch over idle overlays is written as single writes, and alike with and
without a log. -/
theorem exists_writeBatch_idle (store : σ) (depth : Nat) (batch : Batch) :
    ∃ result logged,
      (Stack.idle (Logged.fresh store) depth).writeBatch batch = ⟨result, .idle logged depth⟩ ∧
      (Stack.idle store depth).writeBatch batch = ⟨result, .idle logged.store depth⟩ ∧
      Ends (refusals store) batch.writes result logged.calls ∧
      ∀ key, Backend.read logged.store key =
        (Write.latest? ((refusals store).admitted batch.writes) key).elim
          (Backend.read store key) .ok := by
  rcases exists_each_write batch.writes store with ⟨result, logged, withLog, without, ends, reads⟩
  refine ⟨result, logged, ?_, ?_, ends, reads⟩
  · rw [Stack.writeBatch_idle, show Backend.writeBatch (Logged.fresh store) batch = _ from withLog]
    rfl
  · rw [Stack.writeBatch_idle, writeBatch_eq, without]
    rfl

variable {session : Session σ} {store : σ} {depth : Nat} {overlays : List (Option Staged)}

/-- A commit over idle overlays flushes its changes as far as they are not
refused. -/
theorem exists_step_commit {staged : Staged} (oneWay : staged.OneWay)
    (stack_eq : session.stack =
      (Stack.overlay (some staged) (.idle store depth)).beneath overlays)
    (order : FlushOrder) :
    ∃ result after logged,
      session.step (.call (depth + 1) (.commit order)) = some (.done result, after) ∧
      session.logged.step (.call (depth + 1) (.commit order)) = some (.done result, logged) ∧
      logged.unlogged = after ∧
      PartlyFlushed staged (refusals store) (Backend.read store)
        (Backend.read after.stack.backend) result logged.stack.backend.calls ∧
      after.stack.stagedAt (depth + 1) = none := by
  rcases exists_writeBatch_idle store depth (staged.batch order) with
    ⟨result, logged, withLog, without, ends, reads⟩
  have logged_eq := Session.stack_logged stack_eq
  rw [Stack.mapBackend, Stack.mapBackend_idle] at logged_eq
  have plain := Session.step_commit stack_eq order
  have noted := Session.step_commit logged_eq order
  rw [without, Stack.depth_idle] at plain
  rw [withLog, Stack.depth_idle] at noted
  refine ⟨result, _, _, plain, noted, ?_, ?_, ?_⟩
  · rw [Session.unlogged, Stack.mapBackend_beneath, Stack.mapBackend, Stack.mapBackend_idle]
    rfl
  · simpa [Stack.backend] using ends.partlyFlushed oneWay reads
  · simpa using Stack.stagedAt_own none (.idle logged.store depth) overlays

/-- A batch for idle overlays is written as far as it is not refused. -/
theorem exists_step_batch (stack_eq : session.stack = (Stack.idle store depth).beneath overlays)
    (batch : Batch) :
    ∃ result after logged,
      session.step (.call depth (.batch batch)) = some (.done result, after) ∧
      session.logged.step (.call depth (.batch batch)) = some (.done result, logged) ∧
      logged.unlogged = after ∧
      Ends (refusals store) batch.writes result logged.stack.backend.calls ∧
      Logged.accepted logged.stack.backend.calls = (refusals store).admitted batch.writes ∧
      ∀ key, Backend.read after.stack.backend key =
        Write.replay .ok (Backend.read store) (Logged.accepted logged.stack.backend.calls) key := by
  rcases exists_writeBatch_idle store depth batch with
    ⟨result, logged, withLog, without, ends, reads⟩
  have logged_eq := Session.stack_logged stack_eq
  rw [Stack.mapBackend_idle] at logged_eq
  have plain := Session.step_beneath stack_eq (.batch batch)
  have noted := Session.step_beneath logged_eq (.batch batch)
  rw [Action.perform, without, Stack.depth_idle] at plain
  rw [Action.perform, withLog, Stack.depth_idle] at noted
  refine ⟨result, _, _, plain, noted, ?_, ?_, ?_, ?_⟩
  · rw [Session.unlogged, Stack.mapBackend_beneath]
    simp [Action.answer, Stack.mapBackend_idle, Session.logged]
  · simpa [Action.answer] using ends
  · simpa [Action.answer] using ends.accepted_eq
  · intro key
    rw [Write.replay_eq_latest?]
    simpa [Action.answer, ends.accepted_eq] using reads key

/-- A commit that reaches a backend which refuses some writes fails exactly if
one of its changes is refused, and leaves every key with its old value or its
staged outcome, whatever order the changes are walked in.  The overlay is idle
afterwards.  Of a batch that reaches the backend as it is, the writes before the
first refused one are made, and the answer is that refusal. -/
theorem commit_partial {session : Session σ} (reached : session.Reached) :
    (∀ layer staged order, session.stack.stagedAt layer = some staged →
      session.stack.nearestTracking layer = 0 →
      ∃ result after logged,
        session.step (.call layer (.commit order)) = some (.done result, after) ∧
        session.logged.step (.call layer (.commit order)) = some (.done result, logged) ∧
        logged.unlogged = after ∧
        PartlyFlushed staged (refusals session.stack.backend)
          (Backend.read session.stack.backend) (Backend.read after.stack.backend) result
          logged.stack.backend.calls ∧
        after.stack.stagedAt layer = none) ∧
    (∀ layer batch, layer ≤ session.stack.depth →
      session.stack.nearestTracking (layer + 1) = 0 →
      ∃ result after logged,
        session.step (.call layer (.batch batch)) = some (.done result, after) ∧
        session.logged.step (.call layer (.batch batch)) = some (.done result, logged) ∧
        logged.unlogged = after ∧
        Ends (refusals session.stack.backend) batch.writes result logged.stack.backend.calls ∧
        Logged.accepted logged.stack.backend.calls =
          batch.writes.takeWhile
            (fun change => !(refusals session.stack.backend).covers change) ∧
        ∀ key, Backend.read after.stack.backend key =
          Write.replay .ok (Backend.read session.stack.backend)
            (Logged.accepted logged.stack.backend.calls) key) := by
  constructor
  · intro layer staged order tracking nearest
    have oneWay := reached.oneWay tracking
    rcases Stack.exists_of_stagedAt_eq_some tracking with ⟨below, overlays, rfl, stack_eq⟩
    rw [stack_eq, Stack.nearestTracking_beneath_overlay] at nearest
    have backend_eq : session.stack.backend = below.backend := by
      rw [stack_eq, Stack.backend_beneath]
      rfl
    rw [Stack.eq_idle_of_landing nearest] at stack_eq
    rw [backend_eq]
    exact exists_step_commit oneWay stack_eq order
  · intro layer batch within nearest
    rcases Stack.exists_of_le_depth within with ⟨store, overlays, rfl, stack_eq⟩
    rw [stack_eq, Stack.nearestTracking_beneath (Nat.le_refl _),
      Stack.nearestTracking_eq_landing] at nearest
    have backend_eq : session.stack.backend = store.backend := by
      rw [stack_eq, Stack.backend_beneath]
    rw [Stack.eq_idle_of_landing nearest] at stack_eq
    rw [backend_eq]
    exact exists_step_batch stack_eq batch

end

/-- One of two staged puts is refused, so the staged delete is never tried. -/
theorem commit_partial_readOnly :
    let store : SelectiveStore :=
      ⟨Table.empty.insert ⟨[3]⟩ [30], [⟨[2]⟩], [], "read only", []⟩
    let steps : List Step :=
      [.call 2 .start, .call 2 (.write (.put ⟨[1]⟩ [10])), .call 2 (.write (.put ⟨[2]⟩ [20])),
        .call 2 (.write (.delete ⟨[3]⟩))]
    let staged := Staged.empty.recordAll [.put ⟨[1]⟩ [10], .put ⟨[2]⟩ [20], .delete ⟨[3]⟩]
    let session : Session SelectiveStore :=
      ⟨.overlay (some staged) (.overlay none (.base store)), .zero⟩
    ((Session.mk (.idle store 2) .zero).run steps).map Prod.snd = some session ∧
      session.Reached ∧ session.stack.stagedAt 2 = some staged ∧
      session.stack.nearestTracking 2 = 0 ∧
      ∃ result after logged,
        session.step (.call 2 (.commit .latestFirst)) = some (.done result, after) ∧
        session.logged.step (.call 2 (.commit .latestFirst)) = some (.done result, logged) ∧
        logged.unlogged = after ∧
        PartlyFlushed staged (SelectiveBackend.refusals store) (Backend.read store)
          (Backend.read after.stack.backend) result logged.stack.backend.calls ∧
        after.stack.stagedAt 2 = none := by
  intro store steps staged session
  have reached : session.Reached := ⟨store, 2, .zero, steps, _, rfl⟩
  have tracking : session.stack.stagedAt 2 = some staged := rfl
  exact ⟨rfl, reached, tracking, rfl, (commit_partial reached).1 2 staged .latestFirst tracking rfl⟩

end PathStore
