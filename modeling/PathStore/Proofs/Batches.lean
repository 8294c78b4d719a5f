import Mathlib.Data.Set.Card
import PathStore.Proofs.Backends

/-!
# What a batch means to every store

A batch is filled by additions in any order, and a key may be added many times
and both ways.  It means the same to every store: a key that was ever added as a
delete is absent afterwards, any other key that was put has its last value, and
all other keys read as before.  That holds whether the store writes the batch
under one lock, as one group of changes or write by write, and whether the batch
reaches it directly, through a hidden backend or through idle overlays; an
overlay with an open transaction reads the same on top of what it read.
-/

namespace PathStore

universe u

/-! ## What additions settle -/

namespace Write

/-- The values that a list of writes puts under a key, in order. -/
def valuesPut (writes : List Write) (key : Key) : List Value :=
  writes.filterMap fun
    | put written value => if written = key then some value else none
    | delete _ => none

/-- What a key reads as after a batch with these additions: it is absent if one
of them deletes it, and otherwise it has the last value that is put, or reads as
before. -/
def settled (additions : List Write) (key : Key)
    (before : Except StoreError (Option Value)) : Except StoreError (Option Value) :=
  if delete key ∈ additions then .ok none
  else (valuesPut additions key).getLast?.elim before fun value => .ok (some value)

theorem valuesPut_concat_put (writes : List Write) (written : Key) (value : Value) (key : Key) :
    valuesPut (writes ++ [put written value]) key =
      if written = key then valuesPut writes key ++ [value] else valuesPut writes key := by
  by_cases same : written = key <;> simp [valuesPut, same]

theorem valuesPut_concat_delete (writes : List Write) (deleted key : Key) :
    valuesPut (writes ++ [delete deleted]) key = valuesPut writes key := by
  simp [valuesPut]

end Write

namespace Batch

theorem ofWrites_concat (writes : List Write) (change : Write) :
    ofWrites (writes ++ [change]) = (ofWrites writes).add change := by
  simp [ofWrites]

/-- The deletes of a batch are those that were added, before puts or after. -/
theorem mem_deletes_ofWrites {additions : List Write} {key : Key} :
    key ∈ (ofWrites additions).deletes ↔ .delete key ∈ additions := by
  induction additions using List.reverseRecOn with
  | nil => simp [ofWrites, empty]
  | append_singleton writes change ih =>
      rw [ofWrites_concat]
      cases change with
      | put written value => simp [add, ih]
      | delete deleted => simp [add, ih]

/-- The puts of a batch leave the last value that was added under a key. -/
theorem latest?_puts_ofWrites (additions : List Write) (key : Key) :
    Write.latest? ((ofWrites additions).puts.map fun entry => .put entry.1 entry.2) key =
      (Write.valuesPut additions key).getLast?.map some := by
  induction additions using List.reverseRecOn with
  | nil => rfl
  | append_singleton writes change ih =>
      rw [ofWrites_concat]
      cases change with
      | put written value =>
          rw [add, List.map_append, Write.latest?_append, ih, Write.valuesPut_concat_put]
          simp only [List.map_cons, List.map_nil, Write.latest?_singleton]
          by_cases same : written = key <;> simp [same, Write.key, Write.outcome]
      | delete deleted =>
          rw [Write.valuesPut_concat_delete]
          exact ih

/-- The last writes of a batch are what its additions settle. -/
theorem latest?_ofWrites (additions : List Write) (key : Key)
    (before : Except StoreError (Option Value)) :
    (Write.latest? (ofWrites additions).writes key).elim before .ok =
      Write.settled additions key before := by
  rw [latest?_writes, latest?_puts_ofWrites, Write.settled]
  by_cases deleted : .delete key ∈ additions
  · simp [mem_deletes_ofWrites, deleted]
  · simp only [mem_deletes_ofWrites, deleted, if_false]
    cases (Write.valuesPut additions key).getLast? <;> rfl

end Batch

/-! ## Keys that are present -/

/-- A set has as many members as a list that names each of them once. -/
theorem ncard_eq_length {α : Type u} [DecidableEq α] {members : Set α} {named : List α}
    (nodup : named.Nodup) (mem_iff : ∀ member, member ∈ members ↔ member ∈ named) :
    members.ncard = named.length := by
  have members_eq : members = ↑named.toFinset := by
    ext member
    rw [mem_iff, Finset.mem_coe, List.mem_toFinset]
  rw [members_eq, Set.ncard_coe_finset, List.toFinset_card_of_nodup nodup]

/-- The number of keys of a table is the number of its entries. -/
theorem Table.ncard_isSome_get? {α : Type u} {β : Type*} [DecidableEq α] (table : Table α β) :
    {key | (table.get? key).isSome}.ncard = table.size := by
  have mem_iff : ∀ key, key ∈ {key | (table.get? key).isSome} ↔ key ∈ table.keys :=
    fun _ => Table.mem_keys_iff.symm
  rw [ncard_eq_length table.nodup mem_iff]
  exact List.length_map _

section

variable {σ : Type u} [Backend σ]

/-- The keys that read as present. -/
def presentKeys (store : σ) : Set Key :=
  {key | ∃ value, Backend.read store key = .ok (some value)}

/-- A store that reads its keys from pairs has as many of them present as there
are pairs. -/
theorem ncard_presentKeys {store : σ} {pairs : Pairs}
    (reads : ∀ key, Backend.read store key = .ok (pairs.get? key)) :
    (presentKeys store).ncard = pairs.size := by
  have present_eq : presentKeys store = {key | (pairs.get? key).isSome} := by
    ext key
    simp [presentKeys, reads, Option.isSome_iff_exists]
  rw [present_eq, Table.ncard_isSome_get?]

/-- A batch with these additions is accepted by the store, and every key then
reads as they settle it. -/
def TakesBatch (store : σ) (additions : List Write) : Prop :=
  (Backend.writeBatch store (.ofWrites additions)).result = .ok () ∧
    ∀ key, Backend.read (Backend.writeBatch store (.ofWrites additions)).store key =
      Write.settled additions key (Backend.read store key)

/-- A backend that refuses no batch takes every batch as it is meant. -/
theorem takesBatch [ReliableBackend σ] (store : σ) (additions : List Write) :
    TakesBatch store additions := by
  constructor
  · exact ReliableBackend.writeBatch_result store _
  · intro key
    rw [ReliableBackend.read_writeBatch, Batch.latest?_ofWrites]

/-- A hidden backend takes a batch as the backend itself does. -/
theorem TakesBatch.hidden {store : σ} {additions : List Write}
    (takes : TakesBatch store additions) : TakesBatch (AnyStore.mk store) additions :=
  ⟨takes.1, takes.2⟩

/-- An open transaction takes every batch, whatever the backend below it. -/
theorem takesBatch_tracking (staged : Staged) (below : Stack σ) (additions : List Write) :
    TakesBatch (Stack.overlay (some staged) below) additions := by
  constructor
  · rfl
  · intro key
    rw [← Batch.latest?_ofWrites]
    exact Stack.read_tracking_recordAll staged below _ key

end

/-- A backend whose single writes are those of a map and are never refused, and
that writes a batch one write after the other. -/
class SingleWriteBackend (σ : Type u) [Backend σ] : Prop where
  write_result : ∀ (store : σ) (change : Write), (Backend.write store change).result = .ok ()
  read_write : ∀ (store : σ) (change : Write) (key : Key),
    Backend.read (Backend.write store change).store key =
      if change.key = key then .ok change.outcome else Backend.read store key
  writeBatch_eq : ∀ (store : σ) (batch : Batch),
    Backend.writeBatch store batch = Outcome.each Backend.write batch.writes store

theorem SingleWriteBackend.reliable {σ : Type u} [Backend σ] [SingleWriteBackend σ] :
    ReliableBackend σ :=
  .of_singleWrites write_result read_write writeBatch_eq

instance : SingleWriteBackend SingleWriteStore where
  write_result _ _ := rfl
  read_write store change key := Pairs.ok_get?_write store.pairs change key
  writeBatch_eq _ _ := rfl

/-! ## The main result -/

/-- Every store gives a batch the same meaning: a memory store, a tree, a store
that writes one by one and the same store behind a hidden backend, an idle
overlay over any of them at any height, and an open transaction over any backend
at all.  A store of pairs has then as many pairs as keys read as present. -/
theorem writeBatch_settles (additions : List Write) :
    (∀ store : MemoryStore, TakesBatch store additions ∧
      let after := (Backend.writeBatch store (.ofWrites additions)).store
      (presentKeys after).ncard = after.pairs.size) ∧
    (∀ tree : TreeStore, TakesBatch tree additions ∧
      let after := (Backend.writeBatch tree (.ofWrites additions)).store
      (presentKeys after).ncard = after.pairs.size) ∧
    (∀ store : SingleWriteStore, TakesBatch store additions ∧
      let after := (Backend.writeBatch store (.ofWrites additions)).store
      (presentKeys after).ncard = after.pairs.size) ∧
    (∀ (σ : Type u) [Backend σ] [SingleWriteBackend σ] (store : σ),
      TakesBatch store additions ∧ TakesBatch (AnyStore.mk store) additions) ∧
    (∀ (σ : Type u) [Backend σ] [ReliableBackend σ] (below : Stack σ),
      TakesBatch (Stack.overlay none below) additions) ∧
    ∀ (σ : Type u) [Backend σ] (staged : Staged) (below : Stack σ),
      TakesBatch (Stack.overlay (some staged) below) additions := by
  refine ⟨?memory, ?tree, ?single, ?default, ?idle, ?tracking⟩
  case memory => exact fun store => ⟨takesBatch store additions, ncard_presentKeys fun _ => rfl⟩
  case tree => exact fun tree => ⟨takesBatch tree additions, ncard_presentKeys fun _ => rfl⟩
  case single => exact fun store => ⟨takesBatch store additions, ncard_presentKeys fun _ => rfl⟩
  case default =>
    intro σ _ _ store
    have := SingleWriteBackend.reliable (σ := σ)
    have takes := takesBatch store additions
    exact ⟨takes, takes.hidden⟩
  case idle => exact fun σ _ _ below => takesBatch (Stack.overlay none below) additions
  case tracking => exact fun σ _ staged below => takesBatch_tracking staged below additions

/-- A key that is put twice, one that is deleted and then put, and one that is
only deleted, in a store that writes one by one, the same store hidden, and an
idle overlay over a tree. -/
theorem writeBatch_settles_conflicts :
    let additions : List Write :=
      [.put ⟨[1]⟩ [10], .delete ⟨[2]⟩, .put ⟨[1]⟩ [11], .put ⟨[2]⟩ [20], .delete ⟨[3]⟩]
    let pairs : Pairs := Table.empty.insert ⟨[3]⟩ [30]
    [⟨[1]⟩, ⟨[2]⟩, ⟨[3]⟩, ⟨[4]⟩].map (fun key => Write.settled additions key (.ok (some [0]))) =
        [.ok (some [11]), .ok none, .ok none, .ok (some [0])] ∧
      SingleWriteBackend SingleWriteStore ∧ ReliableBackend TreeStore ∧
      TakesBatch (SingleWriteStore.mk pairs) additions ∧
      TakesBatch (AnyStore.mk (SingleWriteStore.mk pairs)) additions ∧
      TakesBatch (Stack.overlay none (.base (TreeStore.mk pairs))) additions := by
  intro additions pairs
  obtain ⟨_, _, _, default, idle, _⟩ := writeBatch_settles additions
  obtain ⟨single, hidden⟩ := default SingleWriteStore ⟨pairs⟩
  exact ⟨rfl, inferInstance, inferInstance, single, hidden, idle TreeStore (.base ⟨pairs⟩)⟩

end PathStore
