import PathStore.Overlay.Staged
import PathStore.Store.Tree
import Mathlib.Data.List.Dedup

/-!
# The last write of a key

Of a list of writes only the last one of each key counts.  `Write.latest?` is
that view of a list.  Everything that takes writes one by one (pairs, staged
changes, change groups) answers through it, and so does the batch that a flush
hands over, in whatever order it walks the staged changes.
-/

namespace PathStore

universe u v

namespace Write

/-- The outcome that the last write of a key in a list gives it. -/
def latest? (writes : List Write) (key : Key) : Option (Option Value) :=
  writes.reverse.findSome? fun change =>
    if change.key = key then some change.outcome else none

@[simp]
theorem latest?_nil (key : Key) : latest? [] key = none :=
  rfl

/-- Later writes hide earlier ones. -/
theorem latest?_append (first second : List Write) (key : Key) :
    latest? (first ++ second) key = (latest? second key).or (latest? first key) := by
  simp [latest?]

theorem latest?_singleton (change : Write) (key : Key) :
    latest? [change] key = if change.key = key then some change.outcome else none := by
  by_cases same : change.key = key <;> simp [latest?, same]

theorem latest?_cons (change : Write) (rest : List Write) (key : Key) :
    latest? (change :: rest) key =
      (latest? rest key).or (if change.key = key then some change.outcome else none) := by
  rw [← latest?_singleton, ← latest?_append]
  rfl

/-- A key has a last write exactly if it is written. -/
theorem latest?_eq_none_iff {writes : List Write} {key : Key} :
    latest? writes key = none ↔ key ∉ writes.map Write.key := by
  simp [latest?]

/-- If no key is written twice, then every write is the last of its key. -/
theorem latest?_eq_some_iff_of_nodup {writes : List Write}
    (nodup : (writes.map Write.key).Nodup) {key : Key} {outcome : Option Value} :
    latest? writes key = some outcome ↔
      ∃ change ∈ writes, change.key = key ∧ change.outcome = outcome := by
  induction writes with
  | nil => simp
  | cons change rest ih =>
      rw [List.map_cons, List.nodup_cons] at nodup
      rw [latest?_cons]
      by_cases same : change.key = key
      · subst same
        have unwritten : latest? rest change.key = none := latest?_eq_none_iff.mpr nodup.1
        have notInRest : ∀ other ∈ rest, other.key ≠ change.key := by
          intro other member equal
          exact nodup.1 (List.mem_map.mpr ⟨other, member, equal⟩)
        simp only [unwritten, Option.none_or, if_true, Option.some.injEq, List.mem_cons,
          exists_eq_or_imp, true_and]
        constructor
        · exact Or.inl
        · rintro (equal | ⟨other, member, equal, _⟩)
          · exact equal
          · exact absurd equal (notInRest other member)
      · simp only [same, if_false, Option.or_none, ih nodup.2, List.mem_cons, exists_eq_or_imp,
          false_and, false_or]

/-- A list of deletes settles the keys it names. -/
theorem latest?_deletes (keys : List Key) (key : Key) :
    latest? (keys.map .delete) key = if key ∈ keys then some none else none := by
  induction keys with
  | nil => rfl
  | cons first rest ih =>
      rw [List.map_cons, latest?_cons, ih]
      by_cases inRest : key ∈ rest
      · simp [inRest]
      · by_cases same : first = key
        · simp [inRest, same, Write.key, Write.outcome]
        · simp [inRest, same, Ne.symm same, Write.key]

/-- A state that takes writes one by one, each of which settles its own key
and leaves the others alone, ends with the last write of each key. -/
theorem foldl_eq_latest? {τ : Type u} {ρ : Type v} (key : Key) (view : τ → ρ)
    (settle : Option Value → ρ) (take : τ → Write → τ)
    (view_take : ∀ state change,
      view (take state change) =
        if change.key = key then settle change.outcome else view state)
    (writes : List Write) (state : τ) :
    view (writes.foldl take state) = (latest? writes key).elim (view state) settle := by
  induction writes generalizing state with
  | nil => rfl
  | cons change rest ih =>
      rw [List.foldl_cons, ih, view_take, latest?_cons]
      cases latest? rest key with
      | some outcome => rfl
      | none => by_cases same : change.key = key <;> simp [same]

end Write

/-! ## What a batch stands for -/

namespace Batch

/-- A batch deletes what it names for deletion and puts the rest. -/
theorem latest?_writes (batch : Batch) (key : Key) :
    Write.latest? batch.writes key =
      if key ∈ batch.deletes then some none
      else Write.latest? (batch.puts.map fun entry => .put entry.1 entry.2) key := by
  rw [writes, Write.latest?_append, Write.latest?_deletes]
  by_cases deleted : key ∈ batch.deletes <;> simp [deleted]

end Batch

/-! ## Tables through their entries -/

namespace Table

variable {α : Type u} {β : Type v} [DecidableEq α]

theorem find?_eq_none_iff {entries : List (α × β)} {key : α} :
    find? entries key = none ↔ key ∉ entries.map Prod.fst := by
  induction entries with
  | nil => simp [find?]
  | cons entry rest ih =>
      by_cases same : entry.1 = key
      · simp [find?, same]
      · simp only [find?, same, if_false, ih, List.map_cons, List.mem_cons, Ne.symm same,
          false_or]

/-- With distinct keys, the value of a key is the one that stands beside it. -/
theorem find?_eq_some_iff {entries : List (α × β)}
    (nodup : (entries.map Prod.fst).Nodup) {key : α} {value : β} :
    find? entries key = some value ↔ (key, value) ∈ entries := by
  induction entries with
  | nil => simp [find?]
  | cons entry rest ih =>
      rcases entry with ⟨k, v⟩
      rw [List.map_cons, List.nodup_cons] at nodup
      by_cases same : k = key
      · subst same
        have absent : (k, value) ∉ rest := fun member =>
          nodup.1 (List.mem_map.mpr ⟨(k, value), member, rfl⟩)
        simp [find?, absent, eq_comm]
      · simp [find?, same, Ne.symm same, ih nodup.2]

theorem get?_eq_some_iff {table : Table α β} {key : α} {value : β} :
    table.get? key = some value ↔ (key, value) ∈ table.entries :=
  find?_eq_some_iff table.nodup

/-- A key has a value exactly if it is among the keys. -/
theorem mem_keys_iff {table : Table α β} {key : α} :
    key ∈ table.keys ↔ (table.get? key).isSome := by
  rw [← Option.ne_none_iff_isSome, get?, keys, Ne, find?_eq_none_iff, not_not]

end Table

/-! ## States that take writes one by one -/

namespace Pairs

/-- Written pairs hold the last write of each key. -/
theorem get?_writeAll (pairs : Pairs) (writes : List Write) (key : Key) :
    (pairs.writeAll writes).get? key =
      (Write.latest? writes key).elim (pairs.get? key) id :=
  Write.foldl_eq_latest? key (fun pairs : Pairs => pairs.get? key) id write
    (fun pairs change => get?_write pairs change key) writes pairs

end Pairs

namespace ChangeGroup

/-- A group remembers the last write of each key. -/
theorem get?_ofWrites (writes : List Write) (key : Key) :
    (ofWrites writes).get? key = Write.latest? writes key := by
  have folded := Write.foldl_eq_latest? key (fun group : ChangeGroup => group.get? key) some
    (fun group change => group.insert change.key change.outcome)
    (fun group change => Table.get?_insert group change.key key change.outcome)
    writes Table.empty
  rw [ofWrites, folded]
  cases Write.latest? writes key <;> rfl

theorem get?_foldl_set {changes : List (Key × Option Value)}
    (nodup : (changes.map Prod.fst).Nodup) (pairs : Pairs) (key : Key) :
    (changes.foldl (fun pairs change => pairs.set change.1 change.2) pairs).get? key =
      (Table.find? changes key).elim (pairs.get? key) id := by
  induction changes generalizing pairs with
  | nil => rfl
  | cons change rest ih =>
      rcases change with ⟨k, outcome⟩
      rw [List.map_cons, List.nodup_cons] at nodup
      rw [List.foldl_cons, ih nodup.2, Pairs.get?_set]
      by_cases same : k = key
      · subst same
        have absent : Table.find? rest k = none := Table.find?_eq_none_iff.mpr nodup.1
        simp [Table.find?, absent]
      · simp [Table.find?, same]

/-- Applying a group gives each of its keys the outcome it remembers. -/
theorem get?_apply (group : ChangeGroup) (pairs : Pairs) (key : Key) :
    (group.apply pairs).get? key = (group.get? key).elim (pairs.get? key) id :=
  get?_foldl_set group.nodup pairs key

end ChangeGroup

/-! ## Staged changes -/

namespace Staged

/-- Recorded writes settle their keys by the last write of each. -/
theorem outcome?_recordAll (staged : Staged) (writes : List Write) (key : Key) :
    (staged.recordAll writes).outcome? key =
      (Write.latest? writes key).or (staged.outcome? key) := by
  have folded := Write.foldl_eq_latest? key (fun staged : Staged => staged.outcome? key) some
    record (fun staged change => outcome?_record staged change key) writes staged
  rw [recordAll, folded]
  cases Write.latest? writes key <;> rfl

theorem latest?_flushed_puts (order : FlushOrder) (staged : Staged) (key : Key) :
    Write.latest? ((order.puts staged.puts.entries).map fun entry => .put entry.1 entry.2) key =
      (staged.puts.get? key).map some := by
  have walked := order.puts_perm staged.puts.entries
  have keys_eq : ((order.puts staged.puts.entries).map fun entry =>
      Write.put entry.1 entry.2).map Write.key =
        (order.puts staged.puts.entries).map Prod.fst := by
    simp [Write.key, Function.comp_def]
  have nodup : (((order.puts staged.puts.entries).map fun entry =>
      Write.put entry.1 entry.2).map Write.key).Nodup := by
    rw [keys_eq]
    exact (walked.map Prod.fst).nodup_iff.mpr staged.puts.nodup
  ext outcome
  rw [Write.latest?_eq_some_iff_of_nodup nodup, Option.map_eq_some_iff]
  constructor
  · rintro ⟨change, member, rfl, rfl⟩
    rcases List.mem_map.mp member with ⟨entry, inWalk, rfl⟩
    exact ⟨entry.2, Table.get?_eq_some_iff.mpr (walked.mem_iff.mp inWalk), rfl⟩
  · rintro ⟨value, found, rfl⟩
    have inWalk := walked.mem_iff.mpr (Table.get?_eq_some_iff.mp found)
    exact ⟨.put key value, List.mem_map.mpr ⟨(key, value), inWalk, rfl⟩, rfl, rfl⟩

/-- Whatever order a flush walks in, its batch settles exactly the staged keys,
each by its staged outcome. -/
theorem latest?_batch (order : FlushOrder) (staged : Staged) (key : Key) :
    Write.latest? (staged.batch order).writes key = staged.outcome? key := by
  have deletes_iff : key ∈ order.deletes staged.deletes.members ↔ key ∈ staged.deletes :=
    (order.deletes_perm staged.deletes.members).mem_iff
  rw [Batch.latest?_writes, outcome?, batch, latest?_flushed_puts]
  simp only [deletes_iff]

end Staged

end PathStore
