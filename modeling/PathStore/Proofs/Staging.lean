import PathStore.Proofs.LastWrite

/-!
# Staged changes and the writes they come from

An open transaction keeps two unordered collections and forgets the order of
the writes it was given.  `Staged.Follows` relates it to the list of those
writes: no key is pending twice, and each key is pending as its last write.
Recording a write, a list of writes or the flush of another transaction keeps
the relation, and it fixes the numbers of pending puts and deletes.
-/

namespace PathStore

namespace Write

/-- The keys whose last write is a put, each once. -/
def keysPut (writes : List Write) : List Key :=
  (writes.map key).dedup.filter fun key => (latest? writes key).join.isSome

/-- The keys whose last write is a delete, each once. -/
def keysDeleted (writes : List Write) : List Key :=
  (writes.map key).dedup.filter fun key => latest? writes key = some none

theorem mem_keysPut_iff {writes : List Write} {key : Key} :
    key ∈ keysPut writes ↔ ∃ value, latest? writes key = some (some value) := by
  have written : (latest? writes key).join.isSome → key ∈ writes.map Write.key := by
    intro isPut
    by_contra unwritten
    rw [latest?_eq_none_iff.mpr unwritten] at isPut
    cases isPut
  rw [keysPut, List.mem_filter, List.mem_dedup, and_iff_right_of_imp written,
    Option.isSome_iff_exists]
  simp only [Option.join_eq_some_iff]

theorem mem_keysDeleted_iff {writes : List Write} {key : Key} :
    key ∈ keysDeleted writes ↔ latest? writes key = some none := by
  have written : latest? writes key = some none → key ∈ writes.map Write.key := by
    intro isDelete
    by_contra unwritten
    rw [latest?_eq_none_iff.mpr unwritten] at isDelete
    cases isDelete
  simp only [keysDeleted, List.mem_filter, List.mem_dedup, decide_eq_true_eq,
    and_iff_right_of_imp written]

theorem nodup_keysPut (writes : List Write) : (keysPut writes).Nodup :=
  (List.nodup_dedup _).filter _

theorem nodup_keysDeleted (writes : List Write) : (keysDeleted writes).Nodup :=
  (List.nodup_dedup _).filter _

end Write

namespace Staged

/-- The staged changes are what a list of writes comes to: no key is pending
both ways, and each key is pending as its last write. -/
structure Follows (staged : Staged) (log : List Write) : Prop where
  disjoint : ∀ key ∈ staged.deletes, staged.puts.get? key = none
  outcome : ∀ key, staged.outcome? key = Write.latest? log key

/-- A new transaction follows the empty list. -/
theorem follows_empty : empty.Follows [] where
  disjoint _ _ := rfl
  outcome _ := rfl

/-- Recording a write takes its key out of the other collection. -/
theorem disjoint_record {staged : Staged}
    (disjoint : ∀ key ∈ staged.deletes, staged.puts.get? key = none) (change : Write) :
    ∀ key ∈ (staged.record change).deletes, (staged.record change).puts.get? key = none := by
  intro key pending
  cases change with
  | put written value =>
      rcases (KeySet.mem_erase _ _ _).mp pending with ⟨wasPending, other⟩
      rw [record, Table.get?_insert, if_neg (Ne.symm other)]
      exact disjoint key wasPending
  | delete written =>
      rw [record, Table.get?_erase]
      by_cases same : written = key
      · rw [if_pos same]
      · rw [if_neg same]
        rcases (KeySet.mem_insert _ _ _).mp pending with equal | wasPending
        · exact absurd equal.symm same
        · exact disjoint key wasPending

theorem disjoint_recordAll {staged : Staged}
    (disjoint : ∀ key ∈ staged.deletes, staged.puts.get? key = none) (writes : List Write) :
    ∀ key ∈ (staged.recordAll writes).deletes,
      (staged.recordAll writes).puts.get? key = none := by
  induction writes generalizing staged with
  | nil => exact disjoint
  | cons change rest ih => exact ih (disjoint_record disjoint change)

namespace Follows

variable {staged : Staged} {log : List Write}

/-- Any list of writes with the same last writes may be recorded in place of
the one that the log gains. -/
theorem recordAll_of_latest? (follows : staged.Follows log) {writes gained : List Write}
    (alike : ∀ key, Write.latest? writes key = Write.latest? gained key) :
    (staged.recordAll writes).Follows (log ++ gained) where
  disjoint := disjoint_recordAll follows.disjoint writes
  outcome key := by
    rw [outcome?_recordAll, follows.outcome, alike, Write.latest?_append]

/-- Recording writes appends them to the log. -/
theorem recordAll (follows : staged.Follows log) (writes : List Write) :
    (staged.recordAll writes).Follows (log ++ writes) :=
  follows.recordAll_of_latest? fun _ => rfl

theorem record (follows : staged.Follows log) (change : Write) :
    (staged.record change).Follows (log ++ [change]) :=
  follows.recordAll [change]

/-- A flush has the last writes of the log, although it hands over all puts
before all deletes and in any order. -/
theorem latest?_batch (follows : staged.Follows log) (order : FlushOrder) (key : Key) :
    Write.latest? (staged.batch order).writes key = Write.latest? log key := by
  rw [Staged.latest?_batch, follows.outcome]

/-- A key is pending as a put exactly if its last write is one. -/
theorem get?_puts_eq_some_iff (follows : staged.Follows log) {key : Key} {value : Value} :
    staged.puts.get? key = some value ↔ Write.latest? log key = some (some value) := by
  rw [← follows.outcome, outcome?]
  by_cases deleted : key ∈ staged.deletes
  · simp [deleted, follows.disjoint key deleted]
  · simp [deleted]

/-- A key is pending as a delete exactly if its last write is one. -/
theorem mem_deletes_iff (follows : staged.Follows log) {key : Key} :
    key ∈ staged.deletes ↔ Write.latest? log key = some none := by
  rw [← follows.outcome, outcome?]
  by_cases deleted : key ∈ staged.deletes <;> simp [deleted]

theorem size_puts (follows : staged.Follows log) :
    staged.puts.size = (Write.keysPut log).length := by
  have same_keys : staged.puts.keys.Perm (Write.keysPut log) := by
    apply (List.perm_ext_iff_of_nodup staged.puts.nodup (Write.nodup_keysPut log)).mpr
    intro key
    change key ∈ staged.puts.keys ↔ _
    rw [Table.mem_keys_iff, Write.mem_keysPut_iff, Option.isSome_iff_exists]
    exact exists_congr fun value => follows.get?_puts_eq_some_iff
  rw [← same_keys.length_eq, Table.keys, List.length_map, Table.size]

theorem size_deletes (follows : staged.Follows log) :
    staged.deletes.size = (Write.keysDeleted log).length := by
  have same_keys : staged.deletes.members.Perm (Write.keysDeleted log) := by
    apply (List.perm_ext_iff_of_nodup staged.deletes.nodup (Write.nodup_keysDeleted log)).mpr
    intro key
    rw [Write.mem_keysDeleted_iff]
    exact follows.mem_deletes_iff
  exact same_keys.length_eq

end Follows

end Staged

end PathStore
