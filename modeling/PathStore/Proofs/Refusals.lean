import PathStore.Proofs.Backends
import PathStore.Proofs.Journal
import PathStore.Proofs.Replay

/-!
# Backends that refuse some writes

A selective backend refuses to put some keys and to delete some keys, and has
no batch write of its own: the writes of a batch are made one by one until one
of them is refused.  So the writes that it accepts are those before the first
that it refuses.  A log of the single writes shows which calls are made, and
how each of them is answered.
-/

namespace PathStore

universe u

/-- Keys that may not be put and keys that may not be deleted. -/
structure Refusals where
  puts : Key → Bool
  deletes : Key → Bool

namespace Refusals

/-- The write is among the refused ones. -/
def covers (refusals : Refusals) : Write → Bool
  | .put key _ => refusals.puts key
  | .delete key => refusals.deletes key

/-- The longest beginning of a list of writes in which none is refused. -/
def admitted (refusals : Refusals) (writes : List Write) : List Write :=
  writes.takeWhile fun change => !refusals.covers change

theorem admitted_append {refusals : Refusals} {made : List Write}
    (free : ∀ change ∈ made, refusals.covers change = false) (rest : List Write) :
    refusals.admitted (made ++ rest) = made ++ refusals.admitted rest :=
  List.takeWhile_append_of_pos (by simpa using free)

theorem admitted_cons_of_covers {refusals : Refusals} {change : Write}
    (refused : refusals.covers change = true) (rest : List Write) :
    refusals.admitted (change :: rest) = [] :=
  List.takeWhile_cons_of_neg (by simp [refused])

end Refusals

/-- A backend that writes a batch one write after the other, and refuses the
same writes all the time.  A refused write changes nothing. -/
class SelectiveBackend (σ : Type u) [Backend σ] where
  refusals : σ → Refusals
  writeBatch_eq : ∀ (store : σ) (batch : Batch),
    Backend.writeBatch store batch = Outcome.each Backend.write batch.writes store
  refusals_write : ∀ (store : σ) (change : Write),
    refusals (Backend.write store change).store = refusals store
  write_refused : ∀ (store : σ) (change : Write), (refusals store).covers change = true →
    (∃ error, (Backend.write store change).result = .error error) ∧
      ReadsAlike (Backend.write store change).store store
  write_accepted : ∀ (store : σ) (change : Write), (refusals store).covers change = false →
    (Backend.write store change).result = .ok () ∧
      ∀ key, Backend.read (Backend.write store change).store key =
        if change.key = key then .ok change.outcome else Backend.read store key

instance : SelectiveBackend SelectiveStore where
  refusals store := ⟨fun key => key ∈ store.unputtable, fun key => key ∈ store.undeletable⟩
  writeBatch_eq _ _ := rfl
  refusals_write store change := by
    simp only [Backend.write, SelectiveStore.perform]
    split <;> rfl
  write_refused store change refused := by
    have barred : store.admits change = false := by
      cases change <;> simpa [SelectiveStore.admits, Refusals.covers] using refused
    simp only [Backend.write, SelectiveStore.perform, barred]
    exact ⟨⟨_, rfl⟩, fun _ => rfl⟩
  write_accepted store change accepted := by
    have admitted : store.admits change = true := by
      cases change <;> simpa [SelectiveStore.admits, Refusals.covers] using accepted
    simp only [Backend.write, SelectiveStore.perform, admitted]
    exact ⟨rfl, Pairs.ok_get?_write store.pairs change⟩

/-! ## A log of single writes -/

/-- A single write with its answer. -/
abbrev LoggedCall := Write × Except StoreError Unit

/-- A store and the single writes that it was asked for, in order. -/
structure Logged (σ : Type u) where
  store : σ
  calls : List LoggedCall

namespace Logged

variable {σ : Type u}

/-- A store that has not been asked for a write yet. -/
def fresh (store : σ) : Logged σ := ⟨store, []⟩

/-- The store has no batch write of its own, so that a batch comes as its single
writes. -/
instance [Backend σ] : Backend (Logged σ) where
  read logged key := Backend.read logged.store key
  write logged change :=
    let outcome := Backend.write logged.store change
    ⟨outcome.result, ⟨outcome.store, logged.calls ++ [(change, outcome.result)]⟩⟩
  close logged := (Backend.close logged.store).map fun store => ⟨store, logged.calls⟩

/-- The writes that were accepted. -/
def accepted (calls : List LoggedCall) : List Write :=
  (calls.filter fun call => call.2.isOk).map Prod.fst

/-- The log changes nothing of what single writes answer and leave. -/
theorem each_write [Backend σ] (writes : List Write) (logged : Logged σ) :
    Outcome.each Backend.write writes logged.store =
      (Outcome.each Backend.write writes logged).map store :=
  Outcome.each_map (fun _ _ => rfl) writes logged

end Logged

/-! ## How writes end -/

/-- How single writes end at a store with refusals: all of them are accepted, or
the first one that is refused is the last call that is made, and its answer is
the answer to all. -/
inductive Ends (refusals : Refusals) (writes : List Write) :
    Except StoreError Unit → List LoggedCall → Prop
  | accepted (free : ∀ change ∈ writes, refusals.covers change = false) :
      Ends refusals writes (.ok ()) (writes.map fun change => (change, .ok ()))
  | stopped {made left : List Write} {change : Write} {error : StoreError}
      (parts : writes = made ++ change :: left)
      (free : ∀ earlier ∈ made, refusals.covers earlier = false)
      (refused : refusals.covers change = true) :
      Ends refusals writes (.error error)
        ((made.map fun earlier => (earlier, .ok ())) ++ [(change, .error error)])

namespace Ends

variable {refusals : Refusals} {writes : List Write} {result : Except StoreError Unit}
  {calls : List LoggedCall}

/-- An accepted write in front is one more call. -/
theorem cons {change : Write} (free : refusals.covers change = false)
    (ends : Ends refusals writes result calls) :
    Ends refusals (change :: writes) result ((change, .ok ()) :: calls) := by
  cases ends with
  | accepted others => exact accepted (List.forall_mem_cons.mpr ⟨free, others⟩)
  | stopped parts others refused =>
      exact stopped (congrArg (change :: ·) parts) (List.forall_mem_cons.mpr ⟨free, others⟩)
        refused

/-- The writes fail exactly if one of them is refused. -/
theorem exists_error_iff (ends : Ends refusals writes result calls) :
    (∃ error, result = .error error) ↔ ∃ change ∈ writes, refusals.covers change = true := by
  cases ends with
  | accepted free => simpa using free
  | @stopped made left change error parts free refused =>
      have member : change ∈ writes := parts ▸ List.mem_append_right _ List.mem_cons_self
      exact iff_of_true ⟨error, rfl⟩ ⟨change, member, refused⟩

/-- The accepted calls are those of the longest beginning without a refused
write. -/
theorem accepted_eq (ends : Ends refusals writes result calls) :
    Logged.accepted calls = refusals.admitted writes := by
  have keep : ∀ made : List Write,
      Logged.accepted (made.map fun change => (change, .ok ())) = made := by
    intro made
    simp [Logged.accepted, Except.isOk, Except.toBool, List.filter_map, Function.comp_def]
  cases ends with
  | accepted free =>
      have whole := Refusals.admitted_append free []
      rw [List.append_nil] at whole
      rw [keep, whole, Refusals.admitted, List.takeWhile_nil, List.append_nil]
  | @stopped made left change error parts free refused =>
      rw [parts, Refusals.admitted_append free, Refusals.admitted_cons_of_covers refused,
        List.append_nil, Logged.accepted, List.filter_append, List.map_append,
        ← Logged.accepted, keep]
      simp [Except.isOk, Except.toBool]

/-- The calls are made in the order of the writes, from the first one on. -/
theorem attempted_isPrefix (ends : Ends refusals writes result calls) :
    calls.map Prod.fst <+: writes := by
  cases ends with
  | accepted free => simp [Function.comp_def]
  | stopped parts free refused => simp [parts, Function.comp_def]

/-- What stands behind a refused write is never looked at. -/
theorem of_append {first second : List Write}
    (refused : ∃ change ∈ first, refusals.covers change = true)
    (ends : Ends refusals (first ++ second) result calls) : Ends refusals first result calls := by
  rcases refused with ⟨barred, member, covered⟩
  cases ends with
  | accepted free =>
      rw [free barred (List.mem_append_left _ member)] at covered
      cases covered
  | @stopped made left change error parts free refused =>
      -- A write that was made is not refused, so the calls stop within the first part.
      have notMade : barred ∉ made := by
        intro early
        rw [free barred early] at covered
        cases covered
      rcases List.append_eq_append_iff.mp parts with ⟨more, rfl, _⟩ | ⟨more, rfl, behind⟩
      · exact absurd (List.mem_append_left _ member) notMade
      · cases more with
        | nil =>
            rw [List.append_nil] at member
            exact absurd member notMade
        | cons next more =>
            cases behind
            exact stopped rfl free refused

end Ends

section

variable {σ : Type u} [Backend σ] [SelectiveBackend σ]

open SelectiveBackend

/-- Single writes at a selective backend end at the first one that it
refuses. -/
theorem exists_calls_each_write (writes : List Write) (logged : Logged σ) :
    ∃ calls, (Outcome.each Backend.write writes logged).store.calls = logged.calls ++ calls ∧
      Ends (refusals logged.store) writes (Outcome.each Backend.write writes logged).result
        calls := by
  induction writes generalizing logged with
  | nil => exact ⟨[], (List.append_nil _).symm, .accepted fun _ none => nomatch none⟩
  | cons change rest ih =>
      have kept := refusals_write logged.store change
      let next := (Backend.write logged.store change).store
      cases covered : (refusals logged.store).covers change with
      | true =>
          rcases (write_refused logged.store change covered).1 with ⟨error, refused⟩
          have answer : Backend.write logged change =
              ⟨.error error, ⟨next, logged.calls ++ [(change, .error error)]⟩⟩ := by
            rw [← refused]
            rfl
          rw [Outcome.each, answer]
          have first : change :: rest = [] ++ change :: rest := rfl
          exact ⟨_, rfl, .stopped first (fun _ none => nomatch none) covered⟩
      | false =>
          have accepted := (write_accepted logged.store change covered).1
          have answer : Backend.write logged change =
              ⟨.ok (), ⟨next, logged.calls ++ [(change, .ok ())]⟩⟩ := by
            rw [← accepted]
            rfl
          rcases ih ⟨next, logged.calls ++ [(change, .ok ())]⟩ with ⟨calls, logs, ends⟩
          rw [kept] at ends
          rw [Outcome.each, answer]
          exact ⟨(change, .ok ()) :: calls, by simpa using logs, ends.cons covered⟩

/-- What single writes leave is what the accepted ones make of the store. -/
theorem read_each_write_admitted (writes : List Write) (store : σ) (key : Key) :
    Backend.read (Outcome.each Backend.write writes store).store key =
      (Write.latest? ((refusals store).admitted writes) key).elim (Backend.read store key)
        .ok := by
  induction writes generalizing store with
  | nil => rfl
  | cons change rest ih =>
      rw [Outcome.each]
      cases covered : (refusals store).covers change with
      | true =>
          rcases write_refused store change covered with ⟨⟨error, refused⟩, alike⟩
          rw [Refusals.admitted_cons_of_covers covered]
          rcases answer : Backend.write store change with ⟨result, next⟩
          rw [answer] at refused alike
          cases refused
          exact alike key
      | false =>
          rcases write_accepted store change covered with ⟨accepted, settled⟩
          have kept := refusals_write store change
          have front := Refusals.admitted_append (List.forall_mem_singleton.mpr covered) rest
          rcases answer : Backend.write store change with ⟨result, next⟩
          rw [answer] at accepted settled kept
          cases accepted
          rw [← List.singleton_append, front, Write.latest?_append, Write.latest?_singleton]
          change Backend.read (Outcome.each Backend.write rest next).store key = _
          rw [ih next, kept, settled]
          cases Write.latest? ((refusals store).admitted rest) key with
          | some outcome => rfl
          | none => by_cases same : change.key = key <;> simp [same]

/-- Single writes run alike with and without a log: they end at the first one
that is refused, and leave what the ones before it make of the store. -/
theorem exists_each_write (writes : List Write) (store : σ) :
    ∃ result logged,
      Outcome.each Backend.write writes (Logged.fresh store) = ⟨result, logged⟩ ∧
      Outcome.each Backend.write writes store = ⟨result, logged.store⟩ ∧
      Ends (refusals store) writes result logged.calls ∧
      ∀ key, Backend.read logged.store key =
        (Write.latest? ((refusals store).admitted writes) key).elim (Backend.read store key)
          .ok := by
  rcases exists_calls_each_write writes (Logged.fresh store) with ⟨calls, logs, ends⟩
  have same := Logged.each_write writes (Logged.fresh store)
  have reads := read_each_write_admitted writes store
  rw [show store = (Logged.fresh store).store from rfl, same] at reads
  rw [Logged.fresh, List.nil_append] at logs
  exact ⟨_, _, rfl, same, logs ▸ ends, reads⟩

end

end PathStore
