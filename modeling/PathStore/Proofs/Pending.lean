import PathStore.Proofs.Reachable

/-!
# What is pending at each layer

The staged changes of an overlay are the last writes of what has reached it
since its transaction was started, by calls of its own or by the flushes of the
layers above it.  The two numbers that it reports count their keys.
-/

namespace PathStore

universe u v

/-- The staged changes are the last writes of a log: no key is pending both as
a put and as a delete, and each is pending as its last write. -/
structure Staged.IsLastOf (staged : Staged) (log : List Write) : Prop where
  disjoint : ∀ key ∈ staged.deletes, staged.puts.get? key = none
  put_iff : ∀ key value,
    staged.puts.get? key = some value ↔ Write.latest? log key = some (some value)
  delete_iff : ∀ key, key ∈ staged.deletes ↔ Write.latest? log key = some none

theorem Staged.Follows.isLastOf {staged : Staged} {log : List Write}
    (follows : staged.Follows log) : staged.IsLastOf log where
  disjoint := follows.disjoint
  put_iff _ _ := follows.get?_puts_eq_some_iff
  delete_iff _ := follows.mem_deletes_iff

/-- What an overlay has pending, by the log of its transaction. -/
def Overlay.Pends {σ : Type u} (top : Overlay σ) : Option (List Write) → Prop
  | none => top.staged = none ∧ top.pendingPuts = 0 ∧ top.pendingDeletes = 0
  | some log => ∃ staged, top.staged = some staged ∧ staged.IsLastOf log ∧
    top.pendingPuts = (Write.keysPut log).length ∧
    top.pendingDeletes = (Write.keysDeleted log).length

theorem Overlay.pends_of_rel {σ : Type u} {top : Overlay σ} {log : Option (List Write)}
    (recorded : Option.Rel Staged.Follows top.staged log) : top.Pends log := by
  rcases top with ⟨staged, below⟩
  cases recorded with
  | none => exact ⟨rfl, rfl, rfl⟩
  | some follows =>
      exact ⟨_, rfl, follows.isLastOf, follows.size_puts, follows.size_deletes⟩

/-- Over any backend, refusing or not, and after any steps at any layers, each
overlay has pending what has reached it since its transaction was started: each
key as its last write, and as many puts and deletes as there are keys whose last
write is one.  An idle overlay has nothing pending.  The log of what has reached
it is kept by journals that make the same steps over a backend of their own, so
what a backend answers has no part in it. -/
theorem pending_eq_last_writes {σ : Type u} {τ : Type v} [Backend σ] [Backend τ] {store : σ}
    {depth : Nat} {counters : Counters} {steps : List Step} {replies : List Reply}
    {session : Session σ}
    (ran : (Session.mk (.idle store depth) counters).run steps = some (replies, session))
    (other : τ) :
    ∃ answers reference,
      (JournalSession.mk (.idle other depth) counters).run steps = some (answers, reference) ∧
        ∀ layer top, (session.stack.layer? layer).bind Stack.top? = some top →
          top.Pends (reference.journal.logAt layer) := by
  rcases Session.exists_records_of_run ran other with ⟨answers, reference, referred, records⟩
  refine ⟨answers, reference, referred, fun layer top isTop => ?_⟩
  have recorded := records.stagedAt layer
  rw [Stack.stagedAt, isTop] at recorded
  exact Overlay.pends_of_rel recorded

/-- Two nested transactions over a store that refuses every batch.  The lower
one gets a batch that holds a key twice and in both parts, the flush of the
upper one, and the writes of a batch file. -/
def cascade : List Step :=
  [.call 1 .start, .call 1 (.batch ⟨[(⟨[1]⟩, [10]), (⟨[2]⟩, [20]), (⟨[1]⟩, [11])], [⟨[1]⟩]⟩),
    .call 2 .start, .call 2 (.write (.delete ⟨[2]⟩)), .call 2 (.write (.put ⟨[3]⟩ [30])),
    .call 2 (.write (.put ⟨[1]⟩ [12])), .call 2 (.commit .latestFirst),
    .call 2 (.apply .latestFirst [.put "03" "ff"] false), .call 2 .start]

/-- The puts of keys 1 and 3 and the delete of key 2 are pending at layer 1,
and the transaction that is open at layer 2 has nothing pending. -/
theorem pending_eq_last_writes_cascade :
    let store : BatchRefusingStore := ⟨.empty, "read only"⟩
    ∃ replies session,
      (Session.mk (.idle store 2) .zero).run cascade = some (replies, session) ∧
      ((session.stack.layer? 1).bind Stack.top?).map
        (fun top => (top.pendingPuts, top.pendingDeletes)) = some (2, 1) ∧
      ∃ answers reference,
        (JournalSession.mk (.idle MemoryStore.empty 2) .zero).run cascade =
          some (answers, reference) ∧
        ∀ layer top, (session.stack.layer? layer).bind Stack.top? = some top →
          top.Pends (reference.journal.logAt layer) := by
  intro store
  refine ⟨_, _, rfl, by decide, ?_⟩
  exact pending_eq_last_writes rfl MemoryStore.empty

end PathStore
