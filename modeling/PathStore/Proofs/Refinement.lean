import PathStore.Proofs.Backends
import PathStore.Proofs.Journal
import PathStore.Proofs.Layers

/-!
# Overlays behave like journals

An overlay keeps two unordered collections, answers reads from the deletes
first and flushes the puts first, in any order.  Nevertheless a stack of
overlays cannot be told from a stack of journals: `Stack.Follows` relates the
two, every step keeps it and answers alike, and so does every run.
-/

namespace PathStore

universe u

/-! ## Partial answers that agree -/

section Partial

variable {α β γ δ : Type*} {related : α → β → Prop} {later : γ → δ → Prop}
  {first : Option α} {second : Option β}

theorem rel_map {f : α → γ} {g : β → δ} (agree : Option.Rel related first second)
    (next : ∀ {a b}, related a b → later (f a) (g b)) :
    Option.Rel later (first.map f) (second.map g) := by
  cases agree with
  | none => exact .none
  | some inside => exact .some (next inside)

theorem rel_bind {f : α → Option γ} {g : β → Option δ}
    (agree : Option.Rel related first second)
    (next : ∀ {a b}, related a b → Option.Rel later (f a) (g b)) :
    Option.Rel later (first.bind f) (second.bind g) := by
  cases agree with
  | none => exact .none
  | some inside => exact next inside

theorem map_eq_map_of_rel {f : α → γ} {g : β → γ} (agree : Option.Rel related first second)
    (next : ∀ {a b}, related a b → f a = g b) : first.map f = second.map g := by
  cases agree with
  | none => rfl
  | some inside => exact congrArg some (next inside)

end Partial

/-! ## The simulation -/

/-- A stack follows a journal: the same transactions are open, each with what
the log comes to, over backends that read alike. -/
inductive Stack.Follows {σ : Type u} [Backend σ] : Stack σ → Journal σ → Prop
  | base {store other : σ} (alike : ReadsAlike store other) :
      Follows (.base store) (.base other)
  | idle {below : Stack σ} {journal : Journal σ} (follows : below.Follows journal) :
      Follows (.overlay none below) (.overlay none journal)
  | tracking {staged : Staged} {log : List Write} {below : Stack σ} {journal : Journal σ}
      (recorded : staged.Follows log) (follows : below.Follows journal) :
      Follows (.overlay (some staged) below) (.overlay (some log) journal)

/-- Two outcomes agree if they answer alike and leave stores that follow. -/
structure Outcome.Agree {σ : Type u} [Backend σ] (first : Outcome (Stack σ))
    (second : Outcome (Journal σ)) : Prop where
  result : first.result = second.result
  store : first.store.Follows second.store

namespace Stack.Follows

variable {σ : Type u} [Backend σ] {stack : Stack σ} {journal : Journal σ}

theorem depth_eq (follows : stack.Follows journal) : stack.depth = journal.depth := by
  induction follows with
  | base alike => rfl
  | idle follows ih => exact congrArg (· + 1) ih
  | tracking recorded follows ih => exact congrArg (· + 1) ih

theorem read_eq (follows : stack.Follows journal) (key : Key) :
    stack.read key = journal.read key := by
  induction follows with
  | base alike => exact alike key
  | idle follows ih => exact ih
  | tracking recorded follows ih =>
      rw [read_tracking, recorded.outcome, ih]
      rfl

theorem readAt_eq (follows : stack.Follows journal) (layer : Nat) (key : Key) :
    stack.readAt layer key = journal.readAt layer key := by
  induction follows with
  | base alike =>
      rw [readAt, layer?_base, Journal.readAt]
      split
      · exact congrArg some (alike key)
      · rfl
  | idle follows ih =>
      rw [readAt_overlay, Journal.readAt, follows.depth_eq, ih, (idle follows).read_eq]
  | tracking recorded follows ih =>
      rw [readAt_overlay, Journal.readAt, follows.depth_eq, ih,
        (tracking recorded follows).read_eq]

theorem idle_stack (store : σ) (depth : Nat) :
    (Stack.idle store depth).Follows (Journal.idle store depth) := by
  induction depth with
  | zero => exact base fun _ => rfl
  | succ depth ih => exact idle ih

/-! ## What each call keeps -/

section Calls

variable [MapBackend σ]

theorem write (follows : stack.Follows journal) (change : Write) :
    (stack.write change).Agree (journal.write change) := by
  induction follows with
  | @base store other alike =>
      constructor
      · exact (ReliableBackend.write_result store change).trans
          (ReliableBackend.write_result other change).symm
      · apply base
        intro key
        rw [ReliableBackend.read_write, ReliableBackend.read_write, alike]
  | idle follows ih => exact ⟨ih.result, idle ih.store⟩
  | tracking recorded follows ih => exact ⟨rfl, tracking (recorded.record change) follows⟩

/-- A batch agrees with the replay of any list that has the same last writes. -/
theorem writeBatch (follows : stack.Follows journal) {batch : Batch} {writes : List Write}
    (same : ∀ key, Write.latest? batch.writes key = Write.latest? writes key) :
    (stack.writeBatch batch).Agree (journal.replay writes) := by
  induction follows with
  | @base store other alike =>
      rw [Journal.replay_base]
      constructor
      · exact (ReliableBackend.writeBatch_result store batch).trans
          (ReliableBackend.each_write_result writes other).symm
      · apply base
        intro key
        rw [ReliableBackend.read_writeBatch, ReliableBackend.read_each_write, same, alike]
  | idle follows ih =>
      rw [Journal.replay_idle]
      exact ⟨ih.result, idle ih.store⟩
  | tracking recorded follows ih =>
      rw [Journal.replay_tracking]
      exact ⟨rfl, tracking (recorded.recordAll_of_latest? same) follows⟩

theorem close (follows : stack.Follows journal) : stack.close.Agree journal.close := by
  induction follows with
  | base alike => exact ⟨MapBackend.close_result alike, base (MapBackend.readsAlike_close alike)⟩
  | idle follows ih => exact ⟨ih.result, idle ih.store⟩
  | tracking recorded follows ih => exact ⟨ih.result, idle ih.store⟩

end Calls

end Stack.Follows

/-- Two answers to a call agree, and the stores behind them follow. -/
def AnswersAgree {σ : Type u} [Backend σ] {α : Type} (first : α × Stack σ)
    (second : α × Journal σ) : Prop :=
  first.1 = second.1 ∧ first.2.Follows second.2

namespace Outcome.Agree

variable {σ : Type u} [Backend σ] {first : Outcome (Stack σ)} {second : Outcome (Journal σ)}

theorem answer (agree : first.Agree second) (counters : Counters) :
    AnswersAgree (Action.answer counters first) (Journal.answer counters second) :=
  ⟨by rw [Action.answer, Journal.answer, agree.result], agree.store⟩

end Outcome.Agree

namespace Stack.Follows

variable {σ : Type u} [Backend σ] [MapBackend σ] {stack : Stack σ} {journal : Journal σ}

/-- A batch file is staged as the log of its writes, and its flush agrees with
the replay of them. -/
theorem apply_idle {below : Stack σ} {lower : Journal σ} (follows : below.Follows lower)
    (order : FlushOrder) (operations : List Operation) (dryRun : Bool) (counters : Counters) :
    Option.Rel AnswersAgree
      ((Action.apply order operations dryRun).perform counters (.overlay none below))
      ((Journal.overlay none lower).apply operations dryRun counters) := by
  rw [Action.perform_apply, Journal.apply, ← Overlay.idle]
  cases decoded : Operation.decodeAll operations with
  | error error =>
      rw [Overlay.apply_of_decode_error order operations dryRun counters decoded]
      exact .some ⟨rfl, idle follows⟩
  | ok writes =>
      cases dryRun with
      | true =>
          rw [Overlay.apply_rehearsal order operations counters decoded]
          exact .some ⟨rfl, idle follows⟩
      | false =>
          have staged := Staged.follows_empty.recordAll writes
          rcases follows.writeBatch (staged.latest?_batch order) with ⟨result_eq, flushed⟩
          rw [List.nil_append] at result_eq flushed
          rw [Overlay.apply_flush order operations counters decoded]
          simp only [Bool.false_eq_true, if_false]
          generalize below.writeBatch ((Staged.empty.recordAll writes).batch order) = written
            at result_eq flushed ⊢
          generalize lower.replay writes = replayed at result_eq flushed ⊢
          rcases written with ⟨result, store⟩
          rcases replayed with ⟨_, journal⟩
          cases result_eq
          cases result with
          | ok done => exact .some ⟨rfl, idle flushed⟩
          | error error => exact .some ⟨rfl, idle flushed⟩

/-- Every call keeps the simulation and answers alike. -/
theorem perform (follows : stack.Follows journal) (counters : Counters) (action : Action) :
    Option.Rel AnswersAgree (action.perform counters stack)
      (journal.perform counters action) := by
  cases action with
  | get key =>
      refine .some ⟨?_, follows⟩
      rw [follows.read_eq]
  | write change => exact .some ((follows.write change).answer counters)
  | batch batch => exact .some ((follows.writeBatch fun _ => rfl).answer counters)
  | close => exact .some (follows.close.answer counters)
  | start =>
      cases follows with
      | base alike => exact .none
      | idle follows => exact .some ⟨rfl, tracking Staged.follows_empty follows⟩
      | tracking recorded follows => exact .some ⟨rfl, tracking recorded follows⟩
  | commit order =>
      cases follows with
      | base alike => exact .none
      | idle follows => exact .some ⟨rfl, idle follows⟩
      | tracking recorded follows =>
          have flushed := follows.writeBatch (recorded.latest?_batch order)
          exact .some ⟨congrArg (fun result => (Reply.done result, counters)) flushed.result,
            idle flushed.store⟩
  | rollback =>
      cases follows with
      | base alike => exact .none
      | idle follows => exact .some ⟨rfl, idle follows⟩
      | tracking recorded follows => exact .some ⟨rfl, idle follows⟩
  | getBelow key =>
      cases follows with
      | base alike => exact .none
      | @idle below lower within =>
          exact .some ⟨congrArg (fun result => (Reply.value result, counters))
            (within.read_eq key), idle within⟩
      | tracking recorded follows =>
          exact .some ⟨congrArg (fun result => (Reply.value result, counters))
            (follows.read_eq key), tracking recorded follows⟩
  | apply order operations dryRun =>
      cases follows with
      | base alike => exact .none
      | idle follows => exact apply_idle follows order operations dryRun counters
      | tracking recorded follows => exact .some ⟨rfl, tracking recorded follows⟩

/-- So does every call to a layer. -/
theorem onLayer (follows : stack.Follows journal) (layer : Nat) (counters : Counters)
    (action : Action) :
    Option.Rel AnswersAgree
      (stack.onLayer layer fun store => action.perform counters store)
      (journal.onLayer layer fun journal => journal.perform counters action) := by
  induction follows with
  | base alike =>
      rw [Stack.onLayer, Journal.onLayer]
      split
      · exact (base alike).perform counters action
      · exact .none
  | idle follows ih =>
      rw [Stack.onLayer, Journal.onLayer, follows.depth_eq]
      split
      · exact (idle follows).perform counters action
      · exact rel_map ih fun agree => ⟨agree.1, idle agree.2⟩
  | tracking recorded follows ih =>
      rw [Stack.onLayer, Journal.onLayer, follows.depth_eq]
      split
      · exact (tracking recorded follows).perform counters action
      · exact rel_map ih fun agree => ⟨agree.1, tracking recorded agree.2⟩

end Stack.Follows

/-! ## Sessions -/

namespace Session

variable {σ : Type u} [Backend σ] [MapBackend σ]

/-- A session follows a session of journals: same counters, and the stack
follows the journal. -/
structure Follows (session : Session σ) (reference : JournalSession σ) : Prop where
  counters : session.counters = reference.counters
  stack : session.stack.Follows reference.journal

variable {session : Session σ} {reference : JournalSession σ}

/-- Every step keeps the simulation and answers alike. -/
theorem Follows.step (follows : session.Follows reference) (step : Step) :
    Option.Rel (fun first second => first.1 = second.1 ∧ first.2.Follows second.2)
      (session.step step) (reference.step step) := by
  rcases session with ⟨stack, counters⟩
  rcases reference with ⟨journal, _⟩
  rcases follows with ⟨rfl, related⟩
  cases step with
  | call layer action =>
      exact rel_map (related.onLayer layer counters action) fun agree =>
        ⟨congrArg Prod.fst agree.1, congrArg Prod.snd agree.1, agree.2⟩
  | wrap => exact .some ⟨rfl, rfl, .idle related⟩
  | unwrap =>
      cases related with
      | base alike => exact .none
      | idle follows => exact .some ⟨rfl, rfl, follows⟩
      | tracking recorded follows => exact .some ⟨rfl, rfl, follows⟩

/-- Every run keeps the simulation and answers alike. -/
theorem Follows.run (follows : session.Follows reference) (steps : List Step) :
    Option.Rel (fun first second => first.1 = second.1 ∧ first.2.Follows second.2)
      (session.run steps) (reference.run steps) := by
  induction steps generalizing session reference with
  | nil => exact .some ⟨rfl, follows⟩
  | cons step rest ih =>
      refine rel_bind (follows.step step) fun stepped => ?_
      refine rel_bind (ih stepped.2) fun ran => ?_
      exact .some ⟨by rw [stepped.1, ran.1], ran.2⟩

/-- What can be seen of a session: its counters, and how each key reads at each
layer. -/
def view (session : Session σ) :
    Counters × (Nat → Key → Option (Except StoreError (Option Value))) :=
  (session.counters, session.stack.readAt)

end Session

/-- What can be seen of a session of journals. -/
def JournalSession.view {σ : Type u} [Backend σ] (session : JournalSession σ) :
    Counters × (Nat → Key → Option (Except StoreError (Option Value))) :=
  (session.counters, session.journal.readAt)

theorem Session.Follows.view_eq {σ : Type u} [Backend σ] {session : Session σ}
    {reference : JournalSession σ} (follows : session.Follows reference) :
    session.view = reference.view := by
  rw [view, JournalSession.view, follows.counters]
  congr 1
  funext layer key
  exact follows.stack.readAt_eq layer key

/-- Over a backend that is a map, overlays cannot be told from overlays that
keep a journal and replay it: from any height, after any steps at any layers and
whatever order each flush walks in, all answers, the counters and the reads of
every key at every layer are the same. -/
theorem run_eq_journal_run {σ : Type u} [Backend σ] [MapBackend σ] (store : σ) (depth : Nat)
    (counters : Counters) (steps : List Step) :
    ((Session.mk (.idle store depth) counters).run steps).map (Prod.map id Session.view) =
      ((JournalSession.mk (.idle store depth) counters).run steps).map
        (Prod.map id JournalSession.view) := by
  have follows : (Session.mk (.idle store depth) counters).Follows
      (JournalSession.mk (.idle store depth) counters) :=
    ⟨rfl, Stack.Follows.idle_stack store depth⟩
  refine map_eq_map_of_rel (follows.run steps) fun {_ _} ran => ?_
  exact Prod.ext ran.1 ran.2.view_eq

/-- Two nested transactions on one key: put and deleted in one batch above,
overwritten between, flushed into each other and written underneath. -/
def nestedTransactions : List Step :=
  [.call 1 .start, .call 1 (.write (.put ⟨[1]⟩ [10])), .call 2 .start,
    .call 2 (.batch ⟨[(⟨[1]⟩, [11])], [⟨[1]⟩]⟩), .call 2 (.write (.put ⟨[2]⟩ [20])),
    .call 1 (.write (.put ⟨[1]⟩ [12])), .call 2 (.commit .latestFirst),
    .call 0 (.write (.put ⟨[1]⟩ [13])), .call 2 (.get ⟨[1]⟩), .call 1 (.commit .latestFirst),
    .call 0 (.get ⟨[1]⟩), .call 2 (.get ⟨[2]⟩), .call 2 .close]

/-- The nested transactions run to their end over every kind of map, and as the
journals do. -/
theorem run_eq_journal_run_nestedTransactions :
    ((Session.mk (.idle MemoryStore.empty 2) .zero).run nestedTransactions).isSome ∧
      ((Session.mk (.idle MemoryStore.empty 2) .zero).run nestedTransactions).map
          (Prod.map id Session.view) =
        ((JournalSession.mk (.idle MemoryStore.empty 2) .zero).run nestedTransactions).map
          (Prod.map id JournalSession.view) ∧
      ((Session.mk (.idle TreeStore.empty 2) .zero).run nestedTransactions).map
          (Prod.map id Session.view) =
        ((JournalSession.mk (.idle TreeStore.empty 2) .zero).run nestedTransactions).map
          (Prod.map id JournalSession.view) ∧
      ((Session.mk (.idle (SingleWriteStore.mk .empty) 2) .zero).run nestedTransactions).map
          (Prod.map id Session.view) =
        ((JournalSession.mk (.idle (SingleWriteStore.mk .empty) 2) .zero).run
            nestedTransactions).map
          (Prod.map id JournalSession.view) := by
  refine ⟨rfl, ?_, ?_, ?_⟩
  · exact run_eq_journal_run MemoryStore.empty 2 .zero nestedTransactions
  · exact run_eq_journal_run TreeStore.empty 2 .zero nestedTransactions
  · exact run_eq_journal_run (SingleWriteStore.mk .empty) 2 .zero nestedTransactions

end PathStore
