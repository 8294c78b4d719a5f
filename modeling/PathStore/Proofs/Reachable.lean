import PathStore.Proofs.Refinement

/-!
# What every open transaction has recorded

A backend may refuse what it likes: which writes reach which transaction is
settled by the steps alone.  So the logs of a stack of journals, over whatever
backend, tell what the transactions of a stack have staged.  `Stack.Records`
relates the two and says nothing of the backends, the answers or the counters;
every step keeps it.  In particular no transaction that can be reached has a key
staged both ways.
-/

namespace PathStore

universe u v

/-- No key is pending both as a put and as a delete. -/
def Staged.OneWay (staged : Staged) : Prop :=
  ∀ key ∈ staged.deletes, staged.puts.get? key = none

/-- The log of a layer, if it is an overlay with an open transaction: the
writes that have reached the transaction since it was started. -/
def Journal.logAt {τ : Type v} : Journal τ → Nat → Option (List Write)
  | base _, _ => none
  | overlay log below, layer => if layer = below.depth + 1 then log else below.logAt layer

/-- A stack has the transactions of a journal, each with what the log comes
to. -/
inductive Stack.Records {σ : Type u} {τ : Type v} : Stack σ → Journal τ → Prop
  | base (store : σ) (other : τ) : Records (.base store) (.base other)
  | idle {below : Stack σ} {journal : Journal τ} (records : below.Records journal) :
      Records (.overlay none below) (.overlay none journal)
  | tracking {staged : Staged} {log : List Write} {below : Stack σ} {journal : Journal τ}
      (recorded : staged.Follows log) (records : below.Records journal) :
      Records (.overlay (some staged) below) (.overlay (some log) journal)

namespace Stack.Records

variable {σ : Type u} {τ : Type v} {stack : Stack σ} {journal : Journal τ}

theorem depth_eq (records : stack.Records journal) : stack.depth = journal.depth := by
  induction records with
  | base store other => rfl
  | idle records ih => exact congrArg (· + 1) ih
  | tracking recorded records ih => exact congrArg (· + 1) ih

/-- The same layers have a transaction open, with what their logs come to. -/
theorem stagedAt (records : stack.Records journal) (layer : Nat) :
    Option.Rel Staged.Follows (stack.stagedAt layer) (journal.logAt layer) := by
  induction records with
  | base store other =>
      rw [stagedAt_base, Journal.logAt]
      exact .none
  | idle records ih =>
      rw [stagedAt_overlay, Journal.logAt, records.depth_eq]
      split
      · exact .none
      · exact ih
  | tracking recorded records ih =>
      rw [stagedAt_overlay, Journal.logAt, records.depth_eq]
      split
      · exact .some recorded
      · exact ih

theorem idle_stack (store : σ) (other : τ) (depth : Nat) :
    (Stack.idle store depth).Records (Journal.idle other depth) := by
  induction depth with
  | zero => exact base store other
  | succ depth ih => exact idle ih

/-! ## What each call keeps -/

variable [Backend σ] [Backend τ]

theorem write (records : stack.Records journal) (change : Write) :
    (stack.write change).store.Records (journal.write change).store := by
  induction records with
  | base store other => exact base _ _
  | idle records ih => exact idle ih
  | tracking recorded records ih => exact tracking (recorded.record change) records

/-- A batch is recorded as the replay of any list with the same last writes. -/
theorem writeBatch (records : stack.Records journal) {batch : Batch} {writes : List Write}
    (same : ∀ key, Write.latest? batch.writes key = Write.latest? writes key) :
    (stack.writeBatch batch).store.Records (journal.replay writes).store := by
  induction records with
  | base store other =>
      rw [Journal.replay_base]
      exact base _ _
  | idle records ih =>
      rw [Journal.replay_idle]
      exact idle ih
  | tracking recorded records ih =>
      rw [Journal.replay_tracking]
      exact tracking (recorded.recordAll_of_latest? same) records

theorem close (records : stack.Records journal) :
    stack.close.store.Records journal.close.store := by
  induction records with
  | base store other => exact base _ _
  | idle records ih => exact idle ih
  | tracking recorded records ih => exact idle ih

end Stack.Records

/-- The stack behind an answer records the journal behind another. -/
def AnswersRecord {σ : Type u} {τ : Type v} {α β : Type} (first : α × Stack σ)
    (second : β × Journal τ) : Prop :=
  first.2.Records second.2

namespace Stack.Records

variable {σ : Type u} {τ : Type v} [Backend σ] [Backend τ] {stack : Stack σ}
  {journal : Journal τ}

/-- However the flush of a batch file is answered, its writes have reached the
store below. -/
theorem apply_idle {below : Stack σ} {lower : Journal τ} (records : below.Records lower)
    (order : FlushOrder) (operations : List Operation) (dryRun : Bool)
    (counters others : Counters) :
    Option.Rel AnswersRecord
      ((Action.apply order operations dryRun).perform counters (.overlay none below))
      ((Journal.overlay none lower).apply operations dryRun others) := by
  rw [Action.perform_apply, Journal.apply, ← Overlay.idle]
  cases decoded : Operation.decodeAll operations with
  | error error =>
      rw [Overlay.apply_of_decode_error order operations dryRun counters decoded]
      exact .some (idle records)
  | ok writes =>
      cases dryRun with
      | true =>
          rw [Overlay.apply_rehearsal order operations counters decoded]
          exact .some (idle records)
      | false =>
          have staged := Staged.follows_empty.recordAll writes
          have flushed := records.writeBatch (staged.latest?_batch order)
          rw [List.nil_append] at flushed
          rw [Overlay.apply_flush order operations counters decoded]
          simp only [Bool.false_eq_true, if_false]
          generalize below.writeBatch ((Staged.empty.recordAll writes).batch order) = written
            at flushed ⊢
          generalize lower.replay writes = replayed at flushed ⊢
          rcases written with ⟨_ | _, store⟩ <;> rcases replayed with ⟨_ | _, journal⟩ <;>
            exact .some (idle flushed)

/-- Every call keeps the relation. -/
theorem perform (records : stack.Records journal) (counters others : Counters)
    (action : Action) :
    Option.Rel AnswersRecord (action.perform counters stack)
      (journal.perform others action) := by
  cases action with
  | get key => exact .some records
  | write change => exact .some (records.write change)
  | batch batch => exact .some (records.writeBatch fun _ => rfl)
  | close => exact .some records.close
  | start =>
      cases records with
      | base store other => exact .none
      | idle records => exact .some (tracking Staged.follows_empty records)
      | tracking recorded records => exact .some (tracking recorded records)
  | commit order =>
      cases records with
      | base store other => exact .none
      | idle records => exact .some (idle records)
      | tracking recorded records =>
          exact .some (idle (records.writeBatch (recorded.latest?_batch order)))
  | rollback =>
      cases records with
      | base store other => exact .none
      | idle records => exact .some (idle records)
      | tracking recorded records => exact .some (idle records)
  | getBelow key =>
      cases records with
      | base store other => exact .none
      | idle records => exact .some (idle records)
      | tracking recorded records => exact .some (tracking recorded records)
  | apply order operations dryRun =>
      cases records with
      | base store other => exact .none
      | idle records => exact apply_idle records order operations dryRun counters others
      | tracking recorded records => exact .some (tracking recorded records)

/-- So does every call to a layer. -/
theorem onLayer (records : stack.Records journal) (layer : Nat) (counters others : Counters)
    (action : Action) :
    Option.Rel AnswersRecord
      (stack.onLayer layer fun store => action.perform counters store)
      (journal.onLayer layer fun journal => journal.perform others action) := by
  induction records with
  | base store other =>
      rw [Stack.onLayer, Journal.onLayer]
      split
      · exact (base store other).perform counters others action
      · exact .none
  | idle records ih =>
      rw [Stack.onLayer, Journal.onLayer, records.depth_eq]
      split
      · exact (idle records).perform counters others action
      · exact rel_map ih fun inside => idle inside
  | tracking recorded records ih =>
      rw [Stack.onLayer, Journal.onLayer, records.depth_eq]
      split
      · exact (tracking recorded records).perform counters others action
      · exact rel_map ih fun inside => tracking recorded inside

end Stack.Records

/-! ## Sessions -/

namespace Session

variable {σ : Type u} {τ : Type v} [Backend σ] [Backend τ] {session : Session σ}
  {reference : JournalSession τ}

/-- Every step keeps the relation, and both sessions perform it or neither. -/
theorem records_step (records : session.stack.Records reference.journal) (step : Step) :
    Option.Rel (fun first second => first.2.stack.Records second.2.journal)
      (session.step step) (reference.step step) := by
  rcases session with ⟨stack, counters⟩
  rcases reference with ⟨journal, others⟩
  cases step with
  | call layer action => exact rel_map (records.onLayer layer counters others action) id
  | wrap => exact .some (.idle records)
  | unwrap =>
      cases records with
      | base store other => exact .none
      | idle records => exact .some records
      | tracking recorded records => exact .some records

/-- Every run keeps the relation. -/
theorem records_run (records : session.stack.Records reference.journal) (steps : List Step) :
    Option.Rel (fun first second => first.2.stack.Records second.2.journal)
      (session.run steps) (reference.run steps) := by
  induction steps generalizing session reference with
  | nil => exact .some records
  | cons step rest ih =>
      apply rel_bind (records_step records step)
      intro first second stepped
      exact rel_bind (ih stepped) fun ran => .some ran

/-- A run is recorded by a run of journals over any backend. -/
theorem exists_records_of_run {store : σ} {depth : Nat} {counters : Counters}
    {steps : List Step} {replies : List Reply}
    (ran : (Session.mk (.idle store depth) counters).run steps = some (replies, session))
    (other : τ) :
    ∃ answers reference,
      (JournalSession.mk (.idle other depth) counters).run steps = some (answers, reference) ∧
        session.stack.Records reference.journal := by
  have begun : (Session.mk (.idle store depth) counters).stack.Records
      (JournalSession.mk (.idle other depth) counters).journal :=
    Stack.Records.idle_stack store other depth
  have kept := records_run begun steps
  rw [ran] at kept
  generalize (JournalSession.mk (.idle other depth) counters).run steps = referred at kept
  cases kept with
  | @some _ answer records => exact ⟨answer.1, answer.2, rfl, records⟩

/-- A session is reached from a backend under idle overlays. -/
def Reached (session : Session σ) : Prop :=
  ∃ store depth counters steps replies,
    (Session.mk (.idle store depth) counters).run steps = some (replies, session)

/-- No transaction that can be reached has a key staged both ways. -/
theorem Reached.oneWay (reached : session.Reached) {layer : Nat} {staged : Staged}
    (tracking : session.stack.stagedAt layer = some staged) : staged.OneWay := by
  rcases reached with ⟨store, depth, counters, steps, replies, ran⟩
  rcases exists_records_of_run ran store with ⟨_, reference, _, records⟩
  have recorded := records.stagedAt layer
  rw [tracking] at recorded
  generalize reference.journal.logAt layer = log at recorded
  cases recorded with
  | some follows => exact follows.disjoint

end Session

end PathStore
