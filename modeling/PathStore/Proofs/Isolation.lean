import PathStore.Proofs.Recorder
import PathStore.Store.Faulty

/-!
# What happens above an open transaction

An open transaction guards the store below it.  Calls that reach its overlay,
or the overlays above it, end in the changes that it stages, unless they close
the store or end the very transaction.  So a run that stays above the
transaction leaves everything below it as it was, and no mutating call gets
there: a recorder in the place of the store below has nothing to record.
-/

namespace PathStore

universe u

/-! ## Steps above a transaction -/

/-- A call to the store at `addressed` leaves the transaction at `layer` open:
it is not a close, and what it ends is another transaction. -/
def Action.Keeps (layer addressed : Nat) : Action → Prop
  | close => False
  | commit _ => layer < addressed
  | rollback => layer < addressed
  | _ => layer ≤ addressed

instance (layer addressed : Nat) : (action : Action) → Decidable (action.Keeps layer addressed)
  | .close => inferInstanceAs (Decidable False)
  | .commit _ | .rollback => inferInstanceAs (Decidable (layer < addressed))
  | .get _ | .write _ | .batch _ | .start | .getBelow _ | .apply .. =>
    inferInstanceAs (Decidable (layer ≤ addressed))

/-- Calls that leave a transaction open address its layer or one above. -/
theorem Action.Keeps.le {layer addressed : Nat} {action : Action}
    (keeps : action.Keeps layer addressed) : layer ≤ addressed := by
  cases action with
  | close => exact keeps.elim
  | commit order => exact Nat.le_of_lt keeps
  | rollback => exact Nat.le_of_lt keeps
  | _ => exact keeps

namespace Step

/-- A step on a stack of `depth` overlays stays above the transaction at
`layer`: it addresses a store that is there, and takes off overlays above the
transaction only. -/
def StaysAbove (layer depth : Nat) : Step → Prop
  | .call addressed action => addressed ≤ depth ∧ action.Keeps layer addressed
  | .wrap => True
  | .unwrap => layer < depth

instance (layer depth : Nat) : (step : Step) → Decidable (step.StaysAbove layer depth)
  | .call addressed action =>
    inferInstanceAs (Decidable (addressed ≤ depth ∧ action.Keeps layer addressed))
  | .wrap => inferInstanceAs (Decidable True)
  | .unwrap => inferInstanceAs (Decidable (layer < depth))

/-- The number of overlays after a step. -/
def depthAfter (depth : Nat) : Step → Nat
  | .call _ _ => depth
  | .wrap => depth + 1
  | .unwrap => depth - 1

end Step

/-- Every step of a run stays above the transaction at `layer`. -/
def StaysAbove (layer : Nat) : Nat → List Step → Prop
  | _, [] => True
  | depth, step :: rest =>
    step.StaysAbove layer depth ∧ StaysAbove layer (step.depthAfter depth) rest

instance StaysAbove.decidable (layer : Nat) :
    (depth : Nat) → (steps : List Step) → Decidable (StaysAbove layer depth steps)
  | _, [] => inferInstanceAs (Decidable True)
  | depth, step :: rest =>
    have := StaysAbove.decidable layer (step.depthAfter depth) rest
    inferInstanceAs (Decidable
      (step.StaysAbove layer depth ∧ StaysAbove layer (step.depthAfter depth) rest))

namespace Stack

variable {σ : Type u}

/-- The layers below `layer` are the very same in two stacks. -/
def SameBelow (layer : Nat) (before after : Stack σ) : Prop :=
  ∀ lower, lower < layer → after.layer? lower = before.layer? lower

/-- A stack of `depth` overlays holds `below` under an open transaction and any
overlays above that. -/
inductive Guards (below : Stack σ) : Nat → Stack σ → Prop where
  | own (staged : Staged) : Guards below (below.depth + 1) (overlay (some staged) below)
  | above (top : Option Staged) {depth : Nat} {store : Stack σ} :
      Guards below depth store → Guards below (depth + 1) (overlay top store)

namespace Guards

variable {below stack : Stack σ} {depth : Nat}

theorem depth_eq (guarded : Guards below depth stack) : stack.depth = depth := by
  induction guarded with
  | own staged => rfl
  | above top _ ih => exact congrArg (· + 1) ih

theorem depth_lt (guarded : Guards below depth stack) : below.depth < depth := by
  induction guarded with
  | own staged => exact Nat.lt_succ_self _
  | above top _ ih => exact Nat.lt_succ_of_lt ih

theorem backend_eq (guarded : Guards below depth stack) : stack.backend = below.backend := by
  induction guarded with
  | own staged => rfl
  | above top _ ih => exact ih

/-- Every overlay with an open transaction guards the store below it. -/
theorem of_beneath (staged : Staged) (below : Stack σ) (overlays : List (Option Staged)) :
    Guards below (overlays.length + (below.depth + 1))
      ((overlay (some staged) below).beneath overlays) := by
  induction overlays with
  | nil =>
      rw [List.length_nil, Nat.zero_add]
      exact own staged
  | cons top rest ih =>
      rw [List.length_cons, Nat.add_right_comm]
      exact above top ih

theorem exists_beneath (guarded : Guards below depth stack) :
    ∃ staged overlays, stack = (overlay (some staged) below).beneath overlays := by
  induction guarded with
  | own staged => exact ⟨staged, [], rfl⟩
  | above top _ ih =>
      rcases ih with ⟨staged, overlays, rfl⟩
      exact ⟨staged, top :: overlays, rfl⟩

/-- The layers below the transaction are those of the store that it guards. -/
theorem layer?_eq (guarded : Guards below depth stack) {lower : Nat}
    (isBelow : lower < below.depth + 1) : stack.layer? lower = below.layer? lower := by
  rcases guarded.exists_beneath with ⟨staged, overlays, rfl⟩
  exact layer?_lower (Nat.le_of_lt_succ isBelow) (some staged) overlays

/-! ## What a guarded store is kept from -/

variable [Backend σ]

theorem write (guarded : Guards below depth stack) (change : Write) :
    Guards below depth (stack.write change).store := by
  induction guarded with
  | own staged => exact own _
  | above top inner ih =>
      cases top with
      | none => exact above none ih
      | some staged => exact above _ inner

theorem writeBatch (guarded : Guards below depth stack) (batch : Batch) :
    Guards below depth (stack.writeBatch batch).store := by
  induction guarded with
  | own staged => exact own _
  | above top inner ih =>
      cases top with
      | none => exact above none ih
      | some staged => exact above _ inner

/-- An application ends in the transaction that guards the store. -/
theorem apply (guarded : Guards below depth stack) (order : FlushOrder)
    (operations : List Operation) (dryRun : Bool) (counters : Counters) :
    Guards below (depth + 1)
      ((Overlay.idle stack).apply order operations dryRun counters).overlay.toStack := by
  cases decoded : Operation.decodeAll operations with
  | error error =>
      rw [Overlay.apply_of_decode_error order operations dryRun counters decoded]
      exact above none guarded
  | ok writes =>
      cases dryRun with
      | true =>
          rw [Overlay.apply_rehearsal order operations counters decoded]
          exact above none guarded
      | false =>
          have flushed := guarded.writeBatch ((Staged.empty.recordAll writes).batch order)
          rw [Overlay.apply_flush order operations counters decoded]
          split <;> rename_i eq
          · rw [eq] at flushed
            exact above none flushed
          · rw [eq] at flushed
            exact above none flushed

/-- A call to an overlay that guards a store is answered, and it still guards
the store. -/
theorem perform (guarded : Guards below depth stack) {action : Action}
    (keeps : action.Keeps (below.depth + 1) depth) (counters : Counters) :
    ∃ reply next, action.perform counters stack = some (reply, next) ∧
      Guards below depth next := by
  cases action with
  | get key => exact ⟨_, _, rfl, guarded⟩
  | write change => exact ⟨_, _, rfl, guarded.write change⟩
  | batch batch => exact ⟨_, _, rfl, guarded.writeBatch batch⟩
  | close => exact keeps.elim
  | start =>
      cases guarded with
      | own staged => exact ⟨_, _, rfl, own staged⟩
      | above top inner =>
          cases top with
          | none => exact ⟨_, _, rfl, above _ inner⟩
          | some staged => exact ⟨_, _, rfl, above _ inner⟩
  | commit order =>
      cases guarded with
      -- Only a transaction further up may be ended, so this overlay is not its own guard.
      | own staged => exact absurd keeps (Nat.lt_irrefl _)
      | above top inner =>
          cases top with
          | none => exact ⟨_, _, rfl, above _ inner⟩
          | some staged => exact ⟨_, _, rfl, above _ (inner.writeBatch _)⟩
  | rollback =>
      cases guarded with
      | own staged => exact absurd keeps (Nat.lt_irrefl _)
      | above top inner =>
          cases top with
          | none => exact ⟨_, _, rfl, above _ inner⟩
          | some staged => exact ⟨_, _, rfl, above _ inner⟩
  | getBelow key =>
      cases guarded with
      | own staged => exact ⟨_, _, rfl, own staged⟩
      | above top inner => exact ⟨_, _, rfl, above top inner⟩
  | apply order operations dryRun =>
      cases guarded with
      | own staged =>
          refine ⟨_, _, Action.perform_apply order operations dryRun counters _ _, ?_⟩
          rw [Overlay.apply_tracking]
          exact own staged
      | above top inner =>
          refine ⟨_, _, Action.perform_apply order operations dryRun counters _ _, ?_⟩
          cases top with
          | none => exact inner.apply order operations dryRun counters
          | some staged =>
              rw [Overlay.apply_tracking]
              exact above _ inner

/-- So is a call to a layer between the store and the top. -/
theorem onLayer (guarded : Guards below depth stack) {addressed : Nat} {action : Action}
    (within : addressed ≤ depth) (keeps : action.Keeps (below.depth + 1) addressed)
    (counters : Counters) :
    ∃ reply next,
      stack.onLayer addressed (fun store => action.perform counters store) =
        some (reply, next) ∧ Guards below depth next := by
  induction guarded with
  | own staged =>
      rcases Nat.le_antisymm within keeps.le with rfl
      rw [Stack.onLayer, if_pos rfl]
      exact (own staged).perform keeps counters
  | @above top depth store inner ih =>
      rw [Stack.onLayer, inner.depth_eq]
      by_cases atTop : addressed = depth + 1
      · subst atTop
        rw [if_pos rfl]
        exact (inner.above top).perform keeps counters
      · obtain ⟨reply, next, called, still⟩ :=
          ih (Nat.le_of_lt_succ (Nat.lt_of_le_of_ne within atTop))
        rw [if_neg atTop, called]
        exact ⟨reply, overlay top next, rfl, still.above top⟩

end Guards

end Stack

/-! ## Runs above a transaction -/

namespace Session

open Stack

variable {σ : Type u} [Backend σ] {below : Stack σ} {depth : Nat}

/-- A step above a transaction is performed, and the store below is still
guarded. -/
theorem step_guards {session : Session σ} (guarded : Guards below depth session.stack)
    {step : Step} (stays : step.StaysAbove (below.depth + 1) depth) :
    ∃ reply next, session.step step = some (reply, next) ∧
      Guards below (step.depthAfter depth) next.stack := by
  rcases session with ⟨stack, counters⟩
  cases step with
  | call addressed action =>
      rcases stays with ⟨within, keeps⟩
      rcases guarded.onLayer within keeps counters with ⟨reply, next, called, still⟩
      exact ⟨reply.1, ⟨next, reply.2⟩, by rw [Session.step, called]; rfl, still⟩
  | wrap => exact ⟨_, _, rfl, guarded.above none⟩
  | unwrap =>
      cases guarded with
      | own staged => exact absurd stays (Nat.lt_irrefl _)
      | above top inner => exact ⟨_, _, rfl, inner⟩

/-- A run above a transaction is performed to its end, and the store below is
still guarded. -/
theorem run_guards {session : Session σ} (guarded : Guards below depth session.stack)
    {steps : List Step} (stays : StaysAbove (below.depth + 1) depth steps) :
    ∃ replies last depthAfter, session.run steps = some (replies, last) ∧
      Guards below depthAfter last.stack := by
  induction steps generalizing session depth with
  | nil => exact ⟨[], session, depth, rfl, guarded⟩
  | cons step rest ih =>
      rcases step_guards guarded stays.1 with ⟨reply, next, stepped, still⟩
      rcases ih still stays.2 with ⟨replies, last, depthAfter, ran, atEnd⟩
      exact ⟨reply :: replies, last, depthAfter, by simp [run, stepped, ran], atEnd⟩

end Session

/-! ## The same run, recorded -/

theorem Action.Keeps.lower {bottom addressed : Nat} {action : Action}
    (keeps : action.Keeps (bottom + 1) addressed) : action.Keeps 1 (addressed - bottom) := by
  cases action with
  | close => exact keeps
  | commit order => exact Nat.lt_sub_of_add_lt (Nat.add_comm bottom 1 ▸ keeps)
  | rollback => exact Nat.lt_sub_of_add_lt (Nat.add_comm bottom 1 ▸ keeps)
  | _ => exact Nat.sub_pos_of_lt keeps

namespace Step

variable {bottom depth : Nat} {step : Step}

theorem StaysAbove.lower (stays : step.StaysAbove (bottom + 1) (depth + bottom)) :
    (step.lower bottom).StaysAbove 1 depth := by
  cases step with
  | call addressed action => exact ⟨Nat.sub_le_of_le_add stays.1, stays.2.lower⟩
  | wrap => trivial
  | unwrap => exact Nat.lt_of_add_lt_add_right (Nat.add_comm bottom 1 ▸ stays)

theorem depthAfter_lower (stays : step.StaysAbove (bottom + 1) (depth + bottom)) :
    (step.lower bottom).depthAfter depth + bottom = step.depthAfter (depth + bottom) := by
  cases step with
  | call addressed action => rfl
  | wrap => exact Nat.add_right_comm depth 1 bottom
  | unwrap =>
      have positive : 1 < depth := stays.lower
      exact (Nat.sub_add_comm (Nat.le_of_lt positive)).symm

theorem StaysAbove.above (stays : step.StaysAbove (bottom + 1) depth) :
    ∀ layer action, step = .call layer action → bottom < layer := by
  rintro layer action rfl
  exact stays.2.le

end Step

theorem StaysAbove.lower {bottom depth : Nat} {steps : List Step}
    (stays : StaysAbove (bottom + 1) (depth + bottom) steps) :
    StaysAbove 1 depth (steps.map (Step.lower bottom)) := by
  induction steps generalizing depth with
  | nil => trivial
  | cons step rest ih =>
      refine ⟨stays.1.lower, ih ?_⟩
      rw [Step.depthAfter_lower stays.1]
      exact stays.2

namespace Session

open Stack

variable {σ : Type u} [Backend σ]

/-- A run above a recorder is the same run without it. -/
theorem run_untap {session : Session (Recorder (Stack σ))} {recorder : Recorder (Stack σ)}
    {depth : Nat} (guarded : Guards (base recorder) depth session.stack) {steps : List Step}
    (stays : StaysAbove (recorder.store.depth + 1) (depth + recorder.store.depth) steps) :
    session.untap.run steps =
      (session.run (steps.map (Step.lower recorder.store.depth))).map fun answer =>
        (answer.1, answer.2.untap) := by
  induction steps generalizing session depth with
  | nil => rfl
  | cons step rest ih =>
      -- The recorder itself never changes: the guard keeps it through every step.
      have holds : session.stack.backend.store.depth = recorder.store.depth := by
        rw [guarded.backend_eq]
        rfl
      have top : 0 < session.stack.depth := guarded.depth_eq ▸ guarded.depth_lt
      rcases step_guards guarded stays.1.lower with ⟨reply, next, stepped, still⟩
      have same_rest := ih still (by rw [Step.depthAfter_lower stays.1]; exact stays.2)
      have same_step := step_untap session holds top step stays.1.above
      rw [stepped] at same_step
      simp only [List.map_cons, run, same_step, stepped, Option.map_some, Option.bind_eq_bind,
        Option.bind_some, same_rest, Option.map_bind, Option.bind_map]
      rfl

/-- The recorder notes nothing while a run stays above it. -/
theorem run_tap {session : Session σ} {staged : Staged} {below : Stack σ}
    {overlays : List (Option Staged)}
    (stack_eq : session.stack = (overlay (some staged) below).beneath overlays)
    {steps : List Step} (stays : StaysAbove (below.depth + 1) session.stack.depth steps) :
    ∃ replies recorded,
      (session.tap (below.depth + 1)).run (steps.map (Step.lower below.depth)) =
        some (replies, recorded) ∧
      session.run steps = some (replies, recorded.untap) ∧
      recorded.stack.backend.calls = [] := by
  have tapped : Guards (base (Recorder.fresh below)) (overlays.length + 1)
      (session.tap (below.depth + 1)).stack := by
    rw [tap, stack_eq, tap_beneath_overlay]
    exact Guards.of_beneath staged (base (Recorder.fresh below)) overlays
  have height : session.stack.depth = overlays.length + 1 + below.depth := by
    rw [stack_eq, depth_beneath, depth_overlay, Nat.add_assoc, Nat.add_comm 1]
  rw [height] at stays
  rcases run_guards tapped stays.lower with ⟨replies, recorded, _, ran, still⟩
  have same := run_untap tapped stays
  rw [untap_tap] at same
  refine ⟨replies, recorded, ran, ?_, ?_⟩
  · rw [same]
    exact congrArg (Option.map _) ran
  · rw [still.backend_eq]
    rfl

/-! ## Ending the transaction -/

/-- Taking the topmost overlay off leaves the store below it. -/
theorem step_unwrap {session : Session σ} {top : Option Staged} {below : Stack σ}
    (stack_eq : session.stack = overlay top below) :
    session.step .unwrap = some (.done (.ok ()), ⟨below, session.counters⟩) := by
  rw [step, stack_eq]
  rfl

end Session

/-- How the transaction at `layer` shields the layers below it: they are the
very same before and after, and stay so when the transaction is rolled back or
its overlay is taken off. -/
structure Shielded {σ : Type u} [Backend σ] (layer : Nat) (before after : Session σ) :
    Prop where
  below : before.stack.SameBelow layer after.stack
  /-- The transaction is still open. -/
  tracking : (after.stack.stagedAt layer).isSome
  rollback : ∃ last, after.step (.call layer .rollback) = some (.done (.ok ()), last) ∧
    before.stack.SameBelow layer last.stack ∧
    ∀ key, last.stack.readAt layer key = last.stack.readAt (layer - 1) key
  unwrap : after.stack.depth = layer →
    ∃ last, after.step .unwrap = some (.done (.ok ()), last) ∧
      last.stack.depth = layer - 1 ∧ before.stack.SameBelow layer last.stack

/-- From one stack to another that guards the same store, the layers of that
store are shielded. -/
theorem Stack.Guards.shielded {σ : Type u} [Backend σ] {below : Stack σ} {first last : Nat}
    {before after : Session σ} (guarded : Guards below first before.stack)
    (still : Guards below last after.stack) : Shielded (below.depth + 1) before after := by
  rcases still.exists_beneath with ⟨staged, overlays, after_eq⟩
  constructor
  case below =>
    intro lower isBelow
    rw [still.layer?_eq isBelow, guarded.layer?_eq isBelow]
  case tracking =>
    rw [after_eq, stagedAt_own]
    rfl
  case rollback =>
    refine ⟨_, Session.step_rollback after_eq, ?_, ?_⟩
    · intro lower isBelow
      rw [guarded.layer?_eq isBelow]
      exact layer?_lower (Nat.le_of_lt_succ isBelow) none overlays
    · intro key
      rw [readAt_own, Nat.add_sub_cancel, readAt_lower (Nat.le_refl _), readAt_depth]
      rfl
  case unwrap =>
    intro atTop
    have alone : overlays = [] := by
      rw [after_eq, depth_beneath, depth_overlay] at atTop
      exact List.eq_nil_of_length_eq_zero (Nat.add_eq_right.mp atTop)
    rw [alone, beneath_nil] at after_eq
    refine ⟨_, Session.step_unwrap after_eq, rfl, ?_⟩
    intro lower isBelow
    exact (guarded.layer?_eq isBelow).symm

/-- A run that stays above an open transaction is performed to its end and
leaves the layers below the transaction as they were, over any backend; rolling
back, or taking the overlay off, then leaves them so too.  The same run over a
recorder in the place of those layers gives the same answers, and no mutating
call has reached the recorder. -/
theorem run_isolated {σ : Type u} [Backend σ] {session : Session σ} {layer : Nat}
    {staged : Staged} (tracking : session.stack.stagedAt layer = some staged)
    {steps : List Step} (stays : StaysAbove layer session.stack.depth steps) :
    ∃ replies last, session.run steps = some (replies, last) ∧
      Shielded layer session last ∧
      ∃ recorded,
        (session.tap layer).run (steps.map (Step.lower (layer - 1))) =
          some (replies, recorded) ∧
        recorded.untap = last ∧ recorded.stack.backend.calls = [] := by
  rcases Stack.exists_of_stagedAt_eq_some tracking with ⟨below, overlays, rfl, stack_eq⟩
  have guarded : Stack.Guards below session.stack.depth session.stack := by
    rw [stack_eq, Stack.depth_beneath]
    exact Stack.Guards.of_beneath staged below overlays
  rcases Session.run_guards guarded stays with ⟨replies, last, _, ran, still⟩
  obtain ⟨recorded_replies, recorded, recorded_ran, same, quiet⟩ :=
    Session.run_tap stack_eq stays
  rcases Prod.mk.inj (Option.some.inj (ran.symm.trans same)) with ⟨rfl, rfl⟩
  exact ⟨replies, recorded.untap, ran, guarded.shielded still, recorded, recorded_ran, rfl, quiet⟩

/-- Above a transaction over a store that refuses every write of one key: a
further overlay comes and goes, a transaction is committed from it, batch files
are applied or turned down, and the transaction below cannot be opened twice. -/
def busyAbove : List Step :=
  [.call 1 .start, .wrap, .call 3 .start, .call 3 (.write (.put ⟨[1]⟩ [10])),
    .call 2 .start, .call 3 (.commit .latestFirst), .call 2 (.batch ⟨[], [⟨[1]⟩]⟩),
    .call 2 (.commit .latestFirst), .call 3 (.apply .latestFirst [.put "01" "0b"] false),
    .call 3 (.apply .latestFirst [.delete "0"] false), .unwrap, .call 2 .rollback, .unwrap,
    .call 1 (.apply .latestFirst [] false), .call 1 (.write (.delete ⟨[1]⟩))]

/-- A busy run above a transaction does not touch a store that would refuse
it. -/
theorem run_isolated_busyAbove :
    let store : SelectiveStore := ⟨.empty, [⟨[1]⟩], [⟨[1]⟩], "read only", []⟩
    let session : Session SelectiveStore :=
      ⟨.overlay none (.overlay (some .empty) (.base store)), .zero⟩
    session.stack.stagedAt 1 = some .empty ∧ StaysAbove 1 session.stack.depth busyAbove ∧
      ∃ replies last, session.run busyAbove = some (replies, last) ∧
        Shielded 1 session last ∧
        ∃ recorded,
          (session.tap 1).run (busyAbove.map (Step.lower (1 - 1))) = some (replies, recorded) ∧
          recorded.untap = last ∧ recorded.stack.backend.calls = [] := by
  intro store session
  have tracking : session.stack.stagedAt 1 = some .empty := rfl
  have stays : StaysAbove 1 session.stack.depth busyAbove := by decide
  exact ⟨tracking, stays, run_isolated tracking stays⟩

end PathStore
