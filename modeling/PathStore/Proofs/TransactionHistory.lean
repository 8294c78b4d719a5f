import PathStore.Proofs.Applying
import PathStore.Proofs.Closing

/-!
# The history of a transaction

Whether an overlay has a transaction open is settled by what has begun or ended
one there since the overlay was put up: its starts, its commits, flushed or not,
its rollbacks, and the closes that have reached it from its own layer or from
above.  Writes, batches and whatever else is done at other layers have no part in
it.  So the calls that are out of turn are known from the history alone, and they
change nothing.
-/

namespace PathStore

universe u

/-- What begins or ends a transaction. -/
inductive TransactionEvent where
  | started
  /-- A commit took the changes, and may have lost them. -/
  | committed
  | rolledBack
  | closed
deriving DecidableEq, Repr

/-! ## Events of steps -/

/-- The events of an application: a start and the end that it comes to, unless
it found a transaction open. -/
def TransactionEvent.ofApplication : Except ApplyError Summary → List TransactionEvent
  | .ok summary => [started, if summary.committed then committed else rolledBack]
  | .error (.transaction _) => []
  | .error (.operand _) => [started, rolledBack]
  | .error (.flush _) => [started, committed]

namespace Action

/-- The events of a call for the transaction of the overlay that it addresses.  A
commit counts if it finds a transaction, whatever it answers. -/
def events (tracking : Bool) : Action → Reply → List TransactionEvent
  | start, .done (.ok ()) => [.started]
  | commit _, _ => if tracking then [.committed] else []
  | rollback, .done (.ok ()) => [.rolledBack]
  | close, _ => [.closed]
  | apply _ _ _, .applied result => TransactionEvent.ofApplication result
  | _, _ => []

/-- The events of a call for the transactions below the overlay that it
addresses. -/
def eventsBelow : Action → List TransactionEvent
  | close => [.closed]
  | _ => []

end Action

namespace Session

variable {σ : Type u}

/-- The events of a call for the transaction at a layer. -/
def events (session : Session σ) (layer addressed : Nat) (action : Action) (reply : Reply) :
    List TransactionEvent :=
  if layer = addressed then action.events (session.stack.stagedAt addressed).isSome reply
  else if layer < addressed then action.eventsBelow
  else []

/-- The events at a layer behind a step.  An overlay that is put up has none. -/
def eventsAfter (session : Session σ) (layer : Nat) (earlier : List TransactionEvent) :
    Step → Reply → List TransactionEvent
  | .call addressed action, reply => earlier ++ session.events layer addressed action reply
  | .wrap, _ => if layer = session.stack.depth + 1 then [] else earlier
  | .unwrap, _ => earlier

variable [Backend σ]

/-- The events at a layer since its overlay was put up, for a session that makes
steps after it has had `earlier` events there. -/
def history (layer : Nat) (session : Session σ) (earlier : List TransactionEvent) :
    List Step → List TransactionEvent
  | [] => earlier
  | step :: rest =>
    match session.step step with
    | none => earlier
    | some (reply, next) => history layer next (session.eventsAfter layer earlier step reply) rest

end Session

namespace Stack

variable {σ : Type u}

/-- The layer has a transaction open exactly if a start is the latest event
there. -/
def TracksSince (stack : Stack σ) (layer : Nat) (latest : Option TransactionEvent) : Prop :=
  (stack.stagedAt layer).isSome ↔ latest = some .started

/-- Two stacks have transactions open at the same layers. -/
def TracksAlike (first second : Stack σ) : Prop :=
  first.depth = second.depth ∧
    ∀ layer, (first.stagedAt layer).isSome = (second.stagedAt layer).isSome

theorem TracksAlike.refl (stack : Stack σ) : stack.TracksAlike stack :=
  ⟨rfl, fun _ => rfl⟩

theorem TracksSince.of_alike {first second : Stack σ} {layer : Nat}
    {latest : Option TransactionEvent} (since : first.TracksSince layer latest)
    (alike : second.TracksAlike first) : second.TracksSince layer latest := by
  rw [TracksSince, alike.2]
  exact since

/-- A layer without a transaction is one that has none since an end. -/
theorem tracksSince_of_idle {stack : Stack σ} {layer : Nat} {latest : Option TransactionEvent}
    (idle : stack.stagedAt layer = none) (ended : latest ≠ some .started) :
    stack.TracksSince layer latest := by
  simp [TracksSince, idle, ended]

theorem tracksSince_beneath {store : Stack σ} {layer : Nat} (within : layer ≤ store.depth)
    {overlays : List (Option Staged)} {latest : Option TransactionEvent} :
    (store.beneath overlays).TracksSince layer latest ↔ store.TracksSince layer latest := by
  rw [TracksSince, stagedAt_beneath within, TracksSince]

/-- What happens at an overlay settles whether it tracks; the layers below it
stay as they are. -/
theorem TracksSince.overlay {staged : Option Staged} {below lower : Stack σ} {layer : Nat}
    {latest : Option TransactionEvent}
    (since : (Stack.overlay staged below).TracksSince layer latest) (left : Option Staged)
    (events : List TransactionEvent) (alike : lower.TracksAlike below)
    (own : (staged.isSome ↔ latest = some .started) →
      (left.isSome ↔ events.getLast?.or latest = some .started)) :
    (Stack.overlay left lower).TracksSince layer
      ((if layer = below.depth + 1 then events else []).getLast?.or latest) := by
  rw [TracksSince, stagedAt_overlay] at since ⊢
  rw [alike.1]
  split
  · rename_i atTop
    rw [if_pos atTop] at since
    exact own since
  · rename_i notTop
    rw [if_neg notTop] at since
    rw [alike.2]
    exact since

variable [Backend σ]

/-- A write is staged or passed on, and neither opens nor ends a transaction. -/
theorem tracksAlike_write (stack : Stack σ) (change : Write) :
    (stack.write change).store.TracksAlike stack := by
  induction stack with
  | base store => exact ⟨rfl, fun layer => by simp [write, Outcome.map]⟩
  | overlay staged below ih =>
      cases staged with
      | none =>
          refine ⟨congrArg (· + 1) ih.1, fun layer => ?_⟩
          change ((overlay none (below.write change).store).stagedAt layer).isSome = _
          rw [stagedAt_overlay, stagedAt_overlay, ih.1, apply_ite Option.isSome,
            apply_ite Option.isSome, ih.2]
      | some staged =>
          refine ⟨rfl, fun layer => ?_⟩
          change ((overlay (some (staged.record change)) below).stagedAt layer).isSome = _
          rw [stagedAt_overlay, stagedAt_overlay, apply_ite Option.isSome,
            apply_ite Option.isSome]
          rfl

theorem tracksAlike_writeBatch (stack : Stack σ) (batch : Batch) :
    (stack.writeBatch batch).store.TracksAlike stack := by
  refine ⟨depth_writeBatch stack batch, fun layer => ?_⟩
  rw [stagedAt_writeBatch]
  split
  · exact Option.isSome_map
  · rfl

end Stack

variable {σ : Type u} [Backend σ]

/-- An application that finds its overlay idle leaves it idle, and ends the
transaction that it started. -/
theorem Overlay.exists_apply_idle (order : FlushOrder) (operations : List Operation)
    (dryRun : Bool) (counters : Counters) (below : Stack σ) :
    let applied := (idle below).apply order operations dryRun counters
    ∃ lower latest, applied.overlay = idle lower ∧ lower.TracksAlike below ∧
      (TransactionEvent.ofApplication applied.result).getLast? = some latest ∧
      latest ≠ .started := by
  dsimp only
  cases decoded : Operation.decodeAll operations with
  | error error =>
      rw [apply_of_decode_error order operations dryRun counters decoded]
      exact ⟨below, .rolledBack, rfl, .refl below, rfl, nofun⟩
  | ok writes =>
      cases dryRun with
      | true =>
          rw [apply_rehearsal order operations counters decoded]
          exact ⟨below, .rolledBack, rfl, .refl below, rfl, nofun⟩
      | false =>
          have alike := below.tracksAlike_writeBatch ((Staged.empty.recordAll writes).batch order)
          rw [apply_flush order operations counters decoded]
          split <;> rename_i flushed <;> rw [flushed] at alike <;>
            exact ⟨_, .committed, rfl, alike, rfl, nofun⟩

/-- A call takes no overlay off, and up to the layer that it addresses its events
tell which transactions it leaves open. -/
theorem Action.perform_tracks {action : Action} {counters after : Counters}
    {store left : Stack σ} {reply : Reply}
    (done : action.perform counters store = some ((reply, after), left)) :
    left.depth = store.depth ∧ ∀ {layer : Nat} {latest : Option TransactionEvent},
      store.TracksSince layer latest →
        left.TracksSince layer
          ((if layer = store.depth then
              action.events (store.stagedAt store.depth).isSome reply
            else action.eventsBelow).getLast?.or latest) := by
  cases action with
  | get key =>
      cases done
      exact ⟨rfl, fun since => by simpa [events, eventsBelow] using since⟩
  | getBelow key =>
      obtain ⟨top, -, same⟩ := Option.map_eq_some_iff.mp done
      cases same
      exact ⟨rfl, fun since => by simpa [events, eventsBelow] using since⟩
  | write change =>
      cases done
      have alike := store.tracksAlike_write change
      exact ⟨alike.1, fun since => by simpa [events, eventsBelow] using since.of_alike alike⟩
  | batch changes =>
      cases done
      have alike := store.tracksAlike_writeBatch changes
      exact ⟨alike.1, fun since => by simpa [events, eventsBelow] using since.of_alike alike⟩
  | close =>
      cases done
      rw [Stack.close_eq_idle]
      refine ⟨Stack.depth_idle _ _, fun _ => ?_⟩
      apply Stack.tracksSince_of_idle (Stack.stagedAt_idle _ _ _)
      simp [events, eventsBelow]
  | start =>
      obtain ⟨top, isTop, same⟩ := Option.map_eq_some_iff.mp done
      rcases store with _ | ⟨_ | staged, below⟩ <;> cases isTop <;> cases same
      · exact ⟨rfl, fun since => since.overlay (some .empty) [.started] (.refl below) (by simp)⟩
      · exact ⟨rfl, fun since => since.overlay (some staged) [] (.refl below) (by simp)⟩
  | commit order =>
      obtain ⟨top, isTop, same⟩ := Option.map_eq_some_iff.mp done
      rcases store with _ | ⟨_ | staged, below⟩ <;> cases isTop <;> cases same <;>
        rw [Stack.depth_overlay, Stack.stagedAt_top]
      · exact ⟨rfl, fun since => since.overlay none [] (.refl below) (by simp)⟩
      · have alike := below.tracksAlike_writeBatch (staged.batch order)
        exact ⟨congrArg (· + 1) alike.1,
          fun since => since.overlay none [.committed] alike (by simp)⟩
  | rollback =>
      obtain ⟨top, isTop, same⟩ := Option.map_eq_some_iff.mp done
      rcases store with _ | ⟨_ | staged, below⟩ <;> cases isTop <;> cases same
      · exact ⟨rfl, fun since => since.overlay none [] (.refl below) (by simp)⟩
      · exact ⟨rfl, fun since => since.overlay none [.rolledBack] (.refl below) (by simp)⟩
  | apply order operations dryRun =>
      obtain ⟨top, isTop, same⟩ := Option.map_eq_some_iff.mp done
      rcases store with _ | ⟨_ | staged, below⟩ <;> cases isTop <;> cases same
      · rw [← Overlay.idle]
        rcases Overlay.exists_apply_idle order operations dryRun counters below with
          ⟨lower, ended, overlay_eq, alike, isLast, notStarted⟩
        rw [overlay_eq]
        exact ⟨congrArg (· + 1) alike.1, fun since =>
          since.overlay none (TransactionEvent.ofApplication _) alike
            (by simp [isLast, notStarted])⟩
      · exact ⟨rfl, fun since => since.overlay (some staged) [] (.refl below) (by simp)⟩

namespace Session

/-- At every layer that there is, a step adds the events that tell whether a
transaction is open.  A layer that is not there yet may have had other overlays,
whose events are dropped when a new one is put up. -/
theorem tracksSince_step {session next : Session σ} {step : Step} {reply : Reply}
    (performed : session.step step = some (reply, next)) {layer : Nat}
    {earlier : List TransactionEvent}
    (since : layer ≤ session.stack.depth → session.stack.TracksSince layer earlier.getLast?)
    (within : layer ≤ next.stack.depth) :
    next.stack.TracksSince layer
      (session.eventsAfter layer earlier step reply).getLast? := by
  cases step with
  | wrap =>
      cases performed
      rw [eventsAfter, Stack.TracksSince, Stack.stagedAt_overlay]
      split
      · simp
      · rename_i notNew
        exact since (Nat.le_of_lt_succ (Nat.lt_of_le_of_ne within notNew))
  | unwrap =>
      obtain ⟨top, isTop, same⟩ := Option.map_eq_some_iff.mp performed
      rcases session with ⟨_ | ⟨staged, below⟩, counters⟩ <;> cases isTop
      cases same
      have lower := since (Nat.le_succ_of_le within)
      rw [Stack.TracksSince, Stack.stagedAt_overlay,
        if_neg (Nat.ne_of_lt (Nat.lt_succ_of_le within))] at lower
      exact lower
  | call addressed action =>
      rcases exists_of_step_call performed with
        ⟨store, overlays, left, rfl, stack_eq, acted, next_eq⟩
      obtain ⟨depth_eq, tracks⟩ := Action.perform_tracks acted
      rw [next_eq, Stack.depth_beneath, depth_eq] at within
      rw [stack_eq, Stack.depth_beneath] at since
      replace since := since within
      rw [eventsAfter, events, List.getLast?_append, next_eq, stack_eq]
      rcases Nat.lt_or_ge store.depth layer with above | inside
      · rw [Stack.TracksSince, if_neg (Nat.ne_of_gt above), if_neg (Nat.not_lt_of_gt above),
          Stack.stagedAt_beneath_congr depth_eq overlays (by rwa [depth_eq])]
        exact since
      · rw [Stack.tracksSince_beneath inside] at since
        rw [Stack.tracksSince_beneath (by rwa [depth_eq]), Stack.stagedAt_beneath (Nat.le_refl _)]
        rcases Nat.eq_or_lt_of_le inside with atStore | lower
        · simpa [atStore] using tracks since
        · simpa [lower, Nat.ne_of_lt lower] using tracks since

/-- So a run leaves a transaction open exactly where a start is the latest
event. -/
theorem tracksSince_run {session last : Session σ} {steps : List Step} {replies : List Reply}
    (ran : session.run steps = some (replies, last)) {layer : Nat}
    {earlier : List TransactionEvent}
    (since : layer ≤ session.stack.depth → session.stack.TracksSince layer earlier.getLast?)
    (within : layer ≤ last.stack.depth) :
    last.stack.TracksSince layer (session.history layer earlier steps).getLast? := by
  induction steps generalizing session earlier replies with
  | nil =>
      cases ran
      exact since within
  | cons step rest ih =>
      rcases Option.bind_eq_some_iff.mp ran with ⟨⟨reply, next⟩, performed, more⟩
      rcases Option.bind_eq_some_iff.mp more with ⟨⟨others, final⟩, ranRest, done⟩
      cases done
      rw [history, performed]
      exact ih ranRest (tracksSince_step performed since)

end Session

/-! ## Calls out of turn -/

/-- A commit hands what its layer has staged through to the backend, and the backend
answers the batch as if there were no transaction to end. -/
def Session.PassesOnNotTracking (session : Session σ) (layer : Nat) (order : FlushOrder) :
    Prop :=
  ∃ staged, session.stack.stagedAt layer = some staged ∧
    session.stack.nearestTracking layer = 0 ∧
    (Backend.writeBatch session.stack.backend (staged.batch order)).result = .error .notTracking

/-- How a session turns down the calls that are out of turn at a layer: a start
where a transaction is open, and an end where none is.  They leave the session as
it is, its backend and every transaction in it.  No other call is turned down in
this way, but for a commit whose batch the backend itself answers so. -/
structure Session.RefusesOutOfTurn (session : Session σ) (layer : Nat) (tracking : Bool) :
    Prop where
  start : ∀ next, session.step (.call layer .start) =
    some (.done (.error .alreadyTracking), next) ↔ tracking = true ∧ next = session
  apply : ∀ order operations dryRun next,
    session.step (.call layer (.apply order operations dryRun)) =
      some (.applied (.error (.transaction .alreadyTracking)), next) ↔
        tracking = true ∧ next = session
  rollback : ∀ next, session.step (.call layer .rollback) =
    some (.done (.error .notTracking), next) ↔ tracking = false ∧ next = session
  commit : ∀ order, (session.step (.call layer (.commit order))).map Prod.fst =
    some (.done (.error .notTracking)) ↔
      tracking = false ∨ session.PassesOnNotTracking layer order
  commit_idle : ∀ order, tracking = false →
    session.step (.call layer (.commit order)) = some (.done (.error .notTracking), session)

namespace Session

variable {session : Session σ} {below : Stack σ} {overlays : List (Option Staged)}

/-- A call that an overlay refuses, and that leaves it as it is, leaves the
session. -/
theorem step_of_refused {staged : Option Staged} {action : Action} {reply : Reply}
    (stack_eq : session.stack = (Stack.overlay staged below).beneath overlays)
    (refused : action.perform session.counters (.overlay staged below) =
      some ((reply, session.counters), .overlay staged below)) :
    session.step (.call (below.depth + 1) action) = some (reply, session) := by
  rw [step_call stack_eq, refused, Option.map_some, ← stack_eq]

/-- An overlay with an open transaction refuses to open another. -/
theorem refusesOutOfTurn_tracking {staged : Staged}
    (stack_eq : session.stack = (Stack.overlay (some staged) below).beneath overlays) :
    session.RefusesOutOfTurn (below.depth + 1) true := by
  have start : session.step (.call (below.depth + 1) .start) =
      some (.done (.error .alreadyTracking), session) := step_of_refused stack_eq rfl
  have apply : ∀ order operations dryRun,
      session.step (.call (below.depth + 1) (.apply order operations dryRun)) =
        some (.applied (.error (.transaction .alreadyTracking)), session) :=
    fun _ _ _ => step_of_refused stack_eq rfl
  have rollback := step_rollback stack_eq
  have commit := fun order => step_commit stack_eq order
  exact {
    start := fun next => by simp [start, eq_comm]
    apply := fun order operations dryRun next => by simp [apply, eq_comm]
    rollback := fun next => by simp [rollback]
    commit := fun order => by
      have staged_eq : session.stack.stagedAt (below.depth + 1) = some staged := by
        rw [stack_eq, Stack.stagedAt_own]
      have nearest_eq : session.stack.nearestTracking (below.depth + 1) = below.landing := by
        rw [stack_eq, Stack.nearestTracking_beneath_overlay]
      have backend_eq : session.stack.backend = below.backend := by
        rw [stack_eq, Stack.backend_beneath]
        rfl
      rw [commit, Option.map_some, Stack.result_writeBatch, PassesOnNotTracking, staged_eq,
        nearest_eq, backend_eq]
      by_cases lands : below.landing = 0
      · simp [lands]
      · simp [lands]
    commit_idle := nofun }

/-- An idle overlay refuses to end a transaction. -/
theorem refusesOutOfTurn_idle
    (stack_eq : session.stack = (Stack.overlay none below).beneath overlays) :
    session.RefusesOutOfTurn (below.depth + 1) false := by
  have rollback : session.step (.call (below.depth + 1) .rollback) =
      some (.done (.error .notTracking), session) := step_of_refused stack_eq rfl
  have commit : ∀ order, session.step (.call (below.depth + 1) (.commit order)) =
      some (.done (.error .notTracking), session) := fun _ => step_of_refused stack_eq rfl
  have start : session.step (.call (below.depth + 1) .start) = some (.done (.ok ()),
      ⟨(Stack.overlay (some .empty) below).beneath overlays, session.counters⟩) := by
    rw [step_call stack_eq]
    rfl
  exact {
    start := fun next => by simp [start]
    apply := fun order operations dryRun next => by
      rcases Overlay.exists_apply_idle order operations dryRun session.counters below with
        ⟨_, _, _, _, isLast, _⟩
      rw [step_apply stack_eq]
      simp only [Option.some.injEq, Prod.mk.injEq, Bool.false_eq_true, false_and, iff_false,
        not_and]
      intro refused
      rw [← Overlay.idle] at refused
      rw [Reply.applied.inj refused] at isLast
      cases isLast
    rollback := fun next => by simp [rollback, eq_comm]
    commit := fun order => by simp [commit]
    commit_idle := fun order _ => commit order }

end Session

/-- Over any backend and after any steps, an overlay has a transaction open exactly
if the latest of what began or ended one there, since the overlay was put up, is a
start.  The calls that do not fit are turned down with the session as it is; a commit
that fits may still be answered like one that does not, by the backend. -/
theorem isTracking_iff_latest_started {store : σ} {depth : Nat} {counters : Counters}
    {steps : List Step} {replies : List Reply} {session : Session σ}
    (ran : (Session.mk (.idle store depth) counters).run steps = some (replies, session))
    {layer : Nat} {top : Overlay σ}
    (isTop : (session.stack.layer? layer).bind Stack.top? = some top) :
    (top.isTracking ↔
      ((Session.mk (.idle store depth) counters).history layer [] steps).getLast? =
        some .started) ∧
    session.RefusesOutOfTurn layer top.isTracking := by
  rcases Stack.exists_of_top? isTop with ⟨overlays, rfl, stack_eq⟩
  rcases top with ⟨staged, below⟩
  constructor
  · have idleAtFirst : (Stack.idle store depth).TracksSince (below.depth + 1)
        (List.getLast? []) := Stack.tracksSince_of_idle (Stack.stagedAt_idle store depth _) nofun
    have within : below.depth + 1 ≤ session.stack.depth := by
      rw [stack_eq]
      exact Stack.depth_le_depth_beneath (.overlay staged below) overlays
    have tracks := Session.tracksSince_run ran (fun _ => idleAtFirst) within
    rw [Stack.TracksSince, stack_eq, Overlay.toStack, Stack.stagedAt_own] at tracks
    exact tracks
  · cases staged with
    | none => exact Session.refusesOutOfTurn_idle stack_eq
    | some staged => exact Session.refusesOutOfTurn_tracking stack_eq

/-- A start that a close from above undoes, one that ends in a commit the store
refuses, a rehearsal and a last start; then an overlay that is replaced while it
tracks. -/
def interrupted : List Step :=
  [.call 1 .start, .call 2 .close, .call 1 .start, .call 1 (.commit .latestFirst),
    .call 1 (.apply .latestFirst [.put "00" "01"] true), .call 1 .start, .call 1 .start,
    .wrap, .call 3 .start, .unwrap, .wrap, .call 3 (.commit .latestFirst)]

/-- The last start counts at layer 1.  The new overlay at layer 3 has no history,
and is out of turn with a commit. -/
theorem isTracking_iff_latest_started_interrupted :
    let start : Session BatchRefusingStore := ⟨.idle ⟨.empty, "read only"⟩ 2, .zero⟩
    ∃ replies session,
      start.run interrupted = some (replies, session) ∧
      start.history 1 [] interrupted =
        [.started, .closed, .started, .committed, .started, .rolledBack, .started] ∧
      start.history 3 [] interrupted = [] ∧
      (∃ top, (session.stack.layer? 1).bind Stack.top? = some top ∧ top.isTracking ∧
        session.RefusesOutOfTurn 1 true) ∧
      ∃ top, (session.stack.layer? 3).bind Stack.top? = some top ∧ ¬ top.isTracking ∧
        session.RefusesOutOfTurn 3 false := by
  intro start
  have ran : start.run interrupted = some (_, _) := rfl
  refine ⟨_, _, ran, rfl, rfl, ⟨_, rfl, ?_⟩, _, rfl, ?_⟩
  · have settled := @isTracking_iff_latest_started _ _ _ _ _ _ _ _ ran 1 _ rfl
    exact ⟨settled.1.mpr rfl, settled.2⟩
  · have settled := @isTracking_iff_latest_started _ _ _ _ _ _ _ _ ran 3 _ rfl
    exact ⟨fun tracking => (nomatch settled.1.mp tracking), settled.2⟩

/-- A store that answers every batch as if there were no transaction to end. -/
structure SettledStore where
  pairs : Pairs
deriving DecidableEq, Repr

instance : Backend SettledStore where
  read store key := .ok (store.pairs.get? key)
  write store change := .done ⟨store.pairs.write change⟩
  close store := .done store
  writeBatch store _ := .refused .notTracking store

/-- Over such a store a commit is told that nothing is being tracked while its layer
tracks, and it is not turned down: what was staged is gone. -/
theorem commit_answers_notTracking_while_tracking :
    let start : Session SettledStore := ⟨.idle ⟨Table.empty⟩ 1, .zero⟩
    let steps : List Step := [.call 1 .start, .call 1 (.write (.put ⟨[1]⟩ [2]))]
    ∃ replies session after,
      start.run steps = some (replies, session) ∧
      start.history 1 [] steps = [.started] ∧ (session.stack.stagedAt 1).isSome ∧
      session.stack.readAt 1 ⟨[1]⟩ = some (.ok (some [2])) ∧
      session.step (.call 1 (.commit .latestFirst)) = some (.done (.error .notTracking), after) ∧
      after.stack.readAt 1 ⟨[1]⟩ = some (.ok none) ∧ after.stack.stagedAt 1 = none :=
  ⟨_, _, _, rfl, rfl, rfl, rfl, rfl, rfl, rfl⟩

end PathStore
