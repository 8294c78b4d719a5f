import PathStore.Proofs.Backends
import PathStore.Proofs.Layers

/-!
# What a commit changes

A commit hands the staged changes of a layer to the store below as one batch.
Idle overlays pass the batch on, and the first open transaction stages it; only
if there is none does it reach the backend.  From what a batch does to each
layer of a stack follows what a commit does to each layer: `Flushed` if the
batch is written, and `Refused` if the backend does not take it.
-/

namespace PathStore

universe u

namespace Stack

variable {σ : Type u} [Backend σ]

/-! ## A batch, layer by layer -/

@[simp]
theorem depth_writeBatch (stack : Stack σ) (batch : Batch) :
    (stack.writeBatch batch).store.depth = stack.depth := by
  induction stack with
  | base store => rfl
  | overlay staged below ih =>
      cases staged with
      | none => exact congrArg (· + 1) ih
      | some staged => rfl

theorem le_depth_writeBatch {stack : Stack σ} {layer : Nat} (within : layer ≤ stack.depth)
    (batch : Batch) : layer ≤ (stack.writeBatch batch).store.depth := by
  rwa [depth_writeBatch]

@[simp]
theorem landing_writeBatch (stack : Stack σ) (batch : Batch) :
    (stack.writeBatch batch).store.landing = stack.landing := by
  induction stack with
  | base store => rfl
  | overlay staged below ih =>
      cases staged with
      | none => exact ih
      | some staged => rfl

/-- A batch that lands in a transaction is always accepted; otherwise the
backend answers, and it is handed the batch as it is. -/
theorem result_writeBatch (stack : Stack σ) (batch : Batch) :
    (stack.writeBatch batch).result =
      if stack.landing = 0 then (Backend.writeBatch stack.backend batch).result else .ok () := by
  induction stack with
  | base store => rfl
  | overlay staged below ih =>
      cases staged with
      | none => exact ih
      | some staged => rfl

/-- Only the backend refuses a batch, and only if the batch gets there. -/
theorem landing_eq_zero_of_error {stack : Stack σ} {batch : Batch} {error : StoreError}
    (refused : (stack.writeBatch batch).result = .error error) :
    stack.landing = 0 ∧ (Backend.writeBatch stack.backend batch).result = .error error := by
  rw [result_writeBatch] at refused
  split at refused
  · rename_i lands
    exact ⟨lands, refused⟩
  · cases refused

theorem backend_writeBatch {stack : Stack σ} (lands : stack.landing ≠ 0) (batch : Batch) :
    (stack.writeBatch batch).store.backend = stack.backend := by
  induction stack with
  | base store => exact absurd rfl lands
  | overlay staged below ih =>
      cases staged with
      | none => exact ih lands
      | some staged => rfl

/-- Of all transactions, a batch changes only the one it lands in. -/
theorem stagedAt_writeBatch (stack : Stack σ) (batch : Batch) (layer : Nat) :
    (stack.writeBatch batch).store.stagedAt layer =
      if layer = stack.landing then
        (stack.stagedAt layer).map fun staged => staged.recordAll batch.writes
      else stack.stagedAt layer := by
  induction stack with
  | base store => simp [writeBatch, Outcome.map]
  | overlay staged below ih =>
      cases staged with
      | none =>
          have notTop : below.landing ≠ below.depth + 1 :=
            Nat.ne_of_lt (Nat.lt_succ_of_le below.landing_le_depth)
          change (overlay none (below.writeBatch batch).store).stagedAt layer = _
          rw [stagedAt_overlay, stagedAt_overlay, depth_writeBatch, ih, landing]
          by_cases atTop : layer = below.depth + 1
          · simp [atTop, Ne.symm notTop]
          · simp [atTop]
      | some staged =>
          change (overlay (some (staged.recordAll batch.writes)) below).stagedAt layer = _
          rw [stagedAt_overlay, stagedAt_overlay, landing]
          by_cases atTop : layer = below.depth + 1 <;> simp [atTop]

/-- Below the layer it lands in, a batch changes nothing. -/
theorem layer?_writeBatch {stack : Stack σ} {layer : Nat} (below_landing : layer < stack.landing)
    (batch : Batch) : (stack.writeBatch batch).store.layer? layer = stack.layer? layer := by
  induction stack with
  | base store => cases below_landing
  | overlay staged below ih =>
      cases staged with
      | none =>
          have notTop : layer ≠ below.depth + 1 :=
            Nat.ne_of_lt (Nat.lt_succ_of_lt (Nat.lt_of_lt_of_le below_landing
              below.landing_le_depth))
          change (overlay none (below.writeBatch batch).store).layer? layer = _
          rw [layer?_overlay, layer?_overlay, depth_writeBatch, if_neg notTop, if_neg notTop]
          exact ih below_landing
      | some staged =>
          have notTop : layer ≠ below.depth + 1 := Nat.ne_of_lt below_landing
          change (overlay (some (staged.recordAll batch.writes)) below).layer? layer = _
          rw [layer?_overlay, layer?_overlay, if_neg notTop, if_neg notTop]

/-- From where its writes land up to its top, a stack reads alike. -/
theorem readAt_of_landing_le {stack : Stack σ} {layer : Nat} (atLeast : stack.landing ≤ layer)
    (within : layer ≤ stack.depth) (key : Key) :
    stack.readAt layer key = some (stack.read key) := by
  induction stack with
  | base store =>
      rw [Nat.le_zero.mp within]
      rfl
  | overlay staged below ih =>
      rcases Nat.eq_or_lt_of_le within with atTop | lower
      · subst atTop
        exact readAt_depth _ key
      · cases staged with
        | none =>
            have notTop : layer ≠ below.depth + 1 := Nat.ne_of_lt lower
            rw [readAt_overlay, if_neg notTop]
            exact ih atLeast (Nat.le_of_lt_succ lower)
        | some staged => exact absurd atLeast (Nat.not_le_of_lt lower)

end Stack

/-! ## The step -/

namespace Session

variable {σ : Type u} [Backend σ]

/-- A commit at a layer with an open transaction makes the overlay idle over
what the flush leaves of the store below. -/
theorem step_commit {session : Session σ} {staged : Staged} {below : Stack σ}
    {overlays : List (Option Staged)}
    (stack_eq : session.stack = (Stack.overlay (some staged) below).beneath overlays)
    (order : FlushOrder) :
    session.step (.call (below.depth + 1) (.commit order)) =
      some (.done (below.writeBatch (staged.batch order)).result,
        ⟨(Stack.overlay none (below.writeBatch (staged.batch order)).store).beneath overlays,
          session.counters⟩) := by
  rw [step_call stack_eq]
  rfl

end Session

/-- What a commit at `layer` makes of a stack if its changes are written.  They
end at `target`: the layer and all above it read as before, the layers from
`target` on have caught up with it, and nothing else has changed. -/
structure Flushed {σ : Type u} [Backend σ] (layer target : Nat) (staged : Staged)
    (before after : Stack σ) : Prop where
  depth : after.depth = before.depth
  readAt_above : ∀ upper, layer ≤ upper → ∀ key,
    after.readAt upper key = before.readAt upper key
  readAt_between : ∀ inner, target ≤ inner → inner < layer → ∀ key,
    after.readAt inner key = before.readAt layer key
  /-- The stores below the target are the very same. -/
  layer?_below : ∀ lower, lower < target → after.layer? lower = before.layer? lower
  idle : after.stagedAt layer = none
  stagedAt_other : ∀ other, other ≠ layer → other ≠ target →
    after.stagedAt other = before.stagedAt other
  backend : target ≠ 0 → after.backend = before.backend
  /-- A transaction at the target takes over the outcomes of the staged keys and
  keeps those of the others. -/
  stagedAt_target : ∀ under, before.stagedAt target = some under →
    ∃ merged, after.stagedAt target = some merged ∧
      ∀ key, merged.outcome? key = (staged.outcome? key).or (under.outcome? key)
  readAt_staged : ∀ key outcome, staged.outcome? key = some outcome →
    after.readAt target key = some (.ok outcome)
  readAt_unstaged : ∀ key, staged.outcome? key = none →
    after.readAt target key = before.readAt target key

/-- What a commit at `layer` makes of a stack if the backend refuses its
changes: they are gone, and nothing else has changed. -/
structure Refused {σ : Type u} [Backend σ] (layer : Nat) (before after : Stack σ) : Prop where
  depth : after.depth = before.depth
  readAt_below : ∀ lower, lower < layer → ∀ key,
    after.readAt lower key = before.readAt lower key
  readAt_layer : ∀ key, after.readAt layer key = after.readAt (layer - 1) key
  idle : after.stagedAt layer = none
  stagedAt_other : ∀ other, other ≠ layer → after.stagedAt other = before.stagedAt other

/-! ## A flush, layer by layer -/

namespace Stack

variable {σ : Type u} [Backend σ]

/-- The store below an overlay after a batch, beneath the idle overlay and the
overlays above it. -/
def flush (below : Stack σ) (batch : Batch) (overlays : List (Option Staged)) : Stack σ :=
  (overlay none (below.writeBatch batch).store).beneath overlays

variable {below : Stack σ} {batch : Batch}

theorem depth_flush (staged : Option Staged) (overlays : List (Option Staged)) :
    (below.flush batch overlays).depth =
      ((overlay staged below).beneath overlays).depth := by
  simp [flush]

/-- A flush empties its own layer and changes of the other transactions only
the one that it lands in. -/
theorem stagedAt_flush (staged : Option Staged) (overlays : List (Option Staged))
    (layer : Nat) :
    (below.flush batch overlays).stagedAt layer =
      if layer = below.depth + 1 then none
      else if layer = below.landing then
        (((overlay staged below).beneath overlays).stagedAt layer).map fun staged =>
          staged.recordAll batch.writes
      else ((overlay staged below).beneath overlays).stagedAt layer := by
  rcases Nat.lt_trichotomy layer (below.depth + 1) with lower | own | upper
  · have within := Nat.le_of_lt_succ lower
    rw [if_neg (Nat.ne_of_lt lower), flush, stagedAt_lower (le_depth_writeBatch within batch),
      stagedAt_lower within, stagedAt_writeBatch]
  · have emptied := stagedAt_own none (below.writeBatch batch).store overlays
    rw [depth_writeBatch] at emptied
    rw [if_pos own, own]
    exact emptied
  · have notLanding : layer ≠ below.landing :=
      Nat.ne_of_gt (Nat.lt_of_le_of_lt below.landing_le_depth (Nat.lt_of_succ_lt upper))
    rw [if_neg (Nat.ne_of_gt upper), if_neg notLanding]
    exact stagedAt_beneath_congr (by simp) overlays (by simpa using upper)

/-- Between where it lands and its own layer, a flush is read everywhere. -/
theorem readAt_flush (overlays : List (Option Staged)) {layer : Nat}
    (atLeast : below.landing ≤ layer) (inside : layer ≤ below.depth + 1) (key : Key) :
    (below.flush batch overlays).readAt layer key =
      some ((below.writeBatch batch).store.read key) := by
  have within : layer ≤ (overlay none (below.writeBatch batch).store).depth := by
    simpa using inside
  rw [flush, readAt_beneath within]
  exact readAt_of_landing_le (by simpa [landing] using atLeast) within key

/-- A flush leaves everything below where it lands. -/
theorem layer?_flush (staged : Option Staged) (overlays : List (Option Staged)) {layer : Nat}
    (isBelow : layer < below.landing) :
    (below.flush batch overlays).layer? layer =
      ((overlay staged below).beneath overlays).layer? layer := by
  have within := Nat.le_trans (Nat.le_of_lt isBelow) below.landing_le_depth
  rw [flush, layer?_lower (le_depth_writeBatch within batch), layer?_writeBatch isBelow,
    layer?_lower within]

end Stack

section

variable {σ : Type u} [Backend σ] [AtomicBackend σ] {staged : Staged} {below : Stack σ}
  {order : FlushOrder}

/-- A flush that is written makes the store below read as the transaction did. -/
theorem Stack.read_flushed
    (written : (below.writeBatch (staged.batch order)).result = .ok ()) (key : Key) :
    (below.writeBatch (staged.batch order)).store.read key =
      (Stack.overlay (some staged) below).read key := by
  rw [read_writeBatch_of_ok written, Staged.latest?_batch, read_tracking]

/-- A flush that is written is `Flushed`. -/
theorem flushed_of_ok (written : (below.writeBatch (staged.batch order)).result = .ok ())
    (overlays : List (Option Staged)) :
    Flushed (below.depth + 1) below.landing staged
      ((Stack.overlay (some staged) below).beneath overlays)
      (below.flush (staged.batch order) overlays) := by
  have landing_lt := Nat.lt_succ_of_le below.landing_le_depth
  have reads : ∀ key, (Stack.overlay none (below.writeBatch (staged.batch order)).store).read
      key = (Stack.overlay (some staged) below).read key := Stack.read_flushed written
  have between : ∀ inner, below.landing ≤ inner → inner < below.depth + 1 → ∀ key,
      (below.flush (staged.batch order) overlays).readAt inner key =
        some ((Stack.overlay (some staged) below).read key) := by
    intro inner atLeast inside key
    rw [Stack.readAt_flush overlays atLeast (Nat.le_of_lt inside), Stack.read_flushed written]
  have atTarget := between below.landing (Nat.le_refl _) landing_lt
  exact {
    depth := Stack.depth_flush (some staged) overlays
    readAt_above := fun upper above key =>
      Stack.readAt_beneath_congr (by simp) reads overlays (by simpa using above) key
    readAt_between := fun inner atLeast inside key => by
      rw [between inner atLeast inside, Stack.readAt_own]
    layer?_below := fun lower isBelow => Stack.layer?_flush (some staged) overlays isBelow
    idle := by rw [Stack.stagedAt_flush (some staged), if_pos rfl]
    stagedAt_other := fun other notLayer notTarget => by
      rw [Stack.stagedAt_flush (some staged), if_neg notLayer, if_neg notTarget]
    backend := fun tracked => by
      rw [Stack.flush, Stack.backend_beneath, Stack.backend_beneath]
      exact Stack.backend_writeBatch tracked _
    stagedAt_target := fun under isStaged => by
      refine ⟨under.recordAll (staged.batch order).writes, ?_, fun key => ?_⟩
      · rw [Stack.stagedAt_flush (some staged), if_neg (Nat.ne_of_lt landing_lt), if_pos rfl,
          isStaged]
        rfl
      · rw [Staged.outcome?_recordAll, Staged.latest?_batch]
    readAt_staged := fun key outcome isStaged => by
      rw [atTarget, Stack.read_tracking, isStaged]
      rfl
    readAt_unstaged := fun key unstaged => by
      rw [atTarget, Stack.read_tracking, unstaged, Stack.readAt_lower below.landing_le_depth,
        Stack.readAt_of_landing_le (Nat.le_refl _) below.landing_le_depth]
      rfl }

/-- A flush that the backend refuses is `Refused`. -/
theorem refused_of_error {error : StoreError}
    (refused : (below.writeBatch (staged.batch order)).result = .error error)
    (overlays : List (Option Staged)) :
    Refused (below.depth + 1) ((Stack.overlay (some staged) below).beneath overlays)
      (below.flush (staged.batch order) overlays) := by
  have lands := (Stack.landing_eq_zero_of_error refused).1
  have fromBackend : ∀ inner, below.landing ≤ inner := fun inner => by
    rw [lands]
    exact Nat.zero_le inner
  have reads : ∀ inner, inner ≤ below.depth + 1 → ∀ key,
      (below.flush (staged.batch order) overlays).readAt inner key =
        some (below.read key) := by
    intro inner inside key
    rw [Stack.readAt_flush overlays (fromBackend inner) inside,
      Stack.read_writeBatch_of_error refused]
  exact {
    depth := Stack.depth_flush (some staged) overlays
    readAt_below := fun inner isBelow key => by
      have within := Nat.le_of_lt_succ isBelow
      rw [reads inner (Nat.le_of_lt isBelow), Stack.readAt_lower within,
        Stack.readAt_of_landing_le (fromBackend inner) within]
    readAt_layer := fun key => by
      rw [reads _ (Nat.le_refl _), Nat.add_sub_cancel, reads _ (Nat.le_succ _)]
    idle := by rw [Stack.stagedAt_flush (some staged), if_pos rfl]
    stagedAt_other := fun other notLayer => by
      rw [Stack.stagedAt_flush (some staged), if_neg notLayer]
      split
      · rename_i atLanding
        rw [atLanding, lands, Stack.stagedAt_zero]
        rfl
      · rfl }

end

/-! ## The main results -/

/-- Over a backend that refuses no write, a commit succeeds and the stack is
`Flushed`: what the layer has staged ends, key by key, at the nearest
transaction below it, or at the backend if there is none. -/
theorem commit_flushes {σ : Type u} [Backend σ] [ReliableBackend σ] {session : Session σ}
    {layer : Nat} {staged : Staged} (tracking : session.stack.stagedAt layer = some staged)
    (order : FlushOrder) :
    ∃ after, session.step (.call layer (.commit order)) = some (.done (.ok ()), after) ∧
      after.counters = session.counters ∧
      Flushed layer (session.stack.nearestTracking layer) staged session.stack after.stack := by
  rcases Stack.exists_of_stagedAt_eq_some tracking with ⟨below, overlays, rfl, stack_eq⟩
  have written := Stack.writeBatch_result below (staged.batch order)
  have stepped := Session.step_commit stack_eq order
  rw [written] at stepped
  refine ⟨_, stepped, rfl, ?_⟩
  rw [stack_eq, Stack.nearestTracking_beneath_overlay]
  exact flushed_of_ok written overlays

/-- A transaction at layer 3 and one at layer 1, each over an idle overlay or
the backend and the upper one under an idle overlay. -/
def staggered {σ : Type u} (upper lower : Staged) (store : σ) : Session σ :=
  ⟨.overlay none (.overlay (some upper) (.overlay none (.overlay (some lower) (.base store)))),
    .zero⟩

/-- A delete that is staged at layer 3 ends in the transaction at layer 1,
which has a put of the same key staged. -/
theorem commit_flushes_staggered :
    let upper := Staged.empty.recordAll [.delete ⟨[1]⟩, .put ⟨[2]⟩ [20]]
    let lower := Staged.empty.recordAll [.put ⟨[1]⟩ [10], .delete ⟨[3]⟩]
    let session := staggered upper lower MemoryStore.empty
    session.stack.stagedAt 3 = some upper ∧ session.stack.nearestTracking 3 = 1 ∧
      ∃ after, session.step (.call 3 (.commit .latestFirst)) = some (.done (.ok ()), after) ∧
        after.counters = session.counters ∧
        Flushed 3 (session.stack.nearestTracking 3) upper session.stack after.stack := by
  intro upper lower session
  have tracking : session.stack.stagedAt 3 = some upper := rfl
  exact ⟨tracking, rfl, commit_flushes tracking .latestFirst⟩

/-- Over a backend that writes a batch entirely or not at all, a commit does so
too.  It is refused only with the answer of the backend to the very batch, and
only if no transaction is open between the layer and the backend; the layer is
idle either way, and the transactions above it stay as they are. -/
theorem commit_all_or_nothing {σ : Type u} [Backend σ] [AtomicBackend σ] {session : Session σ}
    {layer : Nat} {staged : Staged} (tracking : session.stack.stagedAt layer = some staged)
    (order : FlushOrder) :
    ∃ result after,
      session.step (.call layer (.commit order)) = some (.done result, after) ∧
      (result = .ok () ∧
          Flushed layer (session.stack.nearestTracking layer) staged session.stack
            after.stack ∨
        ∃ error, result = .error error ∧
          (Backend.writeBatch session.stack.backend (staged.batch order)).result =
            .error error ∧
          (∀ lower, lower < layer → session.stack.stagedAt lower = none) ∧
          Refused layer session.stack after.stack) ∧
      after.stack.stagedAt layer = none ∧
      ∀ upper, layer < upper → after.stack.stagedAt upper = session.stack.stagedAt upper := by
  rcases Stack.exists_of_stagedAt_eq_some tracking with ⟨below, overlays, rfl, stack_eq⟩
  have target_eq := Stack.nearestTracking_beneath_overlay (some staged) below overlays
  refine ⟨_, _, Session.step_commit stack_eq order, ?_⟩
  rw [stack_eq]
  cases answer : (below.writeBatch (staged.batch order)).result with
  | ok done =>
      have flushed := flushed_of_ok answer overlays
      refine ⟨Or.inl ⟨rfl, ?_⟩, flushed.idle, fun upper above => ?_⟩
      · rw [target_eq]
        exact flushed
      · have notTarget := Nat.ne_of_gt
          (Nat.lt_of_le_of_lt below.landing_le_depth (Nat.lt_of_succ_lt above))
        exact flushed.stagedAt_other upper (Nat.ne_of_gt above) notTarget
  | error error =>
      have refused := refused_of_error answer overlays
      rcases Stack.landing_eq_zero_of_error answer with ⟨lands, backend_answer⟩
      refine ⟨Or.inr ⟨error, rfl, ?_, fun lower isBelow => ?_, refused⟩, refused.idle,
        fun upper above => refused.stagedAt_other upper (Nat.ne_of_gt above)⟩
      · rw [Stack.backend_beneath]
        exact backend_answer
      · rcases Nat.eq_zero_or_pos lower with atBackend | positive
        · rw [atBackend, Stack.stagedAt_zero]
        · refine Stack.stagedAt_eq_none_of_nearestTracking_lt ?_ isBelow
          rw [target_eq, lands]
          exact positive

/-- A store that refuses every batch refuses a transaction through two idle overlays, with
its own answer.  The put that was staged over what the store holds is gone, and so is the
delete. -/
theorem commit_all_or_nothing_refused :
    let staged := Staged.empty.recordAll [.put ⟨[1]⟩ [10], .delete ⟨[2]⟩]
    let store : BatchRefusingStore := ⟨Table.empty.insert ⟨[2]⟩ [20], "read only"⟩
    let session : Session BatchRefusingStore :=
      ⟨.overlay none (.overlay (some staged) (.overlay none (.overlay none (.base store)))),
        .zero⟩
    session.stack.stagedAt 3 = some staged ∧
      session.stack.readAt 3 ⟨[1]⟩ = some (.ok (some [10])) ∧
      session.stack.readAt 3 ⟨[2]⟩ = some (.ok none) ∧
      ∃ result after,
        session.step (.call 3 (.commit .latestFirst)) = some (.done result, after) ∧
        (result = .ok () ∧
            Flushed 3 (session.stack.nearestTracking 3) staged session.stack after.stack ∨
          ∃ error, result = .error error ∧
            (Backend.writeBatch session.stack.backend (staged.batch .latestFirst)).result =
              .error error ∧
            (∀ lower, lower < 3 → session.stack.stagedAt lower = none) ∧
            Refused 3 session.stack after.stack) ∧
        after.stack.stagedAt 3 = none ∧
        (∀ upper, 3 < upper → after.stack.stagedAt upper = session.stack.stagedAt upper) ∧
        result = .error (.engine "read only") ∧
        after.stack.readAt 3 ⟨[1]⟩ = some (.ok none) ∧
        after.stack.readAt 3 ⟨[2]⟩ = some (.ok (some [20])) := by
  intro staged store session
  have tracking : session.stack.stagedAt 3 = some staged := rfl
  obtain ⟨result, after, stepped, ends, idle, upper⟩ := commit_all_or_nothing tracking .latestFirst
  refine ⟨tracking, rfl, rfl, result, after, stepped, ends, idle, upper, ?_⟩
  cases stepped
  exact ⟨rfl, rfl, rfl⟩

end PathStore
