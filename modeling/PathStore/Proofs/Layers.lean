import PathStore.Overlay.Session

/-!
# The layers of a stack

Layer `n` of a stack is the store with `n` overlays of its own.  A store can be
put beneath overlays, and every stack is one of its layers beneath the overlays
above it.  A call to a layer changes that layer and leaves the overlays above
it as they are, so a statement about a call needs only its layer, the overlays
above and the store below.
-/

namespace PathStore

universe u

namespace Stack

variable {σ : Type u}

/-- A store beneath overlays, of which the first is the topmost. -/
def beneath (overlays : List (Option Staged)) (store : Stack σ) : Stack σ :=
  overlays.foldr overlay store

@[simp]
theorem beneath_nil (store : Stack σ) : store.beneath [] = store :=
  rfl

@[simp]
theorem beneath_cons (staged : Option Staged) (overlays : List (Option Staged))
    (store : Stack σ) :
    store.beneath (staged :: overlays) = overlay staged (store.beneath overlays) :=
  rfl

@[simp]
theorem depth_base (store : σ) : (base store).depth = 0 :=
  rfl

@[simp]
theorem depth_overlay (staged : Option Staged) (below : Stack σ) :
    (overlay staged below).depth = below.depth + 1 :=
  rfl

@[simp]
theorem depth_beneath (store : Stack σ) (overlays : List (Option Staged)) :
    (store.beneath overlays).depth = overlays.length + store.depth := by
  induction overlays with
  | nil => simp
  | cons staged rest ih => simp [ih, Nat.add_right_comm]

theorem depth_le_depth_beneath (store : Stack σ) (overlays : List (Option Staged)) :
    store.depth ≤ (store.beneath overlays).depth := by
  rw [depth_beneath]
  exact Nat.le_add_left _ _

@[simp]
theorem backend_beneath (store : Stack σ) (overlays : List (Option Staged)) :
    (store.beneath overlays).backend = store.backend := by
  induction overlays with
  | nil => rfl
  | cons staged rest ih => exact ih

@[simp]
theorem depth_idle (store : σ) (depth : Nat) : (idle store depth).depth = depth := by
  induction depth with
  | zero => rfl
  | succ depth ih => exact congrArg (· + 1) ih

@[simp]
theorem backend_idle (store : σ) (depth : Nat) : (idle store depth).backend = store := by
  induction depth with
  | zero => rfl
  | succ depth ih => exact ih

/-- Every layer is a store beneath the overlays above it. -/
theorem exists_of_le_depth {stack : Stack σ} {layer : Nat} (within : layer ≤ stack.depth) :
    ∃ (store : Stack σ) (overlays : List (Option Staged)),
      layer = store.depth ∧ stack = store.beneath overlays := by
  induction stack with
  | base store => exact ⟨base store, [], Nat.le_zero.mp within, rfl⟩
  | overlay staged below ih =>
      rcases Nat.eq_or_lt_of_le within with atTop | inside
      · exact ⟨overlay staged below, [], atTop, rfl⟩
      · rcases ih (Nat.le_of_lt_succ inside) with ⟨store, overlays, isLayer, rfl⟩
        exact ⟨store, staged :: overlays, isLayer, rfl⟩

/-! ## Finding a layer -/

theorem layer?_base (layer : Nat) (store : σ) :
    (base store).layer? layer = if layer = 0 then some (base store) else none :=
  rfl

theorem layer?_overlay (layer : Nat) (staged : Option Staged) (below : Stack σ) :
    (overlay staged below).layer? layer =
      if layer = below.depth + 1 then some (overlay staged below) else below.layer? layer :=
  rfl

/-- The topmost layer is the whole stack. -/
@[simp]
theorem layer?_depth (stack : Stack σ) : stack.layer? stack.depth = some stack := by
  cases stack with
  | base store => rfl
  | overlay staged below => exact if_pos rfl

/-- There is no layer above the topmost one. -/
theorem layer?_eq_none_of_depth_lt {stack : Stack σ} {layer : Nat}
    (above : stack.depth < layer) : stack.layer? layer = none := by
  induction stack with
  | base store => exact if_neg (Nat.ne_of_gt above)
  | overlay staged below ih =>
      have notTop : layer ≠ below.depth + 1 := Nat.ne_of_gt above
      rw [layer?_overlay, if_neg notTop]
      exact ih (Nat.lt_of_succ_lt above)

/-- Overlays on top hide no layer. -/
theorem layer?_beneath {store : Stack σ} {layer : Nat} (within : layer ≤ store.depth)
    (overlays : List (Option Staged)) :
    (store.beneath overlays).layer? layer = store.layer? layer := by
  induction overlays with
  | nil => rfl
  | cons staged rest ih =>
      have below := Nat.le_trans within (depth_le_depth_beneath store rest)
      rw [beneath_cons, layer?_overlay, if_neg (Nat.ne_of_lt (Nat.lt_succ_of_le below)), ih]

/-- A layer is a store of that depth that lies beneath the overlays above it. -/
theorem layer?_eq_some_iff {stack store : Stack σ} {layer : Nat} :
    stack.layer? layer = some store ↔
      store.depth = layer ∧ ∃ overlays, stack = store.beneath overlays := by
  constructor
  · intro found
    induction stack with
    | base bottom =>
        rw [layer?_base] at found
        split at found
        · rename_i atBottom
          cases found
          exact ⟨atBottom.symm, [], rfl⟩
        · cases found
    | overlay staged below ih =>
        rw [layer?_overlay] at found
        split at found
        · rename_i atTop
          cases found
          exact ⟨atTop.symm, [], rfl⟩
        · rcases ih found with ⟨depth_eq, overlays, rfl⟩
          exact ⟨depth_eq, staged :: overlays, rfl⟩
  · rintro ⟨rfl, overlays, rfl⟩
    rw [layer?_beneath (Nat.le_refl _), layer?_depth]

/-- A call to a layer leaves the overlays above it as they are. -/
theorem onLayer_beneath {α : Type} (act : Stack σ → Option (α × Stack σ)) (store : Stack σ)
    (overlays : List (Option Staged)) :
    (store.beneath overlays).onLayer store.depth act =
      (act store).map fun answer => (answer.1, answer.2.beneath overlays) := by
  induction overlays with
  | nil =>
      cases store with
      | base bottom => simp [onLayer]
      | overlay staged below => simp [onLayer]
  | cons staged rest ih =>
      have below := Nat.lt_succ_of_le (depth_le_depth_beneath store rest)
      rw [beneath_cons, onLayer, if_neg (Nat.ne_of_lt below), ih, Option.map_map]
      rfl

theorem onLayer_eq_none_of_depth_lt {α : Type} (act : Stack σ → Option (α × Stack σ))
    {stack : Stack σ} {layer : Nat} (above : stack.depth < layer) :
    stack.onLayer layer act = none := by
  induction stack with
  | base store => exact if_neg (Nat.ne_of_gt above)
  | overlay staged below ih =>
      have notTop : layer ≠ below.depth + 1 := Nat.ne_of_gt above
      rw [onLayer, if_neg notTop, ih (Nat.lt_of_succ_lt above)]
      rfl

/-! ## Reads of a layer -/

/-- What a key reads as at a layer. -/
def readAt [Backend σ] (stack : Stack σ) (layer : Nat) (key : Key) :
    Option (Except StoreError (Option Value)) :=
  (stack.layer? layer).map fun store => store.read key

section Reads

variable [Backend σ]

theorem readAt_depth (stack : Stack σ) (key : Key) :
    stack.readAt stack.depth key = some (stack.read key) := by
  rw [readAt, layer?_depth]
  rfl

theorem readAt_overlay (layer : Nat) (staged : Option Staged) (below : Stack σ) (key : Key) :
    (overlay staged below).readAt layer key =
      if layer = below.depth + 1 then some ((overlay staged below).read key)
      else below.readAt layer key := by
  rw [readAt, layer?_overlay]
  split <;> rfl

theorem readAt_beneath {store : Stack σ} {layer : Nat} (within : layer ≤ store.depth)
    (overlays : List (Option Staged)) (key : Key) :
    (store.beneath overlays).readAt layer key = store.readAt layer key := by
  rw [readAt, layer?_beneath within, readAt]

/-- Overlays read alike over stores that read alike. -/
theorem read_beneath_congr {first second : Stack σ}
    (alike : ∀ key, first.read key = second.read key) (overlays : List (Option Staged))
    (key : Key) : (first.beneath overlays).read key = (second.beneath overlays).read key := by
  induction overlays with
  | nil => exact alike key
  | cons staged rest ih =>
      cases staged with
      | none => exact ih
      | some staged => simp only [beneath_cons, read, ih]

/-- A store may be replaced by one that reads alike: no layer at or above it
notices. -/
theorem readAt_beneath_congr {first second : Stack σ} (same_depth : first.depth = second.depth)
    (alike : ∀ key, first.read key = second.read key) (overlays : List (Option Staged))
    {layer : Nat} (above : first.depth ≤ layer) (key : Key) :
    (first.beneath overlays).readAt layer key = (second.beneath overlays).readAt layer key := by
  induction overlays with
  | nil =>
      rcases Nat.eq_or_lt_of_le above with atTop | beyond
      · subst atTop
        rw [beneath_nil, beneath_nil, readAt_depth, same_depth, readAt_depth, alike]
      · rw [beneath_nil, beneath_nil, readAt, readAt, layer?_eq_none_of_depth_lt beyond,
          layer?_eq_none_of_depth_lt (same_depth ▸ beyond)]
  | cons staged rest ih =>
      have reads := read_beneath_congr alike (staged :: rest) key
      simp only [beneath_cons] at reads ⊢
      simp only [readAt_overlay, reads, ih, depth_beneath, same_depth]

end Reads

/-! ## The transaction of a layer -/

/-- The staged changes of a layer, if it is an overlay with an open
transaction. -/
def stagedAt (stack : Stack σ) (layer : Nat) : Option Staged :=
  ((stack.layer? layer).bind top?).bind Overlay.staged

@[simp]
theorem stagedAt_base (store : σ) (layer : Nat) : (base store).stagedAt layer = none := by
  rw [stagedAt, layer?_base]
  split <;> rfl

theorem stagedAt_overlay (layer : Nat) (staged : Option Staged) (below : Stack σ) :
    (overlay staged below).stagedAt layer =
      if layer = below.depth + 1 then staged else below.stagedAt layer := by
  rw [stagedAt, layer?_overlay]
  split <;> rfl

/-- The staged changes of the topmost overlay. -/
theorem stagedAt_top (staged : Option Staged) (below : Stack σ) :
    (overlay staged below).stagedAt (below.depth + 1) = staged := by
  rw [stagedAt_overlay, if_pos rfl]

theorem stagedAt_beneath {store : Stack σ} {layer : Nat} (within : layer ≤ store.depth)
    (overlays : List (Option Staged)) :
    (store.beneath overlays).stagedAt layer = store.stagedAt layer := by
  rw [stagedAt, layer?_beneath within, stagedAt]

/-- The overlays on top of a store do not depend on it. -/
theorem stagedAt_beneath_congr {first second : Stack σ}
    (same_depth : first.depth = second.depth) (overlays : List (Option Staged)) {layer : Nat}
    (above : first.depth < layer) :
    (first.beneath overlays).stagedAt layer = (second.beneath overlays).stagedAt layer := by
  induction overlays with
  | nil =>
      rw [beneath_nil, beneath_nil, stagedAt, stagedAt, layer?_eq_none_of_depth_lt above,
        layer?_eq_none_of_depth_lt (same_depth ▸ above)]
  | cons staged rest ih =>
      simp only [beneath_cons, stagedAt_overlay, ih, depth_beneath, same_depth]

/-- An overlay of a stack lies beneath the ones above it. -/
theorem exists_of_top? {stack : Stack σ} {layer : Nat} {top : Overlay σ}
    (isTop : (stack.layer? layer).bind top? = some top) :
    ∃ overlays, layer = top.below.depth + 1 ∧ stack = top.toStack.beneath overlays := by
  rcases Option.bind_eq_some_iff.mp isTop with ⟨store, found, isStore⟩
  rcases layer?_eq_some_iff.mp found with ⟨depth_eq, overlays, stack_eq⟩
  cases store with
  | base bottom => cases isStore
  | overlay staged below =>
      cases isStore
      exact ⟨overlays, depth_eq.symm, stack_eq⟩

/-- So does a layer with an open transaction. -/
theorem exists_of_stagedAt_eq_some {stack : Stack σ} {layer : Nat} {staged : Staged}
    (tracking : stack.stagedAt layer = some staged) :
    ∃ below overlays, layer = below.depth + 1 ∧
      stack = (overlay (some staged) below).beneath overlays := by
  rcases Option.bind_eq_some_iff.mp tracking with ⟨⟨_, below⟩, isTop, rfl⟩
  rcases exists_of_top? isTop with ⟨overlays, layer_eq, stack_eq⟩
  exact ⟨below, overlays, layer_eq, stack_eq⟩

/-- Nothing is staged at the backend. -/
theorem stagedAt_zero (stack : Stack σ) : stack.stagedAt 0 = none := by
  induction stack with
  | base store => exact stagedAt_base store 0
  | overlay staged below ih => rw [stagedAt_overlay, if_neg (Nat.succ_ne_zero _).symm, ih]

/-! ## One overlay and the store below it -/

section OneOverlay

variable {below : Stack σ} {lower : Nat}

theorem layer?_lower (within : lower ≤ below.depth) (staged : Option Staged)
    (overlays : List (Option Staged)) :
    ((overlay staged below).beneath overlays).layer? lower = below.layer? lower :=
  (layer?_beneath (Nat.le_succ_of_le within) overlays).trans (layer?_beneath within [staged])

theorem stagedAt_lower (within : lower ≤ below.depth) (staged : Option Staged)
    (overlays : List (Option Staged)) :
    ((overlay staged below).beneath overlays).stagedAt lower = below.stagedAt lower := by
  rw [stagedAt, layer?_lower within, stagedAt]

theorem stagedAt_own (staged : Option Staged) (below : Stack σ)
    (overlays : List (Option Staged)) :
    ((overlay staged below).beneath overlays).stagedAt (below.depth + 1) = staged :=
  (stagedAt_beneath (Nat.le_refl _) overlays).trans (stagedAt_top staged below)

theorem readAt_lower [Backend σ] (within : lower ≤ below.depth) (staged : Option Staged)
    (overlays : List (Option Staged)) (key : Key) :
    ((overlay staged below).beneath overlays).readAt lower key = below.readAt lower key := by
  rw [readAt, layer?_lower within, readAt]

theorem readAt_own [Backend σ] (staged : Option Staged) (below : Stack σ)
    (overlays : List (Option Staged)) (key : Key) :
    ((overlay staged below).beneath overlays).readAt (below.depth + 1) key =
      some ((overlay staged below).read key) :=
  (readAt_beneath (Nat.le_refl _) overlays key).trans (readAt_depth (overlay staged below) key)

end OneOverlay

/-! ## The nearest transaction -/

/-- The nearest layer below a layer that has a transaction open, or the backend
if there is none. -/
def nearestTracking (stack : Stack σ) : Nat → Nat
  | 0 => 0
  | layer + 1 => if (stack.stagedAt layer).isSome then layer else stack.nearestTracking layer

/-- The layer at which the writes of a stack end: idle overlays pass them on. -/
def landing : Stack σ → Nat
  | base _ => 0
  | overlay none below => below.landing
  | overlay (some _) below => below.depth + 1

theorem landing_le_depth (stack : Stack σ) : stack.landing ≤ stack.depth := by
  induction stack with
  | base store => exact Nat.le_refl 0
  | overlay staged below ih =>
      cases staged with
      | none => exact Nat.le_succ_of_le ih
      | some staged => exact Nat.le_refl _

/-- Writes land in the backend if all overlays over it are idle. -/
theorem eq_idle_of_landing {stack : Stack σ} (lands : stack.landing = 0) :
    stack = idle stack.backend stack.depth := by
  induction stack with
  | base store => rfl
  | overlay staged below ih =>
      cases staged with
      | none => exact congrArg (overlay none) (ih lands)
      | some staged => cases lands

/-- The search for the nearest transaction looks at lower layers only. -/
theorem nearestTracking_beneath {store : Stack σ} {layer : Nat}
    (within : layer ≤ store.depth + 1) (overlays : List (Option Staged)) :
    (store.beneath overlays).nearestTracking layer = store.nearestTracking layer := by
  induction layer with
  | zero => rfl
  | succ layer ih =>
      rw [nearestTracking, stagedAt_beneath (Nat.le_of_succ_le_succ within),
        ih (Nat.le_of_succ_le within), nearestTracking]

/-- The nearest transaction from the top of a stack down is where it lands. -/
theorem nearestTracking_eq_landing (stack : Stack σ) :
    stack.nearestTracking (stack.depth + 1) = stack.landing := by
  induction stack with
  | base store => simp [nearestTracking, landing]
  | overlay staged below ih =>
      rw [nearestTracking, depth_overlay, stagedAt_top]
      cases staged with
      | none => exact (nearestTracking_beneath (Nat.le_refl _) [none]).trans ih
      | some staged => rfl

theorem nearestTracking_beneath_overlay (staged : Option Staged) (below : Stack σ)
    (overlays : List (Option Staged)) :
    ((overlay staged below).beneath overlays).nearestTracking (below.depth + 1) =
      below.landing := by
  have within : below.depth + 1 ≤ (overlay staged below).depth + 1 := Nat.le_succ _
  rw [nearestTracking_beneath within, ← nearestTracking_eq_landing below]
  exact nearestTracking_beneath (Nat.le_refl _) [staged]

/-- There is no transaction between a layer and the nearest one below it. -/
theorem stagedAt_eq_none_of_nearestTracking_lt {stack : Stack σ} {layer between : Nat}
    (above : stack.nearestTracking layer < between) (below : between < layer) :
    stack.stagedAt between = none := by
  induction layer with
  | zero => cases below
  | succ layer ih =>
      rw [nearestTracking] at above
      split at above
      · exact absurd (Nat.le_of_lt_succ below) (Nat.not_le_of_lt above)
      · rename_i idle
        rcases Nat.eq_or_lt_of_le (Nat.le_of_lt_succ below) with equal | lower
        · rw [equal]
          exact Option.not_isSome_iff_eq_none.mp idle
        · exact ih above lower

end Stack

namespace Session

variable {σ : Type u} [Backend σ] {session : Session σ} {overlays : List (Option Staged)}

/-- A call to a layer is performed there, and the overlays above it are put
back. -/
theorem step_beneath {store : Stack σ} (stack_eq : session.stack = store.beneath overlays)
    (action : Action) :
    session.step (.call store.depth action) =
      (action.perform session.counters store).map fun answer =>
        (answer.1.1, ⟨answer.2.beneath overlays, answer.1.2⟩) := by
  have called := Stack.onLayer_beneath
    (fun store => action.perform session.counters store) store overlays
  rw [step, stack_eq, called, Option.map_map]
  rfl

/-- So is a call to an overlay. -/
theorem step_call {top : Option Staged} {below : Stack σ}
    (stack_eq : session.stack = (Stack.overlay top below).beneath overlays) (action : Action) :
    session.step (.call (below.depth + 1) action) =
      (action.perform session.counters (.overlay top below)).map fun answer =>
        (answer.1.1, ⟨answer.2.beneath overlays, answer.1.2⟩) :=
  step_beneath stack_eq action

/-- An application at a layer is one of the overlay there. -/
theorem step_apply {top : Option Staged} {below : Stack σ}
    (stack_eq : session.stack = (Stack.overlay top below).beneath overlays) (order : FlushOrder)
    (operations : List Operation) (dryRun : Bool) :
    session.step (.call (below.depth + 1) (.apply order operations dryRun)) =
      let applied := (⟨top, below⟩ : Overlay σ).apply order operations dryRun session.counters
      some (.applied applied.result,
        ⟨applied.overlay.toStack.beneath overlays, applied.counters⟩) := by
  rw [step_call stack_eq]
  rfl

/-- A rollback at a layer with an open transaction only makes the overlay
idle. -/
theorem step_rollback {staged : Staged} {below : Stack σ}
    (stack_eq : session.stack = (Stack.overlay (some staged) below).beneath overlays) :
    session.step (.call (below.depth + 1) .rollback) =
      some (.done (.ok ()), ⟨(Stack.overlay none below).beneath overlays, session.counters⟩) := by
  rw [step_call stack_eq]
  rfl

/-- A call that is performed addresses a store beneath overlays, which are put
back on what it leaves. -/
theorem exists_of_step_call {next : Session σ} {layer : Nat} {action : Action} {reply : Reply}
    (performed : session.step (.call layer action) = some (reply, next)) :
    ∃ (store : Stack σ) (overlays : List (Option Staged)) (left : Stack σ),
      layer = store.depth ∧ session.stack = store.beneath overlays ∧
      action.perform session.counters store = some ((reply, next.counters), left) ∧
      next.stack = left.beneath overlays := by
  rcases Nat.lt_or_ge session.stack.depth layer with beyond | within
  · rw [step, Stack.onLayer_eq_none_of_depth_lt _ beyond] at performed
    cases performed
  · rcases Stack.exists_of_le_depth within with ⟨store, overlays, rfl, stack_eq⟩
    rw [step_beneath stack_eq, Option.map_eq_some_iff] at performed
    rcases performed with ⟨⟨⟨answer, counters⟩, left⟩, acted, same⟩
    cases same
    exact ⟨store, overlays, left, rfl, stack_eq, acted, rfl⟩

end Session

end PathStore
