import PathStore.Overlay.Apply

/-!
# Sessions over a stack

A session drives the stores of one stack in any order: each step addresses one
of them by its number of overlays, and the overlay-only steps need an overlay
there.  All applications of batch files share the counters of the session.
-/

namespace PathStore

universe u

/-- A call to one store of a stack. -/
inductive Action where
  | get (key : Key)
  | write (write : Write)
  | batch (batch : Batch)
  | close
  | start
  | commit (order : FlushOrder)
  | rollback
  /-- Reads below the overlay that is addressed. -/
  | getBelow (key : Key)
  | apply (order : FlushOrder) (operations : List Operation) (dryRun : Bool)

/-- What a call answers. -/
inductive Reply where
  | done (result : Except StoreError Unit)
  | value (result : Except StoreError (Option Value))
  | applied (result : Except ApplyError Summary)

/-- A step of a session. -/
inductive Step where
  /-- A call to the store with `layer` overlays of its own. -/
  | call (layer : Nat) (action : Action)
  /-- Puts a new idle overlay on top. -/
  | wrap
  /-- Takes the topmost overlay off; its open transaction is given up. -/
  | unwrap

/-- A stack and the counters of its transactions. -/
structure Session (σ : Type u) where
  stack : Stack σ
  counters : Counters

namespace Action

variable {σ : Type u} [Backend σ]

/-- A mutating call as an answer, the counters and the store behind it. -/
def answer (counters : Counters) (outcome : Outcome (Stack σ)) :
    (Reply × Counters) × Stack σ :=
  ((.done outcome.result, counters), outcome.store)

/-- Performs a call on a store.  The transaction calls need an overlay. -/
def perform (counters : Counters) (store : Stack σ) :
    Action → Option ((Reply × Counters) × Stack σ)
  | get key => some ((.value (store.read key), counters), store)
  | write change => some (answer counters (store.write change))
  | batch changes => some (answer counters (store.writeBatch changes))
  | close => some (answer counters store.close)
  | start => store.top?.map fun top => answer counters (top.start.map Overlay.toStack)
  | commit order =>
    store.top?.map fun top => answer counters ((top.commit order).map Overlay.toStack)
  | rollback => store.top?.map fun top => answer counters (top.rollback.map Overlay.toStack)
  | getBelow key => store.top?.map fun top => ((.value (top.below.read key), counters), store)
  | apply order operations dryRun => store.top?.map fun top =>
    let applied := top.apply order operations dryRun counters
    ((.applied applied.result, applied.counters), applied.overlay.toStack)

end Action

namespace Session

variable {σ : Type u} [Backend σ]

/-- Performs a step.  A step that addresses no store, or a transaction call
that addresses no overlay, is not performed. -/
def step (session : Session σ) : Step → Option (Reply × Session σ)
  | .call layer action =>
    (session.stack.onLayer layer fun store => action.perform session.counters store).map
      fun answer => (answer.1.1, ⟨answer.2, answer.1.2⟩)
  | .wrap => some (.done (.ok ()), { session with stack := .overlay none session.stack })
  | .unwrap => session.stack.top?.map fun top =>
    (.done (.ok ()), { session with stack := top.below })

/-- Performs steps in order, with the answer of each. -/
def run (session : Session σ) : List Step → Option (List Reply × Session σ)
  | [] => some ([], session)
  | step :: rest => do
    let (reply, next) ← session.step step
    let (replies, last) ← next.run rest
    return (reply :: replies, last)

end Session

end PathStore
