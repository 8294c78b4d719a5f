import PathStore.Proofs.Applying
import PathStore.Proofs.Layers
import PathStore.Store.Faulty
import Mathlib.Algebra.Order.Ring.Nat
import Mathlib.Logic.Function.Basic

/-!
# What the counters say of a run

Any number of stacks share one set of counters.  Of all that happens to them,
only the applications of batch files are counted, each in the way in which it
ended: as a commit, as a rehearsal, or as a file that does not decode.  So the
counters of a run can be read off the answers of its applications.
-/

namespace PathStore

universe u v

/-! ## Applications and their tally -/

/-- A batch file that was handed over, with the answer. -/
structure Application where
  operations : List Operation
  dryRun : Bool
  result : Except ApplyError Summary

namespace Application

/-- The answer reports a commit. -/
def isCommit (application : Application) : Bool :=
  match application.result with
  | .ok summary => summary.committed
  | .error _ => false

/-- The answer is that of a rehearsal. -/
def isRehearsal (application : Application) : Bool :=
  match application.result with
  | .ok _ => application.dryRun
  | .error _ => false

/-- The file was turned down because an operation does not decode. -/
def isUndecoded (application : Application) : Bool :=
  match application.result with
  | .error (.operand _) => true
  | _ => false

/-- The writes that were staged when all operations had decoded.  An application
that was refused for an open transaction has not decoded any. -/
def staged (application : Application) : List Write :=
  match application.result, Operation.decodeAll application.operations with
  | .error (.transaction _), _ => []
  | _, .ok writes => writes
  | _, .error _ => []

/-- The application that a step asked for, with its answer. -/
def of? : Step → Reply → Option Application
  | .call _ (.apply _ operations dryRun), .applied result => some ⟨operations, dryRun, result⟩
  | _, _ => none

end Application

/-- The counters tell how many applications were committed, how many were rolled
back, and how many keys their writes put and deleted in the end. -/
structure Counters.Tally (counters : Counters) (applications : List Application) : Prop where
  commits : counters.commits = applications.countP Application.isCommit
  rollbacks : counters.rollbacks =
    applications.countP Application.isRehearsal + applications.countP Application.isUndecoded
  stagedPuts : counters.stagedPuts =
    (applications.map fun application => (Write.keysPut application.staged).length).sum
  stagedDeletes : counters.stagedDeletes =
    (applications.map fun application => (Write.keysDeleted application.staged).length).sum

namespace Counters

/-- The counters after an application with a given answer. -/
def record (counters : Counters) (application : Application) : Counters where
  commits := counters.commits + application.isCommit.toNat
  rollbacks :=
    counters.rollbacks + (application.isRehearsal.toNat + application.isUndecoded.toNat)
  stagedPuts := counters.stagedPuts + (Write.keysPut application.staged).length
  stagedDeletes := counters.stagedDeletes + (Write.keysDeleted application.staged).length

theorem tally_zero : zero.Tally [] :=
  ⟨rfl, rfl, rfl, rfl⟩

/-- An application that is recorded is tallied with the earlier ones. -/
theorem Tally.record {counters : Counters} {earlier : List Application}
    (tally : counters.Tally earlier) (application : Application) :
    (counters.record application).Tally (earlier ++ [application]) := by
  have once (isSo : Application → Bool) :
      [application].countP isSo = (isSo application).toNat := by
    cases isSo_eq : isSo application <;> simp [isSo_eq]
  constructor
  · rw [List.countP_append, once, ← tally.commits]
    rfl
  · rw [List.countP_append, List.countP_append, once, once, Nat.add_add_add_comm,
      ← tally.rollbacks]
    rfl
  · rw [List.map_append, List.sum_append, ← tally.stagedPuts]
    rfl
  · rw [List.map_append, List.sum_append, ← tally.stagedDeletes]
    rfl

end Counters

/-- However an application ends, it is counted as its answer says. -/
theorem Overlay.apply_counters {σ : Type u} [Backend σ] (order : FlushOrder)
    (overlay : Overlay σ) (operations : List Operation) (dryRun : Bool) (counters : Counters) :
    (overlay.apply order operations dryRun counters).counters =
      counters.record
        ⟨operations, dryRun, (overlay.apply order operations dryRun counters).result⟩ := by
  obtain ⟨_ | staged, below⟩ := overlay
  case some => rfl
  case none =>
    change ((Overlay.idle below).apply order operations dryRun counters).counters =
      counters.record
        ⟨operations, dryRun, ((Overlay.idle below).apply order operations dryRun counters).result⟩
    cases decoded : Operation.decodeAll operations with
    | error error =>
        rw [apply_of_decode_error order operations dryRun counters decoded]
        simp only [Counters.record, Application.staged, decoded]
        rfl
    | ok writes =>
        cases dryRun with
        | true =>
            rw [apply_rehearsal order operations counters decoded]
            simp only [Counters.record, Application.staged, decoded]
            rfl
        | false =>
            rw [apply_flush order operations counters decoded]
            rcases below.writeBatch ((Staged.empty.recordAll writes).batch order) with
              ⟨_ | _, flushed⟩
            · simp only [Counters.record, Application.staged, decoded]
              rfl
            · simp only [Counters.record, Application.staged, decoded]
              rfl

/-! ## What the calls to a stack count -/

/-- The counters behind a step are those in front of it, with the application
that it may have been. -/
def Counters.after (counters : Counters) : Option Application → Counters
  | none => counters
  | some application => counters.record application

theorem Stack.act_of_onLayer {σ : Type u} {α : Type} {layer : Nat}
    {act : Stack σ → Option (α × Stack σ)} {stack after : Stack σ} {answer : α}
    (done : stack.onLayer layer act = some (answer, after)) :
    ∃ store left, act store = some (answer, left) := by
  induction stack generalizing after with
  | base store =>
      rw [onLayer] at done
      split_ifs at done
      exact ⟨.base store, after, done⟩
  | overlay staged below ih =>
      rw [onLayer] at done
      split_ifs at done
      · exact ⟨.overlay staged below, after, done⟩
      · obtain ⟨⟨found, left⟩, inner, same⟩ := Option.map_eq_some_iff.1 done
        cases same
        exact ih inner

section

variable {σ : Type u} [Backend σ]

/-- Of all calls only an application is counted. -/
theorem Action.perform_counters {counters after : Counters} {store left : Stack σ}
    {action : Action} {reply : Reply} (layer : Nat)
    (done : action.perform counters store = some ((reply, after), left)) :
    after = counters.after (Application.of? (.call layer action) reply) := by
  cases action with
  | get | write | batch | close =>
      cases done
      rfl
  | start | commit | rollback | getBelow =>
      obtain ⟨top, -, same⟩ := Option.map_eq_some_iff.1 done
      cases same
      rfl
  | apply order operations dryRun =>
      obtain ⟨top, -, same⟩ := Option.map_eq_some_iff.1 done
      cases same
      exact top.apply_counters order operations dryRun counters

theorem Session.step_counters {session next : Session σ} {step : Step} {reply : Reply}
    (done : session.step step = some (reply, next)) :
    next.counters = session.counters.after (Application.of? step reply) := by
  cases step with
  | call layer action =>
      obtain ⟨⟨⟨answer, counters⟩, stack⟩, performed, same⟩ := Option.map_eq_some_iff.1 done
      cases same
      obtain ⟨store, left, performed⟩ := Stack.act_of_onLayer performed
      exact Action.perform_counters layer performed
  | wrap =>
      cases done
      rfl
  | unwrap =>
      obtain ⟨top, -, same⟩ := Option.map_eq_some_iff.1 done
      cases same
      rfl

end

/-! ## Stacks that share their counters -/

/-- Stacks whose applications share one set of counters. -/
structure SharedStacks (ι : Type v) (σ : Type u) where
  stackAt : ι → Stack σ
  counters : Counters

/-- What may happen to one of several stacks. -/
inductive Event (ι : Type v) (σ : Type u) where
  /-- A step of a session over the stack. -/
  | step (place : ι) (step : Step)
  /-- The stack is set up anew, or a store of it is changed from elsewhere. -/
  | replace (place : ι) (stack : Stack σ)

namespace SharedStacks

variable {ι : Type v} {σ : Type u} [DecidableEq ι] [Backend σ]

/-- Lets an event happen, and tells which application it was, if it was one. -/
def step (shared : SharedStacks ι σ) : Event ι σ → Option (Option Application × SharedStacks ι σ)
  | .step place step =>
    (Session.step ⟨shared.stackAt place, shared.counters⟩ step).map fun answer =>
      (Application.of? step answer.1,
        ⟨Function.update shared.stackAt place answer.2.stack, answer.2.counters⟩)
  | .replace place stack =>
    some (none, { shared with stackAt := Function.update shared.stackAt place stack })

/-- Lets events happen in order, and tells the applications among them. -/
def run (shared : SharedStacks ι σ) :
    List (Event ι σ) → Option (List Application × SharedStacks ι σ)
  | [] => some ([], shared)
  | event :: rest => do
    let (application, next) ← shared.step event
    let (applications, last) ← next.run rest
    return (application.toList ++ applications, last)

variable {shared next last : SharedStacks ι σ} {event : Event ι σ} {events : List (Event ι σ)}

theorem step_counters {application : Option Application}
    (done : shared.step event = some (application, next)) :
    next.counters = shared.counters.after application := by
  cases event with
  | step place step =>
      obtain ⟨⟨reply, session⟩, performed, same⟩ := Option.map_eq_some_iff.1 done
      cases same
      exact Session.step_counters performed
  | replace place stack =>
      cases done
      rfl

/-- A run adds its applications to a tally. -/
theorem tally_run {earlier applications : List Application}
    (tally : shared.counters.Tally earlier)
    (ran : shared.run events = some (applications, last)) :
    last.counters.Tally (earlier ++ applications) := by
  induction events generalizing shared earlier applications with
  | nil =>
      cases ran
      rwa [List.append_nil]
  | cons event rest ih =>
      rw [run, Option.bind_eq_bind, Option.bind_eq_some_iff] at ran
      obtain ⟨⟨application, next⟩, stepped, ran⟩ := ran
      rw [Option.bind_eq_bind, Option.bind_eq_some_iff] at ran
      obtain ⟨⟨others, reached⟩, further, same⟩ := ran
      cases same
      have counted := step_counters stepped
      rw [← List.append_assoc]
      refine ih ?_ further
      rw [counted]
      cases application with
      | none => rwa [Option.toList_none, List.append_nil]
      | some application => exact tally.record application

end SharedStacks

/-- Whatever happens to stacks that share their counters, over backends of any
kind, the counters of a run tell its commits, its rehearsals and files that do not
decode, and the keys that were put and deleted by files that do.  Nothing else is
counted: no other event, and no application that meets an open transaction. -/
theorem counters_tally {ι : Type v} {σ : Type u} [DecidableEq ι] [Backend σ]
    {shared last : SharedStacks ι σ} {events : List (Event ι σ)} {applications : List Application}
    (fresh : shared.counters = .zero) (ran : shared.run events = some (applications, last)) :
    last.counters.Tally applications ∧
      (∀ {before after : SharedStacks ι σ} {event : Event ι σ},
        before.step event = some (none, after) → after.counters = before.counters) ∧
      ∀ {before after : SharedStacks ι σ} {event : Event ι σ} {application : Application},
        before.step event = some (some application, after) →
          application.result = .error (.transaction .alreadyTracking) →
            after.counters = before.counters := by
  refine ⟨?tally, ?others, ?refused⟩
  case tally =>
    have nothing : shared.counters.Tally [] := by
      rw [fresh]
      exact Counters.tally_zero
    exact SharedStacks.tally_run nothing ran
  case others =>
    intro before after event done
    exact SharedStacks.step_counters done
  case refused =>
    rintro before after event ⟨operations, dryRun, result⟩ done rfl
    exact SharedStacks.step_counters done

/-- A commit with a key that is put twice, a rehearsal, a file that the store below
refuses, one that meets an open transaction, and, once that store is replaced, one
that does not decode. -/
def allEndings : List (Event Bool AnyStore) :=
  [.step true
      (.call 2 (.apply .latestFirst [.put "01" "0a", .put "0x01" "0b", .delete "02"] false)),
    .step true (.call 2 (.apply .latestFirst [.put "03" "ff"] true)),
    .step false (.call 1 (.apply .latestFirst [.delete "04"] false)),
    .step true (.call 2 .start),
    .step true (.call 2 (.apply .latestFirst [.put "05" "aa"] false)),
    .replace false (.overlay none (.base (.mk MemoryStore.empty))),
    .step false (.call 1 (.apply .latestFirst [.put "06" "aa", .delete "0"] false))]

/-- Each of the five endings is counted, over a memory store with two overlays and
a store that refuses every batch. -/
theorem counters_tally_allEndings :
    let shared : SharedStacks Bool AnyStore :=
      ⟨fun
        | true => .overlay none (.overlay none (.base (.mk MemoryStore.empty)))
        | false => .overlay none (.base (.mk (BatchRefusingStore.mk .empty "read only"))), .zero⟩
    ((shared.run allEndings).map fun answer => (answer.1.length, answer.2.counters)) =
        some (5, ⟨1, 2, 2, 2⟩) ∧
      ∃ applications last, shared.run allEndings = some (applications, last) ∧
        last.counters.Tally applications := by
  intro shared
  have answers : ((shared.run allEndings).map fun answer =>
      (answer.1.length, answer.2.counters)) = some (5, ⟨1, 2, 2, 2⟩) := rfl
  obtain ⟨⟨applications, last⟩, ran, -⟩ := Option.map_eq_some_iff.1 answers
  exact ⟨answers, applications, last, ran, (counters_tally rfl ran).1⟩

end PathStore
