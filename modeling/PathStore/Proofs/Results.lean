/-!
# Results of steps that may fail

A chain of steps gives a result exactly if each of them does.  The statements
below take such a chain apart, without a state and with one that also the step
that fails may have changed.
-/

namespace PathStore

universe u v

section

variable {ε : Type u} {α β : Type v} {first : Except ε α}

theorem map_eq_ok_iff {f : α → β} {result : β} :
    first.map f = .ok result ↔ ∃ value, first = .ok value ∧ f value = result := by
  cases first with
  | error error => simp [Except.map]
  | ok value => simp [Except.map]

theorem map_eq_error_iff {f : α → β} {error : ε} :
    first.map f = .error error ↔ first = .error error := by
  cases first with
  | error other => simp [Except.map]
  | ok value => simp [Except.map]

theorem bind_eq_ok_iff {next : α → Except ε β} {result : β} :
    (first >>= next) = .ok result ↔ ∃ value, first = .ok value ∧ next value = .ok result := by
  cases first with
  | error error => simp [bind, Except.bind]
  | ok value => simp [bind, Except.bind]

/-- A chain of steps fails for the reason of the first that does. -/
theorem bind_eq_error_iff {next : α → Except ε β} {error : ε} :
    (first >>= next) = .error error ↔
      first = .error error ∨ ∃ value, first = .ok value ∧ next value = .error error := by
  cases first with
  | error other => simp [bind, Except.bind]
  | ok value => simp [bind, Except.bind]

end

/-- The actions of a chain are run one after the other, up to one that fails. -/
theorem run_bind {ε σ α β : Type} (action : ExceptT ε (StateM σ) α)
    (next : α → ExceptT ε (StateM σ) β) (state : σ) :
    (action >>= next).run state =
      match action.run state with
      | (.ok answer, between) => (next answer).run between
      | (.error error, between) => (.error error, between) := by
  rcases answer : action.run state with ⟨result, between⟩
  rw [ExceptT.run_bind]
  change (StateT.bind action.run _) state = _
  rw [StateT.bind, answer]
  cases result <;> rfl

/-- A chain that succeeds came to its end through a middle. -/
theorem run_bind_eq_ok {ε σ α β : Type} {action : ExceptT ε (StateM σ) α}
    {next : α → ExceptT ε (StateM σ) β} {state after : σ} {result : β}
    (done : (action >>= next).run state = (.ok result, after)) :
    ∃ answer between, action.run state = (.ok answer, between) ∧
      (next answer).run between = (.ok result, after) := by
  rw [run_bind] at done
  split at done
  · exact ⟨_, _, ‹_›, done⟩
  · cases done

end PathStore
