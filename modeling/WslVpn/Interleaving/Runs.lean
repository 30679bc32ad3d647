import Mathlib.Data.List.Basic

/-! Runs of a machine that takes a step only in some of its states. -/

namespace Runs

variable {State Action : Type} (step : State → Action → Option State)

/-- The state behind the actions, if each of them can be taken. -/
def run : State → List Action → Option State
  | state, [] => some state
  | state, action :: rest => (step state action).bind (fun next => run next rest)

/-- Every action that is taken fits the state that it is taken in. -/
def Along (fits : State → Action → Prop) : State → List Action → Prop
  | _, [] => True
  | state, action :: rest =>
      fits state action ∧ ∀ next, step state action = some next → Along fits next rest

variable {step} {state after : State} {action : Action} {first second : List Action}
  {fits : State → Action → Prop} {invariant : State → Prop}

theorem run_cons
    : run step state (action :: first) = some after
      ↔ ∃ next, step state action = some next ∧ run step next first = some after :=
  Option.bind_eq_some_iff

/-- By induction on the first actions. -/
theorem run_append
    : run step state (first ++ second) = some after
      ↔ ∃ middle, run step state first = some middle ∧ run step middle second = some after := by
  induction first generalizing state with
  | nil => simp [run]
  | cons action rest ih =>
      simp only [List.cons_append, run_cons, ih]
      constructor
      · intro ran
        obtain ⟨next, taken, middle, ran, ran'⟩ := ran
        exact ⟨middle, ⟨next, taken, ran⟩, ran'⟩
      · intro ran
        obtain ⟨middle, ⟨next, taken, ran⟩, ran'⟩ := ran
        exact ⟨next, taken, middle, ran, ran'⟩

/-- By induction on the first actions. -/
theorem along_append {middle : State} (ran : run step state first = some middle)
    (along : Along step fits state (first ++ second))
    : Along step fits state first ∧ Along step fits middle second := by
  induction first generalizing state with
  | nil =>
      cases ran
      exact ⟨trivial, along⟩
  | cons action rest ih =>
      obtain ⟨next, taken, ran⟩ := run_cons.mp ran
      obtain ⟨left, right⟩ := ih ran (along.2 next taken)
      refine ⟨⟨along.1, ?_⟩, right⟩
      intro other taken'
      rw [taken] at taken'
      cases taken'
      exact left

theorem along_cons {next : State} (taken : step state action = some next) (here : fits state action)
    (later : Along step fits next first) : Along step fits state (action :: first) := by
  refine ⟨here, ?_⟩
  intro other taken'
  rw [taken] at taken'
  cases taken'
  exact later

/-- What every fitting step keeps holds at the end, by induction on the actions. -/
theorem keeps
    (keep : ∀ state action next, invariant state → fits state action
      → step state action = some next →
      invariant next)
    (start : invariant state) (ran : run step state first = some after)
    (along : Along step fits state first)
    : invariant after := by
  induction first generalizing state with
  | nil =>
      cases ran
      exact start
  | cons action rest ih =>
      obtain ⟨next, taken, ran⟩ := run_cons.mp ran
      exact ih (keep state action next start along.1 taken) ran (along.2 next taken)

/-- By induction on the actions. -/
theorem along_and {good : State → Action → Prop} (left : Along step fits state first)
    (right : Along step good state first)
    : Along step (fun state action => fits state action ∧ good state action) state first := by
  induction first generalizing state with
  | nil => trivial
  | cons action rest ih =>
      refine ⟨⟨left.1, right.1⟩, ?_⟩
      intro next taken
      exact ih (left.2 next taken) (right.2 next taken)

/-- What an invariant says of the fitting steps holds of all of them, when they keep it. By induction on
the actions.
-/
theorem along_of_invariant {good : State → Action → Prop}
    (keep
      : ∀ state action next, invariant state → fits state action
          → step state action = some next → invariant next)
    (gives : ∀ state action, invariant state → fits state action → good state action)
    (start : invariant state) (along : Along step fits state first)
    : Along step good state first := by
  induction first generalizing state with
  | nil => trivial
  | cons action rest ih =>
      refine ⟨gives state action start along.1, ?_⟩
      intro next taken
      exact ih (keep state action next start along.1 taken) (along.2 next taken)

/-- What holds at first and not at the end is lost at one of the steps, by induction on the actions.
-/
theorem lost {next : State → Action → State} {holds : State → Prop} {actions : List Action}
    (start : holds state) (gone : ¬ holds (actions.foldl next state))
    : ∃ before action rest, actions = before ++ action :: rest ∧ holds (before.foldl next state)
      ∧ ¬ holds (next (before.foldl next state) action) := by
  induction actions generalizing state with
  | nil => exact absurd start gone
  | cons action rest ih =>
      by_cases still : holds (next state action)
      · obtain ⟨before, action', rest', split, there, gone'⟩ := ih still gone
        exact ⟨action :: before, action', rest', by rw [split]; rfl, there, gone'⟩
      · exact ⟨[], action, rest, rfl, start, still⟩

end Runs
