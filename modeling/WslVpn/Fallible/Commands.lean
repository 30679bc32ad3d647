import Mathlib.Data.List.Basic

/-! Commands on a state that can fail, and what they have done to the state by then stays done. -/

namespace Fallible

abbrev Command (State Error Value : Type) := ExceptT Error (StateM State) Value

variable {State Error Value Next Seen : Type} {command : Command State Error Value}
  {next : Value → Command State Error Next} {state after : State} {value : Value} {error : Error}
  {change : State → State} {result : Except Error Value} {see : State → Seen}

/-- How the command ends, and the state that it leaves. -/
def exec (command : Command State Error Value) (state : State) : Except Error Value × State :=
  command.run.run state

@[simp] theorem exec_get : exec (get : Command State Error State) state = (.ok state, state) := rfl

@[simp] theorem exec_modify
    : exec (modify change : Command State Error PUnit) state = (.ok ⟨⟩, change state) :=
  rfl

@[simp] theorem exec_liftExcept
    : exec (liftExcept result : Command State Error Value) state = (result, state) := by
  cases result with
  | ok value => rfl
  | error error => rfl

/-- The second command starts where the first one has succeeded. -/
theorem exec_bind_ok (ran : exec command state = (.ok value, after))
    : exec (command >>= next) state = exec (next value) after := by
  change (command.run.run state) = _ at ran
  change (do let result ← command.run.run state; ExceptT.bindCont next result.1 result.2 : Id _) = _
  rw [ran]
  rfl

/-- An error of the first command ends both. -/
theorem exec_bind_error (ran : exec command state = (.error error, after))
    : exec (command >>= next) state = (.error error, after) := by
  change (command.run.run state) = _ at ran
  change (do let result ← command.run.run state; ExceptT.bindCont next result.1 result.2 : Id _) = _
  rw [ran]
  rfl

theorem exec_bind
    : exec (command >>= next) state
      = match exec command state with
        | (.ok value, after) => exec (next value) after
        | (.error error, after) => (.error error, after) := by
  rcases ran : exec command state with ⟨result, after⟩
  cases result with
  | ok value => exact exec_bind_ok ran
  | error error => exact exec_bind_error ran

-----------------------------------------------------------------------------------------
-- What commands leave alone
-----------------------------------------------------------------------------------------

/-- Whatever comes of the command, what is seen of the state stays the same. -/
def Leaves (see : State → Seen) (command : Command State Error Value) : Prop :=
  ∀ state, see (exec command state).2 = see state

theorem leaves_pure : Leaves see (pure value : Command State Error Value) := fun _ => rfl

theorem leaves_throw : Leaves see (throw error : Command State Error Value) := fun _ => rfl

theorem leaves_get : Leaves see (get : Command State Error State) := fun _ => rfl

theorem leaves_modify (same : ∀ state, see (change state) = see state)
    : Leaves see (modify change : Command State Error PUnit) :=
  same

theorem leaves_liftExcept : Leaves see (liftExcept result : Command State Error Value) := by
  intro state
  rw [exec_liftExcept]

/-- What follows a command and leaves everything alone changes nothing of what the command did. -/
theorem leaves_behind (second : ∀ value, Leaves see (next value))
    : see (exec (command >>= next) state).2 = see (exec command state).2 := by
  rcases ran : exec command state with ⟨result, after⟩
  cases result with
  | ok value => rw [exec_bind_ok ran, second value after]
  | error error => rw [exec_bind_error ran]

theorem leaves_bind (first : Leaves see command) (second : ∀ value, Leaves see (next value))
    : Leaves see (command >>= next) := by
  intro state
  rw [leaves_behind second, first state]

/-- A command may look at the state first. -/
theorem leaves_get_bind {next : State → Command State Error Value}
    (second : ∀ state, see (exec (next state) state).2 = see state)
    : Leaves see (get >>= next) := by
  intro state
  rw [exec_bind_ok exec_get, second state]

theorem leaves_ite {holds : Prop} [Decidable holds] {other : Command State Error Value}
    (first : Leaves see command) (second : Leaves see other)
    : Leaves see (if holds then command else other) := by
  split
  · exact first
  · exact second

end Fallible
