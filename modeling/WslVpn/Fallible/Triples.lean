import WslVpn.Fallible.Commands

/-! What holds behind a command, by whether it has succeeded. The rules follow the shape of a command, so
that a proof goes along its text.
-/

namespace Fallible

variable {State Error Value Next : Type} {before failed : State → Prop}
  {done : Value → State → Prop} {command : Command State Error Value} {value : Value}
  {error : Error} {state after : State} {change : State → State} {result : Except Error Value}

/-- Run in a state that `before` holds of, the command ends with a value and in a state that `done` holds
of, or with an error and in a state that `failed` holds of.
-/
structure Triple (before : State → Prop) (command : Command State Error Value)
    (done : Value → State → Prop) (failed : State → Prop)
    : Prop where
  ok
    : ∀ {state value after}, before state → exec command state = (.ok value, after) →
        done value after
  error
    : ∀ {state error after}, before state → exec command state = (.error error, after) →
        failed after

/-- Whatever comes of the command, the invariant still holds. -/
def Keeps (inv : State → Prop) (command : Command State Error Value) : Prop :=
  Triple inv command (fun _ => inv) inv

namespace Triple

theorem pure (holds : ∀ state, before state → done value state)
    : Triple before (Pure.pure value : Command State Error Value) done failed where
  ok start ran := by
    cases ran
    exact holds _ start
  error _ ran := by cases ran

theorem throw (holds : ∀ state, before state → failed state)
    : Triple before (throw error : Command State Error Value) done failed where
  ok _ ran := by cases ran
  error start ran := by
    cases ran
    exact holds _ start

theorem modify {done : PUnit → State → Prop}
    (changes : ∀ state, before state → done ⟨⟩ (change state))
    : Triple before (modify change : Command State Error PUnit) done failed where
  ok start ran := by
    cases ran
    exact changes _ start
  error _ ran := by cases ran

theorem liftExcept (holds : ∀ value state, result = .ok value → before state → done value state)
    (fails : ∀ state, before state → failed state)
    : Triple before (liftExcept result : Command State Error Value) done failed where
  ok start ran := by
    rw [exec_liftExcept] at ran
    cases ran
    exact holds _ _ rfl start
  error start ran := by
    rw [exec_liftExcept] at ran
    cases ran
    exact fails _ start

theorem mono {weaker : Value → State → Prop} {weakerFailed : State → Prop}
    (triple : Triple before command done failed)
    (implies : ∀ value state, done value state → weaker value state)
    (impliesFailed : ∀ state, failed state → weakerFailed state)
    : Triple before command weaker weakerFailed where
  ok start ran := implies _ _ (triple.ok start ran)
  error start ran := impliesFailed _ (triple.error start ran)

theorem strengthen {stronger : State → Prop} (triple : Triple before command done failed)
    (implies : ∀ state, stronger state → before state)
    : Triple stronger command done failed where
  ok start := triple.ok (implies _ start)
  error start := triple.error (implies _ start)

/-- What holds from every single state of a condition holds from the condition. -/
theorem forEach (each : ∀ state, before state → Triple (· = state) command done failed)
    : Triple before command done failed where
  ok start := (each _ start).ok rfl
  error start := (each _ start).error rfl

/-- The second command goes on where the first one has succeeded. -/
theorem bind {next : Value → Command State Error Next} {final : Next → State → Prop}
    (first : Triple before command done failed)
    (second : ∀ value, Triple (done value) (next value) final failed)
    : Triple before (command >>= next) final failed where
  ok := by
    intro state last after start ran
    rcases came : exec command state with ⟨result, between⟩
    cases result with
    | ok value =>
        rw [exec_bind_ok came] at ran
        exact (second value).ok (first.ok start came) ran
    | error error =>
        rw [exec_bind_error came] at ran
        cases ran
  error := by
    intro state last after start ran
    rcases came : exec command state with ⟨result, between⟩
    cases result with
    | ok value =>
        rw [exec_bind_ok came] at ran
        exact (second value).error (first.ok start came) ran
    | error error =>
        rw [exec_bind_error came] at ran
        cases ran
        exact first.error start came

/-- A command that looks at the state first. -/
theorem get_bind {next : State → Command State Error Value}
    (rest : ∀ seen, before seen → Triple (· = seen) (next seen) done failed)
    : Triple before (get >>= next) done failed where
  ok start ran := by
    rw [exec_bind_ok exec_get] at ran
    exact (rest _ start).ok rfl ran
  error start ran := by
    rw [exec_bind_ok exec_get] at ran
    exact (rest _ start).error rfl ran

theorem ite {holds : Prop} [Decidable holds] {other : Command State Error Value}
    (first : holds → Triple before command done failed)
    (second : ¬ holds → Triple before other done failed)
    : Triple before (if holds then command else other) done failed := by
  split
  · next is => exact first is
  · next isNot => exact second isNot

/-- The state behind a command, however it ends. -/
theorem exec (triple : Triple before command (fun _ => failed) failed) (start : before state)
    : failed (exec command state).2 := by
  rcases ran : Fallible.exec command state with ⟨result, after⟩
  cases result with
  | ok value => exact triple.ok start ran
  | error error => exact triple.error start ran

end Triple

/-- What a command keeps it keeps with the next one. -/
theorem Keeps.bind {inv : State → Prop} {next : Value → Command State Error Next}
    (first : Keeps inv command) (second : ∀ value, Keeps inv (next value))
    : Keeps inv (command >>= next) :=
  Triple.bind first second

end Fallible
