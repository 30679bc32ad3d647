import WslVpn.Fallible.Commands

/-! How commands end from the states of a condition: with which result, and in which states. The rules
follow the shape of a command, so that a proof goes along its text.
-/

namespace Fallible

variable {State Error Value Next : Type} {before between after : State → Prop}
  {command : Command State Error Value} {next : Value → Command State Error Next}
  {result : Except Error Value} {final : Except Error Next} {value : Value} {error : Error}
  {change : State → State}

/-- From a state that `before` holds of, the command comes to the result, and `after` holds then. -/
def Ends (before : State → Prop) (command : Command State Error Value) (result : Except Error Value)
    (after : State → Prop)
    : Prop :=
  ∀ state, before state → (exec command state).1 = result ∧ after (exec command state).2

namespace Ends

theorem pure : Ends before (Pure.pure value : Command State Error Value) (.ok value) before :=
  fun _ holds => ⟨rfl, holds⟩

theorem throw : Ends before (throw error : Command State Error Value) (.error error) before :=
  fun _ holds => ⟨rfl, holds⟩

theorem modify (changes : ∀ state, before state → after (change state))
    : Ends before (modify change : Command State Error PUnit) (.ok ⟨⟩) after :=
  fun state holds => ⟨rfl, changes state holds⟩

/-- The second command goes on where the first one has succeeded. -/
theorem bind (first : Ends before command (.ok value) between)
    (second : Ends between (next value) final after)
    : Ends before (command >>= next) final after := by
  intro state holds
  obtain ⟨same, here⟩ := first state holds
  have ran : exec command state = (.ok value, (exec command state).2) := Prod.ext same rfl
  rw [exec_bind_ok ran]
  exact second _ here

/-- An error of the first command is that of both. -/
theorem bind_error (first : Ends before command (.error error) after)
    : Ends before (command >>= next) (.error error) after := by
  intro state holds
  obtain ⟨same, here⟩ := first state holds
  have ran : exec command state = (.error error, (exec command state).2) := Prod.ext same rfl
  rw [exec_bind_error ran]
  exact ⟨rfl, here⟩

theorem weaken {weaker : State → Prop} (ends : Ends before command result after)
    (implies : ∀ state, after state → weaker state)
    : Ends before command result weaker :=
  fun state holds => ⟨(ends state holds).1, implies _ (ends state holds).2⟩

/-- The branch that is taken is the one that counts. -/
theorem ite {holds : Prop} [Decidable holds] {other : Command State Error Value}
    (first : holds → Ends before command result after)
    (second : ¬ holds → Ends before other result after)
    : Ends before (if holds then command else other) result after := by
  split
  · next is => exact first is
  · next isNot => exact second isNot

end Ends

end Fallible
