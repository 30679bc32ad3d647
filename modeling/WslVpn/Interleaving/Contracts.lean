import WslVpn.Interleaving.Paths

/-! Reasoning about one program at a time, whatever the others do to the shared state.
A contract names the states that are possible, how they may evolve and what must hold when an
operation is issued. Programs that keep it one by one keep it together, in every schedule.
-/

namespace Interleaving

variable {State Fault Error Value Result Env : Type} {sig : Signature State Fault}

/-- What the calls on one state promise each other. `later` bounds what the others do as far as
one call can tell, and `asserts` is what a call promises of each operation it issues. `may` says
which operations of the schedule are admitted at all, and `mayLose` which ones may be lost.
-/
structure Contract (sig : Signature State Fault) where
  possible : State → Prop
  later : Nat → State → State → Prop
  may : sig.Op → State → Prop
  mayLose : sig.Op → State → Prop
  asserts : Nat → sig.Op → State → Prop
  later_refl : ∀ call state, later call state state
  later_trans
    : ∀ {call first second third},
        later call first second → later call second third → later call first third
  /-- An operation that is issued as promised leads to a possible state, which is a later one for
  all the other calls.
  -/
  exec_sound
    : ∀ {call op state reply after},
        possible state → may op state → asserts call op state
          → sig.exec op state = .ok (reply, after)
          → possible after ∧ ∀ other, other ≠ call → later other state after

namespace Program

/-- From `state` on, the program issues every operation as the contract asks of this call,
whatever later states the others put before it, and what it answers satisfies `post`.
-/
def Keeps (contract : Contract sig) (call : Nat) (post : Value → State → Prop)
    : Program sig Error Value → State → Prop
  | .done (.ok value), state =>
      ∀ now, contract.later call state now → contract.possible now → post value now
  | .done (.error _), _ => True
  | .step op next, state =>
      ∀ now, contract.later call state now → contract.possible now →
        (contract.may op now →
          contract.asserts call op now
          ∧ (∀ reply after, sig.exec op now = .ok (reply, after)
              → Keeps contract call post (next (.ok reply)) after)
          ∧ ∀ fault, sig.exec op now = .error fault
              → Keeps contract call post (next (.error fault)) now)
        ∧ (contract.mayLose op now → Keeps contract call post (next (.error sig.lost)) now)

variable {contract : Contract sig} {call : Nat} {post : Value → State → Prop}

/-- What the others do does not disturb a kept contract. -/
theorem Keeps.later {program : Program sig Error Value} {state after : State}
    (keeps : program.Keeps contract call post state) (moved : contract.later call state after)
    : program.Keeps contract call post after := by
  match program with
  | .done (.ok _) =>
      intro now passed
      exact keeps now (contract.later_trans moved passed)
  | .done (.error _) => trivial
  | .step _ _ =>
      intro now passed
      exact keeps now (contract.later_trans moved passed)

/-- Sequencing, by induction on the first program. -/
theorem Keeps.bind {middle : Value → State → Prop} {post : Result → State → Prop}
    {program : Program sig Error Value} {rest : Value → Program sig Error Result} {state : State}
    (possible : contract.possible state) (first : program.Keeps contract call middle state)
    (second : ∀ value now, contract.possible now → middle value now
      → (rest value).Keeps contract call post now)
    : (program >>= rest).Keeps contract call post state := by
  induction program generalizing state with
  | done result =>
      cases result with
      | ok value =>
          exact second value state possible
            (first state (contract.later_refl call state) possible)
      | error => trivial
  | step op next ih =>
      intro now passed fine
      obtain ⟨runs, loses⟩ := first now passed fine
      refine ⟨?_, fun may => ih _ fine (loses may)⟩
      intro may
      obtain ⟨asserted, replied, refused⟩ := runs may
      refine ⟨asserted, ?_, fun fault answer => ih _ fine (refused fault answer)⟩
      intro reply after answer
      exact ih _ (contract.exec_sound fine may asserted answer).1 (replied reply after answer)

/-- A weaker promise about the answer, by induction on the program. -/
theorem Keeps.mono {weaker : Value → State → Prop} {program : Program sig Error Value}
    {state : State} (implies : ∀ value now, post value now → weaker value now)
    (keeps : program.Keeps contract call post state)
    : program.Keeps contract call weaker state := by
  induction program generalizing state with
  | done result =>
      cases result with
      | ok value => exact fun now later possible => implies value now (keeps now later possible)
      | error => trivial
  | step op next ih =>
      intro now later possible
      obtain ⟨runs, loses⟩ := keeps now later possible
      refine ⟨?_, fun may => ih _ (loses may)⟩
      intro may
      obtain ⟨asserted, replied, refused⟩ := runs may
      exact ⟨asserted, fun reply after ran => ih _ (replied reply after ran),
        fun fault ran => ih _ (refused fault ran)⟩

/-- A program of which only the operations matter, with its answer wrapped. -/
theorem Keeps.returning {program : Program sig Error Value} {wrap : Value → Result}
    {state : State} (possible : contract.possible state)
    (keeps : program.Keeps contract call (fun _ _ => True) state)
    : (program >>= fun value => pure (wrap value)).Keeps contract call (fun _ _ => True) state :=
  Keeps.bind possible keeps (fun _ _ _ _ _ _ _ => trivial)

/-- The rule for one operation whose refusal and loss end the program. -/
theorem Keeps.request {convert : Fault → Error} {op : sig.Op}
    {rest : sig.Reply op → Program sig Error Result} {post : Result → State → Prop}
    {state : State}
    (issued
      : ∀ now, contract.later call state now → contract.possible now → contract.may op now →
          contract.asserts call op now
          ∧ ∀ reply after, sig.exec op now = .ok (reply, after) → contract.possible after
              → (rest reply).Keeps contract call post after)
    : (Program.request convert op >>= rest).Keeps contract call post state := by
  intro now passed fine
  refine ⟨?_, fun _ => trivial⟩
  intro may
  obtain ⟨asserted, replied⟩ := issued now passed fine may
  refine ⟨asserted, ?_, fun _ _ => trivial⟩
  intro reply after answer
  exact replied reply after answer (contract.exec_sound fine may asserted answer).1

/-- A program all of whose operations are as promised and keep an invariant that the others keep
as well, by induction.
-/
theorem Along.keeps {check : sig.Op → Prop} {inv : State → Prop}
    {program : Program sig Error Value}
    (along : program.Along (fun _ _ => True) check (fun _ => True))
    (stays : ∀ state now, contract.later call state now → inv state → inv now)
    (promised
      : ∀ op state, check op → contract.possible state → contract.may op state → inv state
          → contract.asserts call op state
            ∧ ∀ reply after, sig.exec op state = .ok (reply, after) → inv after)
    {state : State} (start : inv state)
    : program.Keeps contract call (fun _ => inv) state := by
  induction program generalizing state with
  | done result =>
      cases result with
      | ok value => exact fun now later _ => stays state now later start
      | error => trivial
  | step op next ih =>
      intro now later possible
      have start := stays state now later start
      refine ⟨?_, fun _ => ih _ (along.2 _ trivial) start⟩
      intro may
      obtain ⟨asserted, kept⟩ := promised op now along.1 possible may start
      refine ⟨asserted, ?_, fun fault _ => ih _ (along.2 _ trivial) start⟩
      intro reply after ran
      exact ih _ (along.2 _ trivial) (kept reply after ran)

end Program

namespace System

variable (effect : Env → State → State)

/-- Every call keeps the contract from the present state on. -/
structure Kept (contract : Contract sig) (post : Nat → Value → State → Prop)
    (system : System sig Error Value) : Prop where
  possible : contract.possible system.state
  calls
    : ∀ (call : Nat) (program : Program sig Error Value), system.calls[call]? = some program
        → program.Keeps contract call (post call) system.state

/-- The event runs or loses an operation that the contract admits. -/
def Admits (contract : Contract sig) (system : System sig Error Value) : Event Env → Prop
  | .run call =>
      ∀ op next, system.calls[call]? = some (.step op next) → contract.may op system.state
  | .lose call =>
      ∀ op next, system.calls[call]? = some (.step op next) → contract.mayLose op system.state
  | .env _ => True

variable {effect} {contract : Contract sig} {post : Nat → Value → State → Prop}

/-- One call has moved and the others see a later state. -/
theorem Kept.moved {system : System sig Error Value} (kept : system.Kept contract post)
    {call : Nat} {program : Program sig Error Value} {after : State}
    (possible : contract.possible after)
    (passed : ∀ other, other ≠ call → contract.later other system.state after)
    (own : program.Keeps contract call (post call) after)
    : Kept contract post ⟨after, system.calls.set call program⟩ := by
  refine ⟨possible, ?_⟩
  intro other found moved
  rcases getElem?_set_cases moved with ⟨rfl, rfl⟩ | ⟨different, unchanged⟩
  · exact own
  · exact (kept.calls other found unchanged).later (passed other different)

/-- Calls that keep a contract go on keeping it, by cases on the move. -/
theorem Kept.step
    (surroundings
      : ∀ change state, contract.possible state
          → contract.possible (effect change state)
            ∧ ∀ call, contract.later call state (effect change state))
    {system after : System sig Error Value} {event : Event Env}
    (kept : system.Kept contract post) (admits : system.Admits contract event)
    (moves : system.Moves effect event after)
    : after.Kept contract post := by
  cases moves with
  | @replied call op next reply after issued answer =>
      have may := admits op next issued
      obtain ⟨asserted, replied, _⟩ :=
        (kept.calls call _ issued _ (contract.later_refl _ _) kept.possible).1 may
      have sound := contract.exec_sound kept.possible may asserted answer
      exact kept.moved sound.1 sound.2 (replied reply after answer)
  | @refused call op next fault issued answer =>
      obtain ⟨_, _, refused⟩ :=
        (kept.calls call _ issued _ (contract.later_refl _ _) kept.possible).1 (admits op next issued)
      exact kept.moved kept.possible (fun _ _ => contract.later_refl _ _) (refused fault answer)
  | @lost call op next issued =>
      have loses := (kept.calls call _ issued _ (contract.later_refl _ _) kept.possible).2
      exact kept.moved kept.possible (fun _ _ => contract.later_refl _ _)
        (loses (admits op next issued))
  | env change =>
      have sound := surroundings change system.state kept.possible
      exact ⟨sound.1, fun call program found => (kept.calls call program found).later (sound.2 call)⟩
  | idle => exact kept

/-- Along every admitted run the contract is kept, by induction on the schedule. -/
theorem Kept.run
    (surroundings
      : ∀ change state, contract.possible state
          → contract.possible (effect change state)
            ∧ ∀ call, contract.later call state (effect change state))
    {system : System sig Error Value} (kept : system.Kept contract post)
    {events : List (Event Env)} (admits : system.Meets effect (Admits contract) events)
    : (system.run effect events).Kept contract post :=
  run_induction effect (fun _ _ _ kept admits moves => kept.step surroundings admits moves) kept
    admits

/-- A call that has answered answered as promised. -/
theorem Kept.answered {system : System sig Error Value} (kept : system.Kept contract post)
    {call : Nat} {value : Value} (answer : system.calls[call]? = some (.done (.ok value)))
    : post call value system.state :=
  kept.calls call _ answer _ (contract.later_refl _ _) kept.possible

end System

end Interleaving
