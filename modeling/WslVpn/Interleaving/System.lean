import WslVpn.Interleaving.Program

/-! Any number of programs interleaved on one shared state.
A schedule is a list of events: which program's next operation takes effect, which one's is
lost, and what the surroundings do. Every theorem about runs quantifies over all schedules.
-/

namespace Interleaving

variable {State Fault Error Value Env : Type} {sig : Signature State Fault}

/-- The shared state together with the programs in flight, each at its current point. -/
structure System (sig : Signature State Fault) (Error Value : Type) where
  state : State
  calls : List (Program sig Error Value)

/-- One turn of the scheduler. -/
inductive Event (Env : Type) where
  | run (call : Nat)
  | lose (call : Nat)
  | env (change : Env)
  deriving DecidableEq

namespace System

variable (effect : Env → State → State)

/-- The system after one event. An event that names no program, or one that has ended, changes
nothing.
-/
def handle (system : System sig Error Value) : Event Env → System sig Error Value
  | .run call =>
      match system.calls[call]? with
      | none => system
      | some program => {
          state := (program.advance system.state).2
          calls := system.calls.set call (program.advance system.state).1
        }
  | .lose call =>
      match system.calls[call]? with
      | none => system
      | some program => { system with calls := system.calls.set call program.fail }
  | .env change => { system with state := effect change system.state }

/-- The system after a whole schedule. -/
def run (system : System sig Error Value) (events : List (Event Env))
    : System sig Error Value :=
  events.foldl (handle effect) system

@[simp] theorem run_nil (system : System sig Error Value) : system.run effect [] = system := rfl

@[simp] theorem run_cons (system : System sig Error Value) (event : Event Env)
    (events : List (Event Env))
    : system.run effect (event :: events) = (system.handle effect event).run effect events := rfl

theorem run_append (system : System sig Error Value) (first second : List (Event Env))
    : system.run effect (first ++ second) = (system.run effect first).run effect second :=
  List.foldl_append

/-- Everything that one event can do to a system. -/
inductive Moves (system : System sig Error Value) : Event Env → System sig Error Value → Prop
  | replied {call op next reply after}
    (issued : system.calls[call]? = some (.step op next))
    (answer : sig.exec op system.state = .ok (reply, after))
    : Moves system (.run call) ⟨after, system.calls.set call (next (.ok reply))⟩
  | refused {call op next fault}
    (issued : system.calls[call]? = some (.step op next))
    (answer : sig.exec op system.state = .error fault)
    : Moves system (.run call) ⟨system.state, system.calls.set call (next (.error fault))⟩
  | lost {call op next}
    (issued : system.calls[call]? = some (.step op next))
    : Moves system (.lose call) ⟨system.state, system.calls.set call (next (.error sig.lost))⟩
  | env (change : Env)
    : Moves system (.env change) ⟨effect change system.state, system.calls⟩
  | idle {event : Event Env} {call : Nat} (named : event = .run call ∨ event = .lose call)
    (ended : ∀ op next, system.calls[call]? ≠ some (.step op next))
    : Moves system event system

/-- A program that was made of a request, by its index, is that request's. -/
theorem getElem?_made {Request : Type} {requests : List Request}
    {make : Nat → Request → Program sig Error Value} {call : Nat}
    {program : Program sig Error Value}
    (found : (requests.mapIdx make)[call]? = some program)
    : ∃ request, requests[call]? = some request ∧ program = make call request := by
  rw [List.getElem?_mapIdx] at found
  obtain ⟨request, there, rfl⟩ := Option.map_eq_some_iff.mp found
  exact ⟨request, there, rfl⟩

/-- Replacing a program by itself changes nothing. -/
theorem set_self {calls : List (Program sig Error Value)} {call : Nat}
    {program : Program sig Error Value} (found : calls[call]? = some program)
    : calls.set call program = calls := by
  obtain ⟨bound, rfl⟩ := List.getElem?_eq_some_iff.mp found
  exact List.set_getElem_self bound

/-- The transition function performs one of the listed moves, by cases on the event and the
program that it names.
-/
theorem handle_moves (system : System sig Error Value) (event : Event Env)
    : Moves effect system event (system.handle effect event) := by
  cases event with
  | env change => exact .env change
  | run call =>
      cases found : system.calls[call]? with
      | none =>
          have ended : ∀ op next, system.calls[call]? ≠ some (.step op next) := by simp [found]
          simpa only [handle, found] using Moves.idle (Or.inl rfl) ended
      | some program =>
          cases program with
          | done result =>
              have ended : ∀ op next, system.calls[call]? ≠ some (.step op next) := by simp [found]
              simpa only [handle, found, Program.advance, set_self found]
                using Moves.idle (Or.inl rfl) ended
          | step op next =>
              cases answer : sig.exec op system.state with
              | ok pair =>
                  simpa only [handle, found, Program.advance, answer]
                    using Moves.replied found answer
              | error fault =>
                  simpa only [handle, found, Program.advance, answer]
                    using Moves.refused found answer
  | lose call =>
      cases found : system.calls[call]? with
      | none =>
          have ended : ∀ op next, system.calls[call]? ≠ some (.step op next) := by simp [found]
          simpa only [handle, found] using Moves.idle (Or.inr rfl) ended
      | some program =>
          cases program with
          | done result =>
              have ended : ∀ op next, system.calls[call]? ≠ some (.step op next) := by simp [found]
              simpa only [handle, found, Program.fail, set_self found]
                using Moves.idle (Or.inr rfl) ended
          | step op next => simpa only [handle, found, Program.fail] using Moves.lost found

/-- There are no other moves, by cases on the move. -/
theorem Moves.eq_handle {system after : System sig Error Value} {event : Event Env}
    (moves : Moves effect system event after)
    : after = system.handle effect event := by
  cases moves with
  | replied issued answer => simp only [handle, issued, Program.advance, answer]
  | refused issued answer => simp only [handle, issued, Program.advance, answer]
  | lost issued => simp only [handle, issued, Program.fail]
  | env change => rfl
  | @idle event call named ended =>
      cases found : system.calls[call]? with
      | none => rcases named with rfl | rfl <;> simp only [handle, found]
      | some program =>
          cases program with
          | done result =>
              rcases named with rfl | rfl <;>
                simp only [handle, found, Program.advance, Program.fail, set_self found]
          | step op next => exact absurd found (ended op next)

/-- A program after one call has moved is that call's new program, or another one unchanged. -/
theorem getElem?_set_cases {calls : List (Program sig Error Value)} {call other : Nat}
    {moved program : Program sig Error Value}
    (found : (calls.set call moved)[other]? = some program)
    : (other = call ∧ program = moved) ∨ (other ≠ call ∧ calls[other]? = some program) := by
  by_cases same : other = call
  · subst other
    have bound : call < calls.length := by
      have := (List.getElem?_eq_some_iff.mp found).1
      simpa using this
    rw [List.getElem?_set_self bound] at found
    exact Or.inl ⟨rfl, (Option.some.inj found).symm⟩
  · rw [List.getElem?_set_ne (Ne.symm same)] at found
    exact Or.inr ⟨same, found⟩

/-- A moved program is found at its own index. -/
theorem getElem?_set_moved {calls : List (Program sig Error Value)} {call : Nat}
    {program : Program sig Error Value} (found : calls[call]? = some program)
    (moved : Program sig Error Value)
    : (calls.set call moved)[call]? = some moved :=
  List.getElem?_set_self (List.getElem?_eq_some_iff.mp found).1

section Call

variable {effect} {system after : System sig Error Value} {event : Event Env} {call : Nat}
  {moved : Program sig Error Value}

/-- What an event does to one call: nothing, or the call's next operation is answered or fails. -/
theorem Moves.ofCall (moves : Moves effect system event after)
    (now : after.calls[call]? = some moved)
    : ∃ program, system.calls[call]? = some program
        ∧ ((moved = program ∧ (event = .run call → program.pending? = none))
          ∨ ∃ op next, program = .step op next
              ∧ ((event = .run call ∧ ∃ reply state, sig.exec op system.state = .ok (reply, state)
                    ∧ moved = next (.ok reply))
                ∨ ∃ fault, moved = next (.error fault))) := by
  cases moves with
  | @replied other op next reply state issued answer =>
      rcases getElem?_set_cases now with ⟨rfl, rfl⟩ | ⟨different, there⟩
      · exact ⟨_, issued, Or.inr ⟨op, next, rfl, Or.inl ⟨rfl, reply, state, answer, rfl⟩⟩⟩
      · refine ⟨moved, there, Or.inl ⟨rfl, fun same => ?_⟩⟩
        exact absurd (Event.run.inj same).symm different
  | @refused other op next fault issued answer =>
      rcases getElem?_set_cases now with ⟨rfl, rfl⟩ | ⟨different, there⟩
      · exact ⟨_, issued, Or.inr ⟨op, next, rfl, Or.inr ⟨fault, rfl⟩⟩⟩
      · refine ⟨moved, there, Or.inl ⟨rfl, fun same => ?_⟩⟩
        exact absurd (Event.run.inj same).symm different
  | @lost other op next issued =>
      rcases getElem?_set_cases now with ⟨rfl, rfl⟩ | ⟨different, there⟩
      · exact ⟨_, issued, Or.inr ⟨op, next, rfl, Or.inr ⟨_, rfl⟩⟩⟩
      · exact ⟨moved, there, Or.inl ⟨rfl, fun same => by cases same⟩⟩
  | env change => exact ⟨moved, now, Or.inl ⟨rfl, fun same => by cases same⟩⟩
  | @idle _ other named ended =>
      refine ⟨moved, now, Or.inl ⟨rfl, ?_⟩⟩
      intro run
      subst run
      rcases named with same | same
      · cases same
        cases moved with
        | done result => rfl
        | step op next => exact absurd now (ended op next)
      · cases same

/-- A call stays where it is, or goes on with some reply. -/
theorem Moves.goesOn (moves : Moves effect system event after)
    (now : after.calls[call]? = some moved)
    : ∃ program, system.calls[call]? = some program
        ∧ (moved = program ∨ ∃ op next reply, program = .step op next ∧ moved = next reply) := by
  obtain ⟨program, found, move⟩ := moves.ofCall now
  refine ⟨program, found, ?_⟩
  rcases move with ⟨same, _⟩ | ⟨op, next, issued, ⟨_, reply, _, _, same⟩ | ⟨fault, same⟩⟩
  · exact Or.inl same
  · exact Or.inr ⟨op, next, _, issued, same⟩
  · exact Or.inr ⟨op, next, _, issued, same⟩

end Call

-----------------------------------------------------------------------------------------
-- Runs whose every step meets a condition
-----------------------------------------------------------------------------------------

/-- Every event of the schedule meets `cond` in the system in which it occurs. -/
def Meets (cond : System sig Error Value → Event Env → Prop)
    (system : System sig Error Value) : List (Event Env) → Prop
  | [] => True
  | event :: rest => cond system event ∧ Meets cond (system.handle effect event) rest

/-- A run that meets a condition meets a weaker one, by induction on the schedule. -/
theorem Meets.weaken {cond weaker : System sig Error Value → Event Env → Prop}
    (implies : ∀ system event, cond system event → weaker system event)
    {system : System sig Error Value} {events : List (Event Env)}
    (meets : system.Meets effect cond events)
    : system.Meets effect weaker events := by
  induction events generalizing system with
  | nil => trivial
  | cons event rest ih => exact ⟨implies _ _ meets.1, ih meets.2⟩

/-- The halves of a run, by induction on the first one. -/
theorem meets_append {cond : System sig Error Value → Event Env → Prop}
    {system : System sig Error Value} {first second : List (Event Env)}
    : system.Meets effect cond (first ++ second)
      ↔ system.Meets effect cond first ∧ (system.run effect first).Meets effect cond second := by
  induction first generalizing system with
  | nil => simp [Meets]
  | cons event rest ih => simp only [List.cons_append, Meets, ih, run_cons, and_assoc]

/-- An invariant of the system and the schedule so far holds at the end of every run that meets the
condition, by induction on the schedule.
-/
theorem run_history {cond : System sig Error Value → Event Env → Prop}
    {inv : List (Event Env) → System sig Error Value → Prop}
    (preserved
      : ∀ past system event after,
          inv past system → cond system event → Moves effect system event after
            → inv (past ++ [event]) after)
    {past : List (Event Env)} {system : System sig Error Value} (initial : inv past system)
    {events : List (Event Env)} (meets : system.Meets effect cond events)
    : inv (past ++ events) (system.run effect events) := by
  induction events generalizing past system with
  | nil => simpa using initial
  | cons event rest ih =>
      have next := preserved _ _ _ _ initial meets.1 (handle_moves effect system event)
      simpa only [List.append_assoc, List.singleton_append, run_cons] using ih next meets.2

/-- An invariant that each event keeps under the condition holds at the end of every run that
meets it.
-/
theorem run_induction {cond : System sig Error Value → Event Env → Prop}
    {inv : System sig Error Value → Prop}
    (preserved
      : ∀ system event after,
          inv system → cond system event → Moves effect system event after → inv after)
    {system : System sig Error Value} (initial : inv system)
    {events : List (Event Env)} (meets : system.Meets effect cond events)
    : inv (system.run effect events) :=
  @run_history _ _ _ _ _ _ effect cond (fun _ => inv)
    (fun _ system event after => preserved system event after) [] system initial events meets

-----------------------------------------------------------------------------------------
-- What a run comes through
-----------------------------------------------------------------------------------------

/-- The run comes through this system. -/
def Passes (system : System sig Error Value) (events : List (Event Env))
    (now : System sig Error Value) : Prop :=
  ∃ past rest, events = past ++ rest ∧ system.run effect past = now

/-- The run takes this step. -/
def Takes (system : System sig Error Value) (events : List (Event Env)) (event : Event Env)
    (before after : System sig Error Value) : Prop :=
  ∃ past rest, events = past ++ event :: rest ∧ system.run effect past = before
    ∧ before.handle effect event = after

/-- The last step of a run. -/
theorem takes_last (system : System sig Error Value) (past : List (Event Env)) (event : Event Env)
    : system.Takes effect (past ++ [event]) event (system.run effect past)
        ((system.run effect past).handle effect event) :=
  ⟨past, [], rfl, rfl, rfl⟩

variable {effect}

/-- Where a step of a run stands in it. -/
theorem Takes.inside {system before after : System sig Error Value} {events : List (Event Env)}
    {event : Event Env} (takes : system.Takes effect events event before after)
    : ∃ past rest, events = past ++ event :: rest ∧ system.run effect past = before
        ∧ before.Moves effect event after ∧ after.run effect rest = system.run effect events := by
  obtain ⟨past, rest, rfl, rfl, rfl⟩ := takes
  refine ⟨past, rest, rfl, rfl, handle_moves effect _ event, ?_⟩
  rw [run_append, run_cons]

end System

end Interleaving
