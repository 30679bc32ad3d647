import WslVpn.Interleaving.System

/-! What a program can do on all its paths, and what it does on each of them.
Both speak of the replies alone: nothing is assumed about the state that they come from.
-/

namespace Interleaving

variable {State Fault Error Value Result Env : Type} {sig : Signature State Fault}

namespace Program

variable (follows : (op : sig.Op) → Except Fault (sig.Reply op) → Prop)

/-- Every operation that the program comes to by replies within `follows` passes `check`, and
what it ends with satisfies `post`.
-/
def Along (check : sig.Op → Prop) (post : Except Error Value → Prop)
    : Program sig Error Value → Prop
  | .done result => post result
  | .step op next =>
      check op ∧ ∀ reply, follows op reply → Along check post (next reply)

/-- By whatever replies within `follows`, the program comes to an operation of the given kind. -/
def Comes (goal : sig.Op → Prop) : Program sig Error Value → Prop
  | .done _ => False
  | .step op next => goal op ∨ ∀ reply, follows op reply → Comes goal (next reply)

/-- A reply that obliges a program to a later operation is followed by it, wherever in the program
the reply comes.
-/
def Obliged (obliges : (op : sig.Op) → Except Fault (sig.Reply op) → sig.Op → Prop)
    : Program sig Error Value → Prop
  | .done _ => True
  | .step op next =>
      (∀ reply later, obliges op reply later → (next reply).Comes follows (· = later))
      ∧ ∀ reply, Obliged obliges (next reply)

/-- Each reply is linked to the operation that comes right after it, if one does. -/
def Adjacent (links : (op : sig.Op) → Except Fault (sig.Reply op) → Option sig.Op → Prop)
    : Program sig Error Value → Prop
  | .done _ => True
  | .step op next => ∀ reply, links op reply (next reply).pending? ∧ Adjacent links (next reply)

variable {follows} {check : sig.Op → Prop} {post : Except Error Value → Prop}
  {goal : sig.Op → Prop} {obliges : (op : sig.Op) → Except Fault (sig.Reply op) → sig.Op → Prop}

/-- A sequence, by induction on its first program. -/
theorem Along.bind {middle : Value → Prop} {post : Except Error Result → Prop}
    {program : Program sig Error Value} {rest : Value → Program sig Error Result}
    (first
      : program.Along follows check
          (fun result => match result with
            | .ok value => middle value
            | .error error => post (.error error)))
    (second : ∀ value, middle value → (rest value).Along follows check post)
    : (program >>= rest).Along follows check post := by
  induction program with
  | done result =>
      cases result with
      | ok value => exact second value first
      | error error => exact first
  | step op next ih =>
      exact ⟨first.1, fun reply allowed => ih reply (first.2 reply allowed)⟩

/-- A sequence of programs of which only the operations matter. -/
theorem Along.seq {program : Program sig Error Value} {rest : Value → Program sig Error Result}
    (first : program.Along follows check (fun _ => True))
    (second : ∀ value, (rest value).Along follows check (fun _ => True))
    : (program >>= rest).Along follows check (fun _ => True) := by
  induction program with
  | done result =>
      cases result with
      | ok value => exact second value
      | error error => trivial
  | step op next ih =>
      exact ⟨first.1, fun reply allowed => ih reply (first.2 reply allowed)⟩

/-- One operation whose refusal ends the program. -/
theorem Along.request {convert : Fault → Error} {op : sig.Op}
    {rest : sig.Reply op → Program sig Error Value} (checked : check op)
    (answered : ∀ reply, follows op (.ok reply) → (rest reply).Along follows check post)
    (refused : ∀ fault, follows op (.error fault) → post (.error (convert fault)))
    : (Program.request convert op >>= rest).Along follows check post := by
  refine ⟨checked, ?_⟩
  intro reply allowed
  cases reply with
  | ok reply => exact answered reply allowed
  | error fault => exact refused fault allowed

/-- A program and what handles its errors, of which only the operations matter, by induction on it.
-/
theorem Along.recover {program : Program sig Error Value}
    {handler : Error → Program sig Error Value}
    (first : program.Along follows check (fun _ => True))
    (second : ∀ error, (handler error).Along follows check (fun _ => True))
    : (program.recover handler).Along follows check (fun _ => True) := by
  induction program with
  | done result =>
      cases result with
      | ok value => trivial
      | error error => exact second error
  | step op next ih =>
      exact ⟨first.1, fun reply allowed => ih reply (first.2 reply allowed)⟩

/-- Weaker checks are passed as well, by induction on the program. -/
theorem Along.mono {check' : sig.Op → Prop} {program : Program sig Error Value}
    (checks : ∀ op, check op → check' op) (along : program.Along follows check post)
    : program.Along follows check' post := by
  induction program with
  | done result => exact along
  | step op next ih =>
      exact ⟨checks op along.1, fun reply allowed => ih reply (along.2 reply allowed)⟩

/-- The first program comes to it, by induction. -/
theorem Comes.bind {program : Program sig Error Value}
    {rest : Value → Program sig Error Result} (comes : program.Comes follows goal)
    : (program >>= rest).Comes follows goal := by
  induction program with
  | done result => exact comes.elim
  | step op next ih =>
      rcases comes with here | later
      · exact Or.inl here
      · exact Or.inr (fun reply allowed => ih reply (later reply allowed))

/-- The first program never fails and the second one comes to it, by induction on the first. -/
theorem Comes.seq {program : Program sig Error Value}
    {rest : Value → Program sig Error Result}
    (first
      : program.Along follows (fun _ => True) (fun result => ∃ value, result = .ok value))
    (second : ∀ value, (rest value).Comes follows goal)
    : (program >>= rest).Comes follows goal := by
  induction program with
  | done result =>
      obtain ⟨value, rfl⟩ := first
      exact second value
  | step op next ih =>
      exact Or.inr (fun reply allowed => ih reply (first.2 reply allowed))

/-- One operation that is never refused. -/
theorem Comes.request {convert : Fault → Error} {op : sig.Op}
    {rest : sig.Reply op → Program sig Error Value}
    (answers : ∀ fault, ¬ follows op (.error fault))
    (answered : ∀ reply, follows op (.ok reply) → (rest reply).Comes follows goal)
    : (Program.request convert op >>= rest).Comes follows goal := by
  refine Or.inr ?_
  intro reply allowed
  cases reply with
  | ok reply => exact answered reply allowed
  | error fault => exact absurd allowed (answers fault)

/-- The operation itself. -/
theorem Comes.here {convert : Fault → Error} {op : sig.Op}
    {rest : sig.Reply op → Program sig Error Value} (isGoal : goal op)
    : (Program.request convert op >>= rest).Comes follows goal :=
  Or.inl isGoal

/-- With fewer replies to reckon with and more operations to come to, by induction. -/
theorem Comes.mono {follows' : (op : sig.Op) → Except Fault (sig.Reply op) → Prop}
    {goal' : sig.Op → Prop} {program : Program sig Error Value}
    (fewer : ∀ op reply, follows' op reply → follows op reply)
    (more : ∀ op, goal op → goal' op) (comes : program.Comes follows goal)
    : program.Comes follows' goal' := by
  induction program with
  | done result => exact comes
  | step op next ih =>
      rcases comes with here | later
      · exact Or.inl (more op here)
      · exact Or.inr (fun reply allowed => ih reply (later reply (fewer op reply allowed)))

/-- Obligations of a sequence, by induction on its first program. -/
theorem Obliged.bind {program : Program sig Error Value}
    {rest : Value → Program sig Error Result} (first : program.Obliged follows obliges)
    (second : ∀ value, (rest value).Obliged follows obliges)
    : (program >>= rest).Obliged follows obliges := by
  induction program with
  | done result =>
      cases result with
      | ok value => exact second value
      | error error => trivial
  | step op next ih =>
      refine ⟨?_, fun reply => ih reply (first.2 reply)⟩
      exact fun reply later owes => (first.1 reply later owes).bind

/-- One operation whose refusal ends the program and obliges to nothing. -/
theorem Obliged.request {convert : Fault → Error} {op : sig.Op}
    {rest : sig.Reply op → Program sig Error Value}
    (free : ∀ fault later, ¬ obliges op (.error fault) later)
    (owes : ∀ reply later, obliges op (.ok reply) later → (rest reply).Comes follows (· = later))
    (goesOn : ∀ reply, (rest reply).Obliged follows obliges)
    : (Program.request convert op >>= rest).Obliged follows obliges := by
  refine ⟨?_, ?_⟩
  · intro reply later owed
    cases reply with
    | ok reply => exact owes reply later owed
    | error fault => exact absurd owed (free fault later)
  · intro reply
    cases reply with
    | ok reply => exact goesOn reply
    | error fault => trivial

/-- A program all of whose operations oblige to nothing, by induction. -/
theorem Along.obliged {program : Program sig Error Value}
    (along : program.Along (fun _ _ => True) check post)
    (free : ∀ op reply later, check op → ¬ obliges op reply later)
    : program.Obliged follows obliges := by
  induction program with
  | done result => trivial
  | step op next ih =>
      refine ⟨?_, fun reply => ih reply (along.2 reply trivial)⟩
      exact fun reply later owed => absurd owed (free op reply later along.1)

section Adjacent

variable {links : (op : sig.Op) → Except Fault (sig.Reply op) → Option sig.Op → Prop}

/-- A sequence, by induction on its first program: what the first one ends with is linked to the
start of the second one.
-/
theorem Adjacent.bind {program : Program sig Error Value}
    {rest : Value → Program sig Error Result} (first : program.Adjacent links)
    (second : ∀ value, (rest value).Adjacent links)
    (joins : ∀ value op reply, links op reply none → links op reply (rest value).pending?)
    : (program >>= rest).Adjacent links := by
  induction program with
  | done result =>
      cases result with
      | ok value => exact second value
      | error error => trivial
  | step op next ih =>
      intro reply
      obtain ⟨linked, goesOn⟩ := first reply
      refine ⟨?_, ih reply goesOn⟩
      change links op reply (next reply >>= rest).pending?
      cases ended : next reply with
      | done result =>
          rw [ended] at linked
          cases result with
          | ok value => exact joins value op reply linked
          | error error => exact linked
      | step op' next' =>
          rw [ended] at linked
          exact linked

/-- One operation whose refusal ends the program. -/
theorem Adjacent.request {convert : Fault → Error} {op : sig.Op}
    {rest : sig.Reply op → Program sig Error Value}
    (refused : ∀ fault, links op (.error fault) none)
    (answered : ∀ reply, links op (.ok reply) (rest reply).pending? ∧ (rest reply).Adjacent links)
    : (Program.request convert op >>= rest).Adjacent links := by
  intro reply
  cases reply with
  | ok reply => exact answered reply
  | error fault => exact ⟨refused fault, trivial⟩

/-- Operations that may stand next to each other anyhow, by induction on the program. -/
theorem Along.adjacent {program : Program sig Error Value}
    (along : program.Along (fun _ _ => True) check post)
    (last : ∀ op reply, check op → links op reply none)
    (inside : ∀ op reply later, check op → check later → links op reply (some later))
    : program.Adjacent links := by
  induction program with
  | done result => trivial
  | step op next ih =>
      intro reply
      have rest := along.2 reply trivial
      refine ⟨?_, ih reply rest⟩
      cases ended : next reply with
      | done result => exact last op reply along.1
      | step later next' =>
          rw [ended] at rest
          exact inside op reply later along.1 rest.1

end Adjacent

end Program

namespace System

variable {effect : Env → State → State} {check : Nat → sig.Op → Prop}
  {post : Nat → Except Error Value → Prop}

/-- Each call passes its own check at every operation to come, whatever it is answered. -/
def AllAlong (check : Nat → sig.Op → Prop) (post : Nat → Except Error Value → Prop)
    (system : System sig Error Value) : Prop :=
  ∀ (call : Nat) (program : Program sig Error Value), system.calls[call]? = some program
    → program.Along (fun _ _ => True) (check call) (post call)

/-- Calls that pass their checks go on passing them. -/
theorem AllAlong.step {system after : System sig Error Value} {event : Event Env}
    (all : system.AllAlong check post) (moves : system.Moves effect event after)
    : after.AllAlong check post := by
  intro call moved now
  obtain ⟨program, found, move⟩ := moves.goesOn now
  rcases move with rfl | ⟨op, next, reply, rfl, rfl⟩
  · exact all call _ found
  · exact (all call _ found).2 reply trivial

/-- Along every run, by induction on the schedule. -/
theorem AllAlong.run {system : System sig Error Value} (all : system.AllAlong check post)
    (events : List (Event Env))
    : (system.run effect events).AllAlong check post := by
  induction events generalizing system with
  | nil => exact all
  | cons event events ih => exact ih (all.step (handle_moves effect system event))

/-- The replies that an operation can have in a possible state. -/
inductive Gives (sig : Signature State Fault) (possible : State → Prop) (op : sig.Op)
    : Except Fault (sig.Reply op) → Prop where
  | answer {state reply after} (fine : possible state)
    (ran : sig.exec op state = .ok (reply, after))
    : Gives sig possible op (.ok reply)
  | refusal {state fault} (fine : possible state) (ran : sig.exec op state = .error fault)
    : Gives sig possible op (.error fault)

variable {follows : (op : sig.Op) → Except Fault (sig.Reply op) → Prop} {possible : State → Prop}
  {goal : sig.Op → Prop} {obliges : (op : sig.Op) → Except Fault (sig.Reply op) → sig.Op → Prop}

/-- The call is bound to come to such an operation. -/
def Bound (follows : (op : sig.Op) → Except Fault (sig.Reply op) → Prop) (goal : sig.Op → Prop)
    (system : System sig Error Value) (call : Nat) : Prop :=
  ∃ program : Program sig Error Value, system.calls[call]? = some program
    ∧ program.Comes follows goal

/-- Some call is bound to come to such an operation. -/
def Ahead (follows : (op : sig.Op) → Except Fault (sig.Reply op) → Prop) (goal : sig.Op → Prop)
    (system : System sig Error Value) : Prop :=
  ∃ (call : Nat) (program : Program sig Error Value), system.calls[call]? = some program
    ∧ program.Comes follows goal

/-- The event does not lose an operation of a call that is bound to come to `goal`. -/
def Spares (follows : (op : sig.Op) → Except Fault (sig.Reply op) → Prop) (goal : sig.Op → Prop)
    (system : System sig Error Value) (event : Event Env) : Prop :=
  ∀ (call : Nat) (program : Program sig Error Value), event = .lose call
    → system.calls[call]? = some program → ¬ program.Comes follows goal

/-- A turn that runs an operation loses none. -/
theorem Spares.run {system : System sig Error Value} {call : Nat}
    : system.Spares follows goal (Event.run call : Event Env) := by
  rintro _ _ ⟨⟩

/-- A call stays bound until it issues the operation, by cases on the move. -/
theorem Bound.step {system after : System sig Error Value} {event : Event Env} {call : Nat}
    (bound : system.Bound (Gives sig possible) goal call) (fine : possible system.state)
    (spares : event = .lose call → ¬ system.Bound (Gives sig possible) goal call)
    (moves : system.Moves effect event after)
    : after.Bound (Gives sig possible) goal call
      ∨ ∃ op next, event = .run call ∧ system.calls[call]? = some (.step op next) ∧ goal op := by
  have given := bound
  obtain ⟨program, found, comes⟩ := given
  -- A move of another call leaves this one as it is; its own move is one of the replies.
  have moved
      : ∀ {other : Nat} {op : sig.Op} {next reply state},
          system.calls[other]? = some (.step op next)
            → event = .run other → Gives sig possible op reply
            → Bound (Gives sig possible) goal ⟨state, system.calls.set other (next reply)⟩ call
              ∨ ∃ op next, event = .run call ∧ system.calls[call]? = some (.step op next)
                  ∧ goal op := by
    intro other op next reply state issued named given
    by_cases own : call = other
    · subst own
      obtain rfl := Option.some.inj (found.symm.trans issued)
      rcases comes with here | later
      · exact Or.inr ⟨op, next, named, issued, here⟩
      · exact Or.inl ⟨next reply, getElem?_set_moved found _, later reply given⟩
    · exact Or.inl ⟨program, (List.getElem?_set_ne (Ne.symm own)).trans found, comes⟩
  cases moves with
  | replied issued answer => exact moved issued rfl (.answer fine answer)
  | refused issued answer => exact moved issued rfl (.refusal fine answer)
  | @lost other op next issued =>
      by_cases own : call = other
      · subst own
        exact absurd bound (spares rfl)
      · exact Or.inl ⟨program, (List.getElem?_set_ne (Ne.symm own)).trans found, comes⟩
  | env change => exact Or.inl ⟨program, found, comes⟩
  | idle => exact Or.inl ⟨program, found, comes⟩

/-- What is ahead stays ahead until it is issued. -/
theorem Ahead.step {system after : System sig Error Value} {event : Event Env}
    (ahead : system.Ahead (Gives sig possible) goal) (fine : possible system.state)
    (spares : system.Spares (Gives sig possible) goal event)
    (moves : system.Moves effect event after)
    : after.Ahead (Gives sig possible) goal
      ∨ ∃ call op next, event = .run call ∧ system.calls[call]? = some (.step op next)
        ∧ goal op := by
  obtain ⟨call, program, found, comes⟩ := ahead
  have bound : system.Bound (Gives sig possible) goal call := ⟨program, found, comes⟩
  have kept : event = .lose call → ¬ system.Bound (Gives sig possible) goal call := by
    rintro lost ⟨program, found, comes⟩
    exact spares call program lost found comes
  rcases bound.step fine kept moves with still | issued
  · exact Or.inl ⟨call, still⟩
  · exact Or.inr ⟨call, issued⟩

/-- Every call keeps its obligations, whatever it is answered. -/
def AllObliged (follows : (op : sig.Op) → Except Fault (sig.Reply op) → Prop)
    (obliges : (op : sig.Op) → Except Fault (sig.Reply op) → sig.Op → Prop)
    (system : System sig Error Value) : Prop :=
  ∀ (call : Nat) (program : Program sig Error Value), system.calls[call]? = some program
    → program.Obliged follows obliges

/-- Obligations are kept along a run. -/
theorem AllObliged.step {system after : System sig Error Value} {event : Event Env}
    (all : system.AllObliged follows obliges) (moves : system.Moves effect event after)
    : after.AllObliged follows obliges := by
  intro call moved now
  obtain ⟨program, found, move⟩ := moves.goesOn now
  rcases move with rfl | ⟨op, next, reply, rfl, rfl⟩
  · exact all call _ found
  · exact (all call _ found).2 reply

/-- Along every run, by induction on the schedule. -/
theorem AllObliged.run {system : System sig Error Value} (all : system.AllObliged follows obliges)
    (events : List (Event Env))
    : (system.run effect events).AllObliged follows obliges := by
  induction events generalizing system with
  | nil => exact all
  | cons event events ih => exact ih (all.step (handle_moves effect system event))

/-- In every call each reply is linked to the operation after it. -/
def AllAdjacent (links : (op : sig.Op) → Except Fault (sig.Reply op) → Option sig.Op → Prop)
    (system : System sig Error Value) : Prop :=
  ∀ (call : Nat) (program : Program sig Error Value), system.calls[call]? = some program
    → program.Adjacent links

/-- Links are kept along a run. -/
theorem AllAdjacent.step
    {links : (op : sig.Op) → Except Fault (sig.Reply op) → Option sig.Op → Prop}
    {system after : System sig Error Value} {event : Event Env} (all : system.AllAdjacent links)
    (moves : system.Moves effect event after)
    : after.AllAdjacent links := by
  intro call moved now
  obtain ⟨program, found, move⟩ := moves.goesOn now
  rcases move with rfl | ⟨op, next, reply, rfl, rfl⟩
  · exact all call _ found
  · exact (all call _ found reply).2

/-- A reply that obliges binds the call to the later operation. -/
theorem AllObliged.bound {system : System sig Error Value} (all : system.AllObliged follows obliges)
    {call : Nat} {op : sig.Op} {next : Except Fault (sig.Reply op) → Program sig Error Value}
    {reply : Except Fault (sig.Reply op)} {later : sig.Op} {state : State}
    (issued : system.calls[call]? = some (.step op next)) (owes : obliges op reply later)
    : Bound follows (· = later) ⟨state, system.calls.set call (next reply)⟩ call :=
  ⟨next reply, getElem?_set_moved issued _, (all call _ issued).1 reply later owes⟩

/-- A reply that obliges puts the later operation ahead. -/
theorem AllObliged.ahead {system : System sig Error Value} (all : system.AllObliged follows obliges)
    {call : Nat} {op : sig.Op} {next : Except Fault (sig.Reply op) → Program sig Error Value}
    {reply : Except Fault (sig.Reply op)} {later : sig.Op} {state : State}
    (issued : system.calls[call]? = some (.step op next)) (owes : obliges op reply later)
    : Ahead follows (· = later) ⟨state, system.calls.set call (next reply)⟩ :=
  ⟨call, all.bound issued owes⟩

/-- A call that has returned is bound to nothing. -/
theorem not_ahead {system : System sig Error Value}
    (returned
      : ∀ (call : Nat) (program : Program sig Error Value), system.calls[call]? = some program
          → ∃ result, program = .done result)
    : ¬ system.Ahead follows goal := by
  intro given
  obtain ⟨call, program, found, comes⟩ := given
  obtain ⟨result, rfl⟩ := returned call program found
  exact comes

end System

end Interleaving
