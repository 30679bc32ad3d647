import WslVpn.Interleaving.Paths

/-! What the calls of a run did, operation by operation, with the replies that they were given. -/

namespace Interleaving

variable {State Fault Error Value Result Env : Type} {sig : Signature State Fault}

/-- An operation of a call, with the reply that it was given. -/
structure Entry (sig : Signature State Fault) where
  call : Nat
  op : sig.Op
  reply : Except Fault (sig.Reply op)

namespace Program

/-- On no path by replies within `follows` does the program come to two operations of the kind. -/
def Once (follows : (op : sig.Op) → Except Fault (sig.Reply op) → Prop) (kind : sig.Op → Prop)
    : Program sig Error Value → Prop
  | .done _ => True
  | .step op next =>
      ∀ reply, follows op reply →
        (kind op → (next reply).Along follows (¬ kind ·) (fun _ => True))
          ∧ Once follows kind (next reply)

/-- By replies within `follows` the program ends with the result. -/
def Yields (follows : (op : sig.Op) → Except Fault (sig.Reply op) → Prop)
    (result : Except Error Value)
    : Program sig Error Value → Prop
  | .done ended => ended = result
  | .step op next => ∃ reply, follows op reply ∧ Yields follows result (next reply)

variable {follows : (op : sig.Op) → Except Fault (sig.Reply op) → Prop} {check : sig.Op → Prop}
  {post : Except Error Value → Prop} {kind : sig.Op → Prop}

/-- A program that keeps to a stricter check and a stricter end, by induction on it. -/
theorem Along.weaken {looser : sig.Op → Prop} {weaker : Except Error Value → Prop}
    {program : Program sig Error Value} (along : program.Along follows check post)
    (checks : ∀ op, check op → looser op) (ends : ∀ result, post result → weaker result)
    : program.Along follows looser weaker := by
  induction program with
  | done result => exact ends result along
  | step op next ih =>
      refine ⟨checks op along.1, ?_⟩
      intro reply given
      exact ih reply (along.2 reply given)

/-- Fewer replies leave fewer paths, by induction on the program. -/
theorem Along.narrow {fewer : (op : sig.Op) → Except Fault (sig.Reply op) → Prop}
    {program : Program sig Error Value} (along : program.Along follows check post)
    (within : ∀ op reply, fewer op reply → follows op reply)
    : program.Along fewer check post := by
  induction program with
  | done result => exact along
  | step op next ih =>
      refine ⟨along.1, ?_⟩
      intro reply given
      exact ih reply (along.2 reply (within op reply given))

/-- What the program ends with is what it yields, by induction on it. -/
theorem along_yields (program : Program sig Error Value)
    : program.Along follows (fun _ => True) (program.Yields follows) := by
  induction program with
  | done result => rfl
  | step op next ih =>
      refine ⟨trivial, ?_⟩
      intro reply given
      exact (ih reply).weaken (fun _ fine => fine) (fun _ yields => ⟨reply, given, yields⟩)

/-- Two facts about the same paths, by induction on the program. -/
theorem Along.both {alsoCheck : sig.Op → Prop} {alsoPost : Except Error Value → Prop}
    {program : Program sig Error Value} (along : program.Along follows check post)
    (also : program.Along follows alsoCheck alsoPost)
    : program.Along follows (fun op => check op ∧ alsoCheck op)
        (fun result => post result ∧ alsoPost result) := by
  induction program with
  | done result => exact ⟨along, also⟩
  | step op next ih =>
      refine ⟨⟨along.1, also.1⟩, ?_⟩
      intro reply given
      exact ih reply (along.2 reply given) (also.2 reply given)

/-- A sequence of programs of which the operations matter, and the value of the first. By induction on
the first.
-/
theorem Along.seq_value {middle : Value → Prop} {program : Program sig Error Value}
    {rest : Value → Program sig Error Result}
    (first
      : program.Along follows check (fun result => ∀ value, result = .ok value → middle value))
    (second : ∀ value, middle value → (rest value).Along follows check (fun _ => True))
    : (program >>= rest).Along follows check (fun _ => True) := by
  induction program with
  | done result =>
      cases result with
      | ok value => exact second value (first value rfl)
      | error error => trivial
  | step op next ih =>
      refine ⟨first.1, ?_⟩
      intro reply given
      exact ih reply (first.2 reply given)

/-- By induction on the program. -/
theorem Along.attempt {program : Program sig Error Value} (along : program.Along follows check post)
    : program.attempt.Along follows check (fun ended => ∃ result, ended = .ok result ∧ post result) := by
  induction program with
  | done result => exact ⟨result, rfl, along⟩
  | step op next ih =>
      refine ⟨along.1, ?_⟩
      intro reply given
      exact ih reply (along.2 reply given)

/-- By induction on the program. -/
theorem Along.once {program : Program sig Error Value}
    (never : program.Along follows (¬ kind ·) post)
    : program.Once follows kind := by
  induction program with
  | done result => trivial
  | step op next ih =>
      intro reply given
      exact ⟨fun is => absurd is never.1, ih reply (never.2 reply given)⟩

/-- A program that comes to none goes before one that comes to one, by induction on the first. -/
theorem Once.after {program : Program sig Error Value} {rest : Value → Program sig Error Result}
    (never : program.Along follows (¬ kind ·) post) (once : ∀ value, (rest value).Once follows kind)
    : (program >>= rest).Once follows kind := by
  induction program with
  | done result =>
      cases result with
      | ok value => exact once value
      | error error => trivial
  | step op next ih =>
      intro reply given
      exact ⟨fun is => absurd is never.1, ih reply (never.2 reply given)⟩

/-- The one operation, with nothing of the kind after it. -/
theorem Once.request {convert : Fault → Error} {op : sig.Op}
    {rest : sig.Reply op → Program sig Error Result}
    (never : ∀ reply, (rest reply).Along follows (¬ kind ·) (fun _ => True))
    : (Program.request convert op >>= rest).Once follows kind := by
  intro reply _
  cases reply with
  | ok reply => exact ⟨fun _ => never reply, (never reply).once⟩
  | error fault => exact ⟨fun _ => trivial, trivial⟩

end Program

namespace System

variable (effect : Env → State → State)

/-- What one event lets a call do. -/
def entry? (system : System sig Error Value) : Event Env → Option (Entry sig)
  | .run call =>
      match system.calls[call]? with
      | some (.step op _) => some ⟨call, op, (sig.exec op system.state).map (·.1)⟩
      | _ => none
  | .lose call =>
      match system.calls[call]? with
      | some (.step op _) => some ⟨call, op, .error sig.lost⟩
      | _ => none
  | .env _ => none

/-- What the calls do in a run, in the order of the run. -/
def log (system : System sig Error Value) : List (Event Env) → List (Entry sig)
  | [] => []
  | event :: rest => ( entry? system event).toList ++ log (system.handle effect event) rest

section Entries

variable {system : System sig Error Value} {call : Nat} {op : sig.Op}
  {next : Except Fault (sig.Reply op) → Program sig Error Value}
  (issued : system.calls[call]? = some (.step op next))

include issued

theorem entry?_replied {reply : sig.Reply op} {after : State}
    (answer : sig.exec op system.state = .ok (reply, after))
    : entry? system (.run call : Event Env) = some ⟨call, op, .ok reply⟩ := by
  simp only [ entry?, issued, answer, Except.map]

theorem entry?_refused {fault : Fault} (answer : sig.exec op system.state = .error fault)
    : entry? system (.run call : Event Env) = some ⟨call, op, .error fault⟩ := by
  simp only [ entry?, issued, answer, Except.map]

theorem entry?_lost
    : entry? system (.lose call : Event Env) = some ⟨call, op, .error sig.lost⟩ := by
  simp only [ entry?, issued]

end Entries

variable {effect}

theorem entry?_idle {system : System sig Error Value} {event : Event Env} {call : Nat}
    (named : event = .run call ∨ event = .lose call)
    (ended : ∀ op next, system.calls[call]? ≠ some (.step op next))
    : entry? system event = none := by
  cases found : system.calls[call]? with
  | none => rcases named with rfl | rfl <;> simp only [ entry?, found]
  | some program =>
      cases program with
      | done result => rcases named with rfl | rfl <;> simp only [ entry?, found]
      | step op next => exact absurd found (ended op next)

/-- Only a call that is at an operation does something. -/
theorem entry?_some {system : System sig Error Value} {event : Event Env} {entry : Entry sig}
    (did : entry? system event = some entry)
    : ∃ next, system.calls[entry.call]? = some (.step entry.op next) := by
  cases event with
  | env change => cases did
  | run call =>
      simp only [ entry?] at did
      split at did
      · next op next issued =>
          cases did
          exact ⟨next, issued⟩
      · cases did
  | lose call =>
      simp only [ entry?] at did
      split at did
      · next op next issued =>
          cases did
          exact ⟨next, issued⟩
      · cases did

/-- How a call goes on: it stays where it is and does nothing, or does its next operation. -/
theorem Moves.logged {system after : System sig Error Value} {event : Event Env}
    (moves : system.Moves effect event after) {call : Nat} {program : Program sig Error Value}
    (found : system.calls[call]? = some program)
    : (after.calls[call]? = some program ∧ ∀ entry, entry? system event = some entry → entry.call ≠ call)
      ∨ ∃ op next reply, program = .step op next ∧ after.calls[call]? = some (next reply)
          ∧ entry? system event = some ⟨call, op, reply⟩ := by
  cases moves with
  | @replied other op next reply state issued answer =>
      have did := @entry?_replied _ _ _ _ Env _ system other op next issued reply state answer
      by_cases same : other = call
      · subst same
        cases found.symm.trans issued
        exact Or.inr ⟨op, next, .ok reply, rfl, getElem?_set_moved issued _, did⟩
      · refine Or.inl ⟨(List.getElem?_set_ne same).trans found, ?_⟩
        intro entry logged
        cases did.symm.trans logged
        exact same
  | @refused other op next fault issued answer =>
      have did := @entry?_refused _ _ _ _ Env _ system other op next issued fault answer
      by_cases same : other = call
      · subst same
        cases found.symm.trans issued
        exact Or.inr ⟨op, next, .error fault, rfl, getElem?_set_moved issued _, did⟩
      · refine Or.inl ⟨(List.getElem?_set_ne same).trans found, ?_⟩
        intro entry logged
        cases did.symm.trans logged
        exact same
  | @lost other op next issued =>
      have did := @entry?_lost _ _ _ _ Env _ system other op next issued
      by_cases same : other = call
      · subst same
        cases found.symm.trans issued
        exact Or.inr ⟨op, next, .error sig.lost, rfl, getElem?_set_moved issued _, did⟩
      · refine Or.inl ⟨(List.getElem?_set_ne same).trans found, ?_⟩
        intro entry logged
        cases did.symm.trans logged
        exact same
  | env change =>
      refine Or.inl ⟨found, ?_⟩
      intro entry logged
      cases logged
  | idle named ended =>
      refine Or.inl ⟨found, ?_⟩
      intro entry logged
      rw [entry?_idle named ended] at logged
      cases logged

/-- A call that has ended stays so, by induction on the run. -/
theorem run_done {system : System sig Error Value} {call : Nat} {result : Except Error Value}
    (ended : system.calls[call]? = some (.done result)) (events : List (Event Env))
    : (system.run effect events).calls[call]? = some (.done result) := by
  induction events generalizing system with
  | nil => exact ended
  | cons event rest ih =>
      rcases (handle_moves effect system event).logged ended with ⟨same, _⟩ | ⟨_, _, _, stood, _⟩
      · exact ih same
      · cases stood

/-- The replies that the call was given in the log. -/
def Given (log : List (Entry sig)) (call : Nat) (op : sig.Op) (reply : Except Fault (sig.Reply op))
    : Prop :=
  ⟨call, op, reply⟩ ∈ log

/-- What a call does in a run lies on a path by the replies that it is given there, by induction on the
run.
-/
theorem along_log {check : sig.Op → Prop} {post : Except Error Value → Prop}
    {whole : List (Entry sig)}
    {system : System sig Error Value} {events : List (Event Env)} {call : Nat}
    {program : Program sig Error Value}
    (part : ∀ entry ∈ system.log effect events, entry ∈ whole)
    (found : system.calls[call]? = some program)
    (along : program.Along (Given whole call) check post)
    : (∀ entry ∈ system.log effect events, entry.call = call → check entry.op)
      ∧ ∃ now, (system.run effect events).calls[call]? = some now
          ∧ now.Along (Given whole call) check post := by
  induction events generalizing system program with
  | nil =>
      refine ⟨?_, program, found, along⟩
      intro entry member
      cases member
  | cons event rest ih =>
      have later : ∀ entry ∈ (system.handle effect event).log effect rest, entry ∈ whole :=
        fun entry member => part entry (List.mem_append_right _ member)
      rcases (handle_moves effect system event).logged found with
        ⟨same, others⟩ | ⟨op, next, reply, rfl, moved, did⟩
      · obtain ⟨checked, now, ended⟩ := ih later same along
        refine ⟨?_, now, ended⟩
        intro entry member own
        rcases List.mem_append.mp member with here | member
        · exact absurd own (others entry (Option.mem_toList.mp here))
        · exact checked entry member own
      · have given : Given whole call op reply := by
          refine part _ (List.mem_append_left _ ?_)
          rw [did]
          exact List.mem_singleton.mpr rfl
        obtain ⟨checked, now, ended⟩ := ih later moved (along.2 reply given)
        refine ⟨?_, now, ended⟩
        intro entry member own
        rcases List.mem_append.mp member with here | member
        · rw [did] at here
          cases List.mem_singleton.mp here
          exact along.1
        · exact checked entry member own

/-- No call comes to two operations of the kind by the replies that it is given in the log. -/
def AllOnce (log : List (Entry sig)) (kind : sig.Op → Prop) (system : System sig Error Value)
    : Prop :=
  ∀ (call : Nat) (program : Program sig Error Value), system.calls[call]? = some program
    → program.Once (Given log call) kind

/-- No call does so, by induction on the run: once it has, it never does again. -/
theorem AllOnce.log {kind : sig.Op → Prop} {whole : List (Entry sig)}
    {system : System sig Error Value}
    {events : List (Event Env)} (part : ∀ entry ∈ system.log effect events, entry ∈ whole)
    (all : system.AllOnce whole kind)
    : (system.log effect events).Pairwise (fun first second =>
        kind first.op → kind second.op → first.call ≠ second.call) := by
  induction events generalizing system with
  | nil => exact List.Pairwise.nil
  | cons event rest ih =>
      have later : ∀ entry ∈ (system.handle effect event).log effect rest, entry ∈ whole :=
        fun entry member => part entry (List.mem_append_right _ member)
      have here : ∀ entry, entry? system event = some entry → entry ∈ whole :=
        fun entry did => part entry (List.mem_append_left _ (Option.mem_toList.mpr did))
      have kept : (system.handle effect event).AllOnce whole kind := by
        intro call moved now
        obtain ⟨program, found, _⟩ := (handle_moves effect system event).goesOn now
        rcases (handle_moves effect system event).logged found with
          ⟨same, _⟩ | ⟨op, next, reply, rfl, there, did⟩
        · cases same.symm.trans now
          exact all call _ found
        · cases there.symm.trans now
          exact (all call _ found reply (here _ did)).2
      refine List.pairwise_append.mpr ⟨?_, ih later kept, ?_⟩
      · cases entry? system event with
        | none => exact List.Pairwise.nil
        | some entry => exact List.pairwise_singleton _ _
      · intro first firstIn second secondIn is isToo same
        have did : entry? system event = some first := Option.mem_toList.mp firstIn
        obtain ⟨next, issued⟩ := entry?_some did
        obtain ⟨call, op, reply⟩ := first
        rcases (handle_moves effect system event).logged issued with
          ⟨_, others⟩ | ⟨_, _, _, stood, moved, does⟩
        · exact others _ did rfl
        · cases stood
          cases did.symm.trans does
          have never := (all call _ issued reply (here _ did)).1 is
          have free : ∀ entry ∈ (system.handle effect event).log effect rest, entry.call = call →
              ¬ kind entry.op :=
            (along_log later moved never).1
          exact free second secondIn same.symm isToo

/-- An answer in the log was given at some moment of the run, by induction on the run. -/
theorem executed_of_log {system : System sig Error Value} {events : List (Event Env)} {call : Nat}
    {op : sig.Op} {reply : sig.Reply op} (member : ⟨call, op, .ok reply⟩ ∈ system.log effect events)
    : ∃ past rest, events = past ++ rest
        ∧ (∃ next, (system.run effect past).calls[call]? = some (.step op next))
        ∧ ∃ after, sig.exec op (system.run effect past).state = .ok (reply, after) := by
  induction events generalizing system with
  | nil => cases member
  | cons event rest ih =>
      rcases List.mem_append.mp member with here | later
      · have did : entry? system event = some ⟨call, op, .ok reply⟩ := Option.mem_toList.mp here
        refine ⟨[], event :: rest, rfl, entry?_some did, ?_⟩
        have moves := handle_moves effect system event
        generalize system.handle effect event = after at moves
        cases moves with
        | @replied other issuedOp next answer after issued answered =>
            cases did.symm.trans (entry?_replied issued answered)
            exact ⟨_, answered⟩
        | refused issued answered => cases did.symm.trans (entry?_refused issued answered)
        | lost issued => cases did.symm.trans (entry?_lost issued)
        | env change => cases did
        | idle named ended => cases did.symm.trans (entry?_idle named ended)
      · obtain ⟨past, left, rfl, issued, answered⟩ := ih later
        exact ⟨event :: past, left, rfl, issued, answered⟩

/-- Whoever does something is one of the calls that the run began with, by induction on the run. -/
theorem called_of_log {system : System sig Error Value} {events : List (Event Env)}
    {entry : Entry sig}
    (member : entry ∈ system.log effect events)
    : ∃ program, system.calls[entry.call]? = some program := by
  induction events generalizing system with
  | nil => cases member
  | cons event rest ih =>
      rcases List.mem_append.mp member with here | later
      · obtain ⟨next, issued⟩ := entry?_some (Option.mem_toList.mp here)
        exact ⟨_, issued⟩
      · obtain ⟨moved, now⟩ := ih later
        obtain ⟨program, found, _⟩ := (handle_moves effect system event).goesOn now
        exact ⟨program, found⟩

end System

end Interleaving
