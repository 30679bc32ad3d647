import Mathlib.Logic.Basic

/-! Programs over the atomic operations of a shared state.
A program is a tree: each node is one operation, and the reply to it selects the subtree that
runs next. Between two nodes the state may be changed by anybody else.
-/

namespace Interleaving

variable {State Fault Error Value Result : Type}

/-- The operations that a shared state offers. Each one reads and writes the state in a single
atomic step; an operation that is refused leaves the state as it was. `lost` is what a caller
is told of an operation that never reached the state.
-/
structure Signature (State Fault : Type) where
  Op : Type
  Reply : Op → Type
  exec : (op : Op) → State → Except Fault (Reply op × State)
  lost : Fault

variable {sig : Signature State Fault}

/-- A program that issues the operations of `sig` and ends with a value or an error. -/
inductive Program (sig : Signature State Fault) (Error Value : Type) where
  | done (result : Except Error Value)
  | step (op : sig.Op) (next : Except Fault (sig.Reply op) → Program sig Error Value)

namespace Program

/-- Sequencing: an error of the first program ends the whole. -/
def bind (program : Program sig Error Value) (rest : Value → Program sig Error Result)
    : Program sig Error Result :=
  match program with
  | .done (.ok value) => rest value
  | .done (.error error) => .done (.error error)
  | .step op next => .step op (fun reply => (next reply).bind rest)

instance : Monad (Program sig Error) where
  pure value := .done (.ok value)
  bind := bind

/-- Run `handler` on the error that the program ends with, if it ends with one. -/
def recover (handler : Error → Program sig Error Value)
    : Program sig Error Value → Program sig Error Value
  | .done (.ok value) => .done (.ok value)
  | .done (.error error) => handler error
  | .step op next => .step op (fun reply => (next reply).recover handler)

/-- The program with what it ends with as its value, whether it is an error or not. -/
def attempt : Program sig Error Value → Program sig Error (Except Error Value)
  | .done result => .done (.ok result)
  | .step op next => .step op (fun reply => (next reply).attempt)

instance : MonadExceptOf Error (Program sig Error) where
  throw error := .done (.error error)
  tryCatch program handler := program.recover handler

/-- Issue one operation; its refusal ends the program with the error it converts to. -/
def request (convert : Fault → Error) (op : sig.Op) : Program sig Error (sig.Reply op) :=
  .step op fun
    | .ok reply => .done (.ok reply)
    | .error fault => .done (.error (convert fault))

@[simp] theorem pure_eq (value : Value)
    : (pure value : Program sig Error Value) = .done (.ok value) := rfl

@[simp] theorem throw_eq (error : Error)
    : (throw error : Program sig Error Value) = .done (.error error) := rfl

@[simp] theorem bind_done_ok (value : Value) (rest : Value → Program sig Error Result)
    : (Program.done (.ok value) >>= rest : Program sig Error Result) = rest value := rfl

@[simp] theorem bind_done_error (error : Error) (rest : Value → Program sig Error Result)
    : (Program.done (.error error) >>= rest : Program sig Error Result)
      = .done (.error error) := rfl

@[simp] theorem bind_step (op : sig.Op)
    (next : Except Fault (sig.Reply op) → Program sig Error Value)
    (rest : Value → Program sig Error Result)
    : (Program.step op next >>= rest : Program sig Error Result)
      = .step op (fun reply => next reply >>= rest) := rfl

/-- Sequencing is associative, by induction on the first program. -/
theorem bind_assoc {Middle : Type} (program : Program sig Error Value)
    (first : Value → Program sig Error Middle) (second : Middle → Program sig Error Result)
    : (program >>= first >>= second) = (program >>= fun value => first value >>= second) := by
  induction program with
  | done result => cases result <;> rfl
  | step op next ih =>
      simp only [bind_step]
      exact congrArg (Program.step op) (funext ih)

/-- A program that only hands its value on, by induction. -/
theorem bind_pure (program : Program sig Error Value) : (program >>= pure) = program := by
  induction program with
  | done result => cases result <;> rfl
  | step op next ih =>
      simp only [bind_step]
      exact congrArg (Program.step op) (funext ih)

instance : LawfulMonad (Program sig Error) :=
  LawfulMonad.mk' _ bind_pure (fun _ _ => rfl) bind_assoc

/-- The operation that the program issues next, if it has not ended. -/
def pending? : Program sig Error Value → Option sig.Op
  | .done _ => none
  | .step op _ => some op

@[simp] theorem pending?_done (result : Except Error Value)
    : (Program.done result : Program sig Error Value).pending? = none := rfl

@[simp] theorem pending?_step (op : sig.Op)
    (next : Except Fault (sig.Reply op) → Program sig Error Value)
    : (Program.step op next).pending? = some op := rfl

/-- The next operation takes effect: the program continues with the reply, or with the refusal. -/
def advance (program : Program sig Error Value) (state : State)
    : Program sig Error Value × State :=
  match program with
  | .done result => (.done result, state)
  | .step op next =>
      match sig.exec op state with
      | .ok (reply, after) => (next (.ok reply), after)
      | .error fault => (next (.error fault), state)

/-- The next operation is lost: the state does not change and the caller learns of the loss. -/
def fail : Program sig Error Value → Program sig Error Value
  | .done result => .done result
  | .step _ next => next (.error sig.lost)

-----------------------------------------------------------------------------------------
-- A program run on its own
-----------------------------------------------------------------------------------------

/-- Run a program to its end. Before its `n`-th operation the surroundings do `env n`, and the
operation is lost when `fails n` says so.
-/
def execute (env : Nat → State → State) (fails : Nat → Bool) (n : Nat)
    : Program sig Error Value → State → Except Error Value × State
  | .done result, state => (result, state)
  | .step op next, state =>
      if fails n then
        execute env fails (n + 1) (next (.error sig.lost)) (env n state)
      else
        match sig.exec op (env n state) with
        | .ok (reply, after) => execute env fails (n + 1) (next (.ok reply)) after
        | .error fault => execute env fails (n + 1) (next (.error fault)) (env n state)

@[simp] theorem execute_done (env : Nat → State → State) (fails : Nat → Bool) (n : Nat)
    (result : Except Error Value) (state : State)
    : (Program.done result : Program sig Error Value).execute env fails n state
      = (result, state) := rfl

section Request

variable (env : Nat → State → State) {fails : Nat → Bool} {n : Nat} {convert : Fault → Error}
  {op : sig.Op} {rest : sig.Reply op → Program sig Error Result} {state : State}

/-- A requested operation that is lost ends the program. -/
theorem execute_request_lost (lost : fails n = true)
    : (request convert op >>= rest).execute env fails n state
      = (.error (convert sig.lost), env n state) := by
  change (Program.step op _).execute env fails n state = _
  simp only [execute, lost, if_true]
  rfl

/-- The answer to a requested operation goes to the rest of the program. -/
theorem execute_request_answered {reply : sig.Reply op} {after : State}
    (arrives : fails n = false) (answer : sig.exec op (env n state) = .ok (reply, after))
    : (request convert op >>= rest).execute env fails n state
      = (rest reply).execute env fails (n + 1) after := by
  change (Program.step op _).execute env fails n state = _
  simp only [execute, arrives, answer]
  rfl

/-- A requested operation that is refused ends the program. -/
theorem execute_request_refused {fault : Fault} (arrives : fails n = false)
    (answer : sig.exec op (env n state) = .error fault)
    : (request convert op >>= rest).execute env fails n state
      = (.error (convert fault), env n state) := by
  change (Program.step op _).execute env fails n state = _
  simp only [execute, arrives, answer]
  rfl

end Request

section Parts

variable {env : Nat → State → State} {fails : Nat → Bool}

/-- A sequence that ends well: both of its parts do, by induction on the first one. -/
theorem execute_bind_ok {program : Program sig Error Value}
    {rest : Value → Program sig Error Result} {n : Nat} {state final : State} {result : Result}
    (ran : (program >>= rest).execute env fails n state = (.ok result, final))
    : ∃ value m between, program.execute env fails n state = (.ok value, between)
        ∧ (rest value).execute env fails m between = (.ok result, final) := by
  induction program generalizing n state with
  | done ended =>
      cases ended with
      | ok value => exact ⟨value, n, state, rfl, ran⟩
      | error error => cases ran
  | step op next ih =>
      rw [bind_step, execute] at ran
      rw [execute]
      split at ran
      · next lost =>
          rw [if_pos lost]
          exact ih _ ran
      · next arrives =>
          rw [if_neg arrives]
          cases answer : sig.exec op (env n state) with
          | ok pair =>
              rw [answer] at ran
              exact ih _ ran
          | error fault =>
              rw [answer] at ran
              exact ih _ ran

/-- An operation that is answered has run. -/
theorem execute_request_ok {convert : Fault → Error} {op : sig.Op} {n : Nat}
    {state after : State} {reply : sig.Reply op}
    (ran : (request convert op).execute env fails n state = (.ok reply, after))
    : sig.exec op (env n state) = .ok (reply, after) := by
  rw [request, execute] at ran
  split at ran
  · cases ran
  · cases answer : sig.exec op (env n state) with
    | ok pair =>
        rw [answer] at ran
        cases ran
        rfl
    | error fault =>
        rw [answer] at ran
        cases ran

/-- What the surroundings and every operation keep is kept by a whole program, by induction. -/
theorem execute_keeps {inv : State → Prop} (drifts : ∀ n state, inv state → inv (env n state))
    (keeps
      : ∀ (op : sig.Op) state reply after, inv state → sig.exec op state = .ok (reply, after)
          → inv after)
    {program : Program sig Error Value} {n : Nat} {state : State} (holds : inv state)
    : inv (program.execute env fails n state).2 := by
  induction program generalizing n state with
  | done result => exact holds
  | step op next ih =>
      have drifted := drifts n state holds
      rw [execute]
      split
      · exact ih _ drifted
      · cases answer : sig.exec op (env n state) with
        | ok pair => exact ih _ (keeps op _ _ _ drifted answer)
        | error fault => exact ih _ drifted

end Parts

-----------------------------------------------------------------------------------------
-- A program that nobody disturbs
-----------------------------------------------------------------------------------------

/-- Run a program to its end with nobody else about and no operation lost. -/
def alone : Program sig Error Value → State → Except Error Value × State
  | .done result, state => (result, state)
  | .step op next, state =>
      match sig.exec op state with
      | .ok (reply, after) => (next (.ok reply)).alone after
      | .error fault => (next (.error fault)).alone state

section Alone

variable {program : Program sig Error Value} {rest : Value → Program sig Error Result}
  {state after : State}

@[simp] theorem alone_done (result : Except Error Value) (state : State)
    : (Program.done result : Program sig Error Value).alone state = (result, state) := rfl

/-- The rest of a sequence goes on where the first program has ended, by induction on that. -/
theorem alone_bind_ok {value : Value} (ran : program.alone state = (.ok value, after))
    : (program >>= rest).alone state = (rest value).alone after := by
  induction program generalizing state with
  | done result =>
      cases ran
      rfl
  | step op next ih =>
      rw [bind_step, alone]
      rw [alone] at ran
      cases answer : sig.exec op state with
      | ok pair =>
          rw [answer] at ran
          exact ih _ ran
      | error fault =>
          rw [answer] at ran
          exact ih _ ran

/-- A sequence ends with its first program when that ends with an error, by induction on it. -/
theorem alone_bind_error {error : Error} (ran : program.alone state = (.error error, after))
    : (program >>= rest).alone state = (.error error, after) := by
  induction program generalizing state with
  | done result =>
      cases ran
      rfl
  | step op next ih =>
      rw [bind_step, alone]
      rw [alone] at ran
      cases answer : sig.exec op state with
      | ok pair =>
          rw [answer] at ran
          exact ih _ ran
      | error fault =>
          rw [answer] at ran
          exact ih _ ran

/-- A sequence, told by how its first program ends. -/
theorem alone_bind
    : (program >>= rest).alone state
      = match program.alone state with
        | (.ok value, middle) => (rest value).alone middle
        | (.error error, middle) => (.error error, middle) := by
  cases ended : program.alone state with
  | mk result middle =>
      cases result with
      | ok value => exact alone_bind_ok ended
      | error error => exact alone_bind_error ended

/-- A handler takes over where the program has ended with an error, by induction on the program. -/
theorem alone_recover {handler : Error → Program sig Error Value}
    : (program.recover handler).alone state
      = match program.alone state with
        | (.ok value, middle) => (.ok value, middle)
        | (.error error, middle) => (handler error).alone middle := by
  induction program generalizing state with
  | done result => cases result <;> rfl
  | step op next ih =>
      rw [recover, alone, alone]
      cases answer : sig.exec op state with
      | ok pair => exact ih _
      | error fault => exact ih _

theorem alone_request_ok {convert : Fault → Error} {op : sig.Op} {reply : sig.Reply op}
    (answer : sig.exec op state = .ok (reply, after))
    : (request convert op).alone state = (.ok reply, after) := by
  rw [request, alone, answer]
  rfl

theorem alone_request_error {convert : Fault → Error} {op : sig.Op} {fault : Fault}
    (answer : sig.exec op state = .error fault)
    : (request convert op).alone state = (.error (convert fault), state) := by
  rw [request, alone, answer]
  rfl

end Alone

end Program

end Interleaving
