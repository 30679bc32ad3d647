import WslVpn.Auth.Effects

/-! Any number of sign-ins and provisioning calls at once on one database. Each call works on a
connection of its own.
-/

namespace WslVpn.Auth

open Interleaving

/-- A call, with the ids that it will draw. -/
inductive LoginCall where
  | create (freshId : Uuid) (request : CreateUserRequest)
  | update (id : Uuid) (request : UpdateUserRequest)
  | delete (id : Uuid)
  | oidc (freshId : Uuid) (presented : Oidc.Presented)
  | opsapi (freshId : Uuid) (secret : String) (me : OpsApi.Answered OpsApi.MeResponse)
    (scim : OpsApi.Answered OpsApi.ScimUser)
  | devLogin (freshId : Uuid) (secret email : String)
  | reconcileAdmins (freshId : String → Uuid)

/-- What a call returns when it returns no error. -/
inductive LoginAnswer where
  | user (user : User)
  | changed (user : Option User)
  | deleted (found : Bool)
  | signedIn (userId : Uuid)
  | token (response : TokenResponse)
  | reconciled

def LoginCall.program (jwt : Jwt) (config : AuthConfig) (connection : Nat)
    : LoginCall → Login LoginAnswer
  | .create freshId request => do return .user (← UserService.create freshId request)
  | .update id request => do return .changed (← UserService.update id request)
  | .delete id => do return .deleted (← UserService.delete id)
  | .oidc freshId presented => do
      return .signedIn (← Oidc.signIn jwt config connection freshId presented).2
  | .opsapi freshId secret me scim => do
      return .token (← OpsApi.exchange config connection freshId secret me scim)
  | .devLogin freshId secret email => do return .token (← Auth.devLogin config freshId secret email)
  | .reconcileAdmins freshId => do
      Auth.reconcileAdmins config freshId
      return .reconciled

/-- Time passes; the clock never goes back. -/
def elapses (passed : Nat) (db : AuthDb) : AuthDb := { db with now := db.now + passed }

/-- The database with the calls in flight. -/
abbrev LoginSystem := System authSql AppError LoginAnswer

def LoginSystem.start (jwt : Jwt) (config : AuthConfig) (calls : List LoginCall) (db : AuthDb)
    : LoginSystem :=
  ⟨db, calls.mapIdx (fun connection call => call.program jwt config connection)⟩

theorem LoginSystem.start_calls {jwt : Jwt} {config : AuthConfig} {calls : List LoginCall}
    {db : AuthDb}
    {call : Nat} {program : Login LoginAnswer}
    (found : (LoginSystem.start jwt config calls db).calls[call]? = some program)
    : ∃ made, calls[call]? = some made ∧ program = made.program jwt config call :=
  System.getElem?_made found

-----------------------------------------------------------------------------------------
-- What the calls send
-----------------------------------------------------------------------------------------

/-- Every request that the program can come to passes the check. -/
def Sends {Value : Type} (check : Request → Prop) (program : Login Value) : Prop :=
  program.Along (fun _ _ => True) check (fun _ => True)

section Sends

variable {Value Result : Type} {check : Request → Prop}

theorem Sends.bind {program : Login Value} {rest : Value → Login Result}
    (first : Sends check program)
    (second : ∀ value, Sends check (rest value))
    : Sends check (program >>= rest) :=
  Program.Along.seq first second

theorem Sends.recover {program : Login Value} {handler : AppError → Login Value}
    (first : Sends check program) (second : ∀ error, Sends check (handler error))
    : Sends check (tryCatch program handler) :=
  Program.Along.recover first second

theorem sends_return (value : Value) : Sends check (pure value : Login Value) := trivial

theorem sends_throw (error : AppError) : Sends check (throw error : Login Value) := trivial

theorem sends_send {request : Request} (passes : check request) : Sends check (send request) := by
  refine ⟨passes, ?_⟩
  intro reply _
  cases reply <;> trivial

/-- A request whose refusal ends the program. -/
theorem sends_then {request : Request} {rest : request.Reply → Login Result}
    (passes : check request)
    (second : ∀ reply, Sends check (rest reply))
    : Sends check (send request >>= rest) :=
  (sends_send passes).bind second

theorem sends_lift (result : Except AppError Value) : Sends check (liftExcept result) := by
  cases result <;> trivial

theorem sends_inTransaction {connection : Nat} {body : Login Value}
    (begins : check (.begin connection)) (commits : check (.commit connection))
    (rollsBack : check (.rollback connection)) (inside : Sends check body)
    : Sends check (inTransaction connection body) := by
  refine (sends_send begins).bind (fun _ => ?_)
  refine Sends.recover ?_ ?_
  · refine inside.bind (fun value => ?_)
    exact (sends_send commits).bind (fun _ => sends_return value)
  · intro error
    refine Sends.bind ?_ (fun _ => sends_throw error)
    exact (sends_send rollsBack).recover (fun _ => sends_return ())

end Sends

end WslVpn.Auth
