import WslVpn.Auth.Calls
import WslVpn.Interleaving.Log

/-! The sign-ins and the provisioning calls that meet on the users and their bindings, and the points at
which a sign-in can stand.
-/

namespace WslVpn.Auth

open Interleaving
open Interleaving.System (Given)

/-- A call, with the id that it will draw. -/
inductive BindingCall where
  | oidc (freshId : Uuid) (identity : VerifiedIdentity)
  | opsapi (ops : OpsApiConfig) (freshId : Uuid) (person : OpsApiPerson)
  | create (freshId : Uuid) (request : CreateUserRequest)
  | update (id : Uuid) (request : UpdateUserRequest)
  | delete (id : Uuid)

def BindingCall.program (config : AuthConfig) (connection : Nat) : BindingCall → Login LoginAnswer
  | .oidc freshId identity => do
      return .signedIn (← Oidc.resolveUser config connection freshId identity)
  | .opsapi ops freshId person => do
      return .signedIn (← OpsApi.resolveUser config ops connection freshId person)
  | .create freshId request => do return .user (← UserService.create freshId request)
  | .update id request => do return .changed (← UserService.update id request)
  | .delete id => do return .deleted (← UserService.delete id)

def BindingCall.SignsIn : BindingCall → Prop
  | .oidc .. | .opsapi .. => True
  | .create .. | .update .. | .delete .. => False

/-- The database with the calls in flight. -/
def LoginSystem.binding (config : AuthConfig) (calls : List BindingCall) (db : AuthDb)
    : LoginSystem :=
  ⟨db, calls.mapIdx (fun connection call => call.program config connection)⟩

theorem LoginSystem.binding_calls {config : AuthConfig} {calls : List BindingCall} {db : AuthDb}
    {call : Nat} {made : BindingCall} (found : calls[call]? = some made)
    : (LoginSystem.binding config calls db).calls[call]? = some (made.program config call) := by
  change (calls.mapIdx (fun connection call => call.program config connection))[call]? = _
  rw [List.getElem?_mapIdx, found]
  rfl

theorem LoginSystem.binding_made {config : AuthConfig} {calls : List BindingCall} {db : AuthDb}
    {call : Nat} {program : Login LoginAnswer}
    (found : (LoginSystem.binding config calls db).calls[call]? = some program)
    : ∃ made, calls[call]? = some made ∧ program = made.program config call :=
  System.getElem?_made found

-----------------------------------------------------------------------------------------
-- What the calls send
-----------------------------------------------------------------------------------------

/-- A statement that looks for the user of a sign-in. -/
inductive Looks : Statement → Prop where
  | bound (issuer subject : String) : Looks (.selectBound issuer subject)
  | address (email : String) : Looks (.selectUserByEmail email)
  | subject (issuer : String) (userId : Uuid) : Looks (.selectSubject issuer userId)
  | provisioned (externalId : String) : Looks (.selectUserByExternalId externalId)
  | taken (email : String) : Looks (.selectUserByLowerEmail email)

/-- A statement of a sign-in: it looks for the user first, writes, and checks the user last. -/
inductive SignInStatement : Statement → Prop where
  | looks {statement : Statement} (looks : Looks statement) : SignInStatement statement
  | carries (issuer subject email : String) : SignInStatement (.updateIdentityEmail issuer subject email)
  | moves (id : Uuid) (email : String) : SignInStatement (.updateUserEmail id email)
  | creates (row : UserRow) : SignInStatement (.insertUser row)
  | binds (row : IdentityRow) : SignInStatement (.insertIdentity row)
  | checks (id : Uuid) : SignInStatement (.selectActive id)

/-- A statement that the sign-in comes to before it has written anything. -/
def Early (statement : Statement) : Prop := Looks statement ∨ ∃ row, statement = .insertUser row

/-- What a provisioning call sends. -/
inductive Provisions : Request → Prop where
  | create (freshId : Uuid) (request : CreateUserRequest)
    : Provisions (.auto (.upsertUser freshId request))
  | update (id : Uuid) (request : UpdateUserRequest) : Provisions (.auto (.updateUser id request))
  | delete (id : Uuid) : Provisions (.auto (.deleteUser id))
  | revoke (id : Uuid) : Provisions (.revokeUserSessions id)

/-- The statement is one of a sign-in on this connection. -/
def InSignIn (connection : Nat) (request : Request) : Prop :=
  ∃ statement, request = .within connection statement ∧ SignInStatement statement

/-- The request is one of a sign-in on this connection. -/
def OfSignIn (connection : Nat) (request : Request) : Prop :=
  request = .begin connection ∨ InSignIn connection request ∨ request = .commit connection
    ∨ request = .rollback connection

/-- Whatever is early comes right after a look that was answered. -/
def EarlyLink (connection : Nat) (request : Request) (reply : Except DbError request.Reply)
    (next : Option Request) : Prop :=
  ∀ statement, next = some (.within connection statement) → Early statement
    → (∃ before, request = .within connection before ∧ Looks before) ∧ ∃ answer, reply = .ok answer

/-- The body ends well only right after its user has been found active. -/
def EndsChecked (connection : Nat) : Login Uuid → Prop
  | .done _ => True
  | .step request next =>
      ∀ reply,
        (∀ userId, next reply = .done (.ok userId)
          → (⟨connection, request, reply⟩ : Entry authSql)
            = ⟨connection, .within connection (.selectActive userId), .ok (some true)⟩)
        ∧ EndsChecked connection (next reply)

/-- The rest of a sign-in's transaction. -/
structure Body (connection : Nat) (body : Login Uuid) : Prop where
  sends : Sends (InSignIn connection) body
  early : body.Adjacent (EarlyLink connection)
  checked : EndsChecked connection body

section Bodies

variable {connection : Nat} {config : AuthConfig} {freshId : Uuid}

/-- The check comes last, whatever comes before, by induction on that. -/
theorem endsChecked_checkActive (find : Login Uuid)
    : EndsChecked connection (find >>= checkActive connection) := by
  induction find with
  | done result =>
      cases result with
      | error error => trivial
      | ok userId =>
          intro reply
          match reply with
          | .error fault => exact ⟨(fun userId same => by cases same), trivial⟩
          | .ok none => exact ⟨(fun userId same => by cases same), trivial⟩
          | .ok (some false) => exact ⟨(fun userId same => by cases same), trivial⟩
          | .ok (some true) =>
              refine ⟨?_, trivial⟩
              intro found same
              cases same
              rfl
  | step request next ih =>
      intro reply
      refine ⟨?_, ih reply⟩
      intro userId ended
      change next reply >>= checkActive connection = _ at ended
      cases stands : next reply with
      | done result =>
          rw [stands] at ended
          cases result <;> cases ended
      | step op rest =>
          rw [stands] at ended
          cases ended

theorem earlyLink_none {request : Request} {reply : Except DbError request.Reply}
    : EarlyLink connection request reply none := by
  intro statement same
  cases same

theorem earlyLink_late {request : Request} {reply : Except DbError request.Reply}
    {statement : Statement}
    (late : ¬ Early statement)
    : EarlyLink connection request reply (some (.within connection statement)) := by
  intro named same early
  cases same
  exact absurd early late

theorem earlyLink_look {statement : Statement} {answer : statement.Reply} {next : Option Request}
    (looks : Looks statement)
    : EarlyLink connection (.within connection statement) (.ok answer) next :=
  fun _ _ _ => ⟨⟨statement, rfl, looks⟩, answer, rfl⟩

theorem early_stmt {Value : Type} {statement : Statement} {rest : statement.Reply → Login Value}
    (answered
      : ∀ reply, EarlyLink connection (.within connection statement) (.ok reply) (rest reply).pending?
          ∧ (rest reply).Adjacent (EarlyLink connection))
    : (stmt connection statement >>= rest).Adjacent (EarlyLink connection) :=
  Program.Adjacent.request (fun _ => earlyLink_none) answered

theorem early_last {statement : Statement}
    : (stmt connection statement).Adjacent (EarlyLink connection) := by
  intro reply
  cases reply <;> exact ⟨earlyLink_none, trivial⟩

/-- A statement is not early when it looks for nothing and creates no user. -/
theorem late_of {statement : Statement} (noLook : ¬ Looks statement)
    (noUser : ∀ row, statement ≠ .insertUser row)
    : ¬ Early statement := by
  intro early
  rcases early with looks | ⟨row, same⟩
  · exact noLook looks
  · exact noUser row same

/-- The statements that write a binding or an address, and the last check, are late. -/
theorem late_write {statement : Statement}
    (writes
      : (∃ issuer subject email, statement = .updateIdentityEmail issuer subject email)
          ∨ (∃ id email, statement = .updateUserEmail id email)
          ∨ (∃ row, statement = .insertIdentity row) ∨ ∃ id, statement = .selectActive id)
    : ¬ Early statement := by
  rcases writes with ⟨_, _, _, rfl⟩ | ⟨_, _, rfl⟩ | ⟨_, rfl⟩ | ⟨_, rfl⟩
  all_goals
    refine late_of ?_ (by simp)
    intro looks
    cases looks

theorem body_checkActive {find : Login Uuid} (sends : Sends (InSignIn connection) find)
    (early : find.Adjacent (EarlyLink connection))
    : Body connection (find >>= checkActive connection) := by
  refine ⟨sends.bind ?_, early.bind ?_ ?_, endsChecked_checkActive find⟩
  · intro userId
    refine sends_then ⟨_, rfl, .checks userId⟩ ?_
    intro active
    match active with
    | none => exact sends_throw _
    | some false => exact sends_throw _
    | some true => exact sends_return _
  · intro userId
    refine early_stmt ?_
    intro active
    match active with
    | none => exact ⟨earlyLink_none, trivial⟩
    | some false => exact ⟨earlyLink_none, trivial⟩
    | some true => exact ⟨earlyLink_none, trivial⟩
  · intro userId request reply _
    exact earlyLink_late (late_write (Or.inr (Or.inr (Or.inr ⟨userId, rfl⟩))))

theorem oidc_body {identity : VerifiedIdentity}
    : Body connection (do
        let userId ← Oidc.findUser config connection freshId identity
        checkActive connection userId) := by
  refine body_checkActive ?_ ?_
  · refine sends_then ⟨_, rfl, .looks (.bound _ _)⟩ ?_
    intro bound
    match bound with
    | some userId =>
        refine sends_then ⟨_, rfl, .carries _ _ _⟩ (fun _ => ?_)
        exact sends_then ⟨_, rfl, .moves _ _⟩ (fun _ => sends_return _)
    | none =>
        refine sends_then ⟨_, rfl, .looks (.address _)⟩ ?_
        intro existing
        match existing with
        | some (userId, _) =>
            refine sends_then ⟨_, rfl, .looks (.subject _ _)⟩ ?_
            intro already
            match already with
            | some _ => exact sends_throw _
            | none => exact sends_then ⟨_, rfl, .binds _⟩ (fun _ => sends_return _)
        | none =>
            change Sends _ (if _ then _ else _)
            split
            · exact sends_throw _
            · refine sends_then ⟨_, rfl, .creates _⟩ (fun _ => ?_)
              exact sends_then ⟨_, rfl, .binds _⟩ (fun _ => sends_return _)
  · refine early_stmt ?_
    intro bound
    refine ⟨earlyLink_look (.bound _ _), ?_⟩
    match bound with
    | some userId =>
        refine early_stmt (fun _ => ⟨earlyLink_late ?_, ?_⟩)
        · exact late_write (Or.inr (Or.inl ⟨_, _, rfl⟩))
        · exact early_stmt (fun _ => ⟨earlyLink_none, trivial⟩)
    | none =>
        refine early_stmt ?_
        intro existing
        refine ⟨earlyLink_look (.address _), ?_⟩
        match existing with
        | some (userId, _) =>
            refine early_stmt ?_
            intro already
            refine ⟨earlyLink_look (.subject _ _), ?_⟩
            match already with
            | some _ => trivial
            | none => exact early_stmt (fun _ => ⟨earlyLink_none, trivial⟩)
        | none =>
            change (if _ then _ else _ : Login Uuid).Adjacent (EarlyLink connection)
            split
            · trivial
            · refine early_stmt (fun _ => ⟨earlyLink_late ?_, ?_⟩)
              · exact late_write (Or.inr (Or.inr (Or.inl ⟨_, rfl⟩)))
              · exact early_stmt (fun _ => ⟨earlyLink_none, trivial⟩)

theorem opsapi_body {ops : OpsApiConfig} {person : OpsApiPerson}
    : Body connection (do
        let userId ← OpsApi.findUser config ops connection freshId person
        checkActive connection userId) := by
  refine body_checkActive ?_ ?_
  · refine sends_then ⟨_, rfl, .looks (.bound _ _)⟩ ?_
    intro bound
    match bound with
    | some userId => exact sends_then ⟨_, rfl, .carries _ _ _⟩ (fun _ => sends_return _)
    | none =>
        refine Sends.bind ?_ (fun _ => ?_)
        · refine sends_then ⟨_, rfl, .looks (.provisioned _)⟩ ?_
          intro provisioned
          match provisioned with
          | some id => exact sends_return _
          | none =>
              refine sends_then ⟨_, rfl, .looks (.taken _)⟩ ?_
              intro taken
              change Sends _ (if _ then _ else _)
              split
              · exact sends_throw _
              · split
                · exact sends_throw _
                · exact sends_send ⟨_, rfl, .creates _⟩
        · exact sends_then ⟨_, rfl, .binds _⟩ (fun _ => sends_return _)
  · refine early_stmt ?_
    intro bound
    refine ⟨earlyLink_look (.bound _ _), ?_⟩
    match bound with
    | some userId => exact early_stmt (fun _ => ⟨earlyLink_none, trivial⟩)
    | none =>
        refine Program.Adjacent.bind ?_ (fun _ => ?_) (fun _ _ _ _ => ?_)
        · refine early_stmt ?_
          intro provisioned
          refine ⟨earlyLink_look (.provisioned _), ?_⟩
          match provisioned with
          | some id => trivial
          | none =>
              refine early_stmt ?_
              intro taken
              refine ⟨earlyLink_look (.taken _), ?_⟩
              change (if _ then _ else _ : Login Uuid).Adjacent (EarlyLink connection)
              split
              · trivial
              · split
                · trivial
                · exact early_last
        · exact early_stmt (fun _ => ⟨earlyLink_none, trivial⟩)
        · exact earlyLink_late (late_write (Or.inr (Or.inr (Or.inl ⟨_, rfl⟩))))

end Bodies

-----------------------------------------------------------------------------------------
-- Where a sign-in stands
-----------------------------------------------------------------------------------------

/-- The rest of a sign-in once its transaction is open. -/
def opened (connection : Nat) (body : Login Uuid) : Login LoginAnswer := do
  let userId ← tryCatch
    (do
      let value ← body
      let () ← send (.commit connection)
      return value)
    (fun error => do
      tryCatch (send (.rollback connection)) (fun _ => return ())
      throw error)
  return .signedIn userId

/-- The end of a transaction that has failed. -/
def undoing (connection : Nat) (error : AppError) : Login LoginAnswer :=
  .step (.rollback connection) (fun _ => .done (.error error))

/-- The sign-in is about to commit, and will then return the user. -/
def Awaits (connection : Nat) (userId : Uuid) (program : Login LoginAnswer) : Prop :=
  ∃ next, program = .step (.commit connection) next ∧ next (.ok ()) = .done (.ok (.signedIn userId))

inductive Stage (connection : Nat) : Login LoginAnswer → Prop where
  | begins {body : Login Uuid} (rest : Body connection body)
    (looks : ∀ userId, body ≠ .done (.ok userId))
    : Stage connection (inTransaction connection body >>= fun userId => pure (.signedIn userId))
  | runs {body : Login Uuid} (rest : Body connection body) : Stage connection (opened connection body)
  | undoes (error : AppError) : Stage connection (undoing connection error)
  | ended (result : Except AppError LoginAnswer) : Stage connection (.done result)

section Stages

variable {connection : Nat}

theorem begins_eq {body : Login Uuid}
    : (inTransaction connection body >>= fun userId => pure (.signedIn userId) : Login LoginAnswer)
      = .step (.begin connection) (fun
          | .ok _ => opened connection body
          | .error _ => .done (.error .db)) := by
  change Program.step _ _ = Program.step _ _
  congr 1
  funext reply
  cases reply <;> rfl

theorem opened_step {request : Request} {next : Except DbError request.Reply → Login Uuid}
    : opened connection (.step request next)
      = .step request (fun reply => opened connection (next reply)) := rfl

theorem opened_error (error : AppError)
    : opened connection (.done (.error error)) = undoing connection error := by
  change Program.step _ _ = Program.step _ _
  congr 1
  funext reply
  cases reply <;> rfl

theorem opened_ok (userId : Uuid)
    : opened connection (.done (.ok userId))
      = .step (.commit connection) (fun
          | .ok _ => .done (.ok (.signedIn userId))
          | .error _ => undoing connection .db) := by
  change Program.step _ _ = Program.step _ _
  congr 1
  funext reply
  cases reply with
  | ok answer => rfl
  | error fault => exact opened_error .db

theorem Body.next {request : Request} {next : Except DbError request.Reply → Login Uuid}
    (rest : Body connection (.step request next)) (reply : Except DbError request.Reply)
    : Body connection (next reply) :=
  ⟨rest.sends.2 reply trivial, (rest.early reply).2, (rest.checked reply).2⟩

/-- What a sign-in's step has to do with the point that it leads to. -/
structure StageStep (connection : Nat) (request : Request)
    (next : Except DbError request.Reply → Login LoginAnswer) (reply : Except DbError request.Reply)
    : Prop where
  stage : Stage connection (next reply)
  own : OfSignIn connection request
  early
    : ∀ statement, (next reply).pending? = some (.within connection statement) → Early statement
        → (request = .begin connection ∨ ∃ before, request = .within connection before ∧ Looks before)
          ∧ ∃ answer, reply = .ok answer
  awaits
    : ∀ userId, Awaits connection userId (next reply)
        → (⟨connection, request, reply⟩ : Entry authSql)
          = ⟨connection, .within connection (.selectActive userId), .ok (some true)⟩
  returns
    : ∀ answer, next reply = .done (.ok answer)
        → ∃ userId, answer = .signedIn userId ∧ Awaits connection userId (.step request next)
          ∧ ∃ given, reply = .ok given
  commits
    : request = .commit connection → ∀ given, reply = .ok given
        → ∃ userId, next reply = .done (.ok (.signedIn userId))

theorem not_awaits_done {userId : Uuid} {result : Except AppError LoginAnswer}
    : ¬ Awaits connection userId (.done result) := by
  intro awaits
  obtain ⟨_, same, _⟩ := awaits
  cases same

theorem not_awaits_undoing {userId : Uuid} {error : AppError}
    : ¬ Awaits connection userId (undoing connection error) := by
  intro awaits
  obtain ⟨_, same, _⟩ := awaits
  cases same

/-- A transaction awaits its commit only when its body has ended. -/
theorem awaits_opened {userId : Uuid} {body : Login Uuid} (rest : Body connection body)
    (awaits : Awaits connection userId (opened connection body))
    : body = .done (.ok userId) := by
  obtain ⟨next, same, ends⟩ := awaits
  cases body with
  | done result =>
      cases result with
      | ok found =>
          rw [opened_ok] at same
          cases same
          cases ends
          rfl
      | error error =>
          rw [opened_error] at same
          cases same
  | step request more =>
      obtain ⟨statement, rfl, _⟩ := rest.sends.1
      cases same

theorem opened_ne_done {body : Login Uuid} {result : Except AppError LoginAnswer}
    : opened connection body ≠ .done result := by
  intro same
  cases body with
  | done ended =>
      cases ended with
      | ok userId =>
          rw [opened_ok] at same
          cases same
      | error error =>
          rw [opened_error] at same
          cases same
  | step request next => cases same

/-- A step to the end of a failed transaction, or past it. -/
theorem stageStep_fails {request : Request}
    {next : Except DbError request.Reply → Login LoginAnswer}
    {reply : Except DbError request.Reply} {error : AppError}
    (own : OfSignIn connection request)
    (fails : next reply = undoing connection error ∨ next reply = .done (.error error))
    (uncommitted : request = .commit connection → ∀ given, reply ≠ .ok given)
    : StageStep connection request next reply := by
  refine ⟨?_, own, ?_, ?_, ?_, ?_⟩
  · rcases fails with after | after
    · rw [after]
      exact .undoes error
    · rw [after]
      exact .ended _
  · intro statement pending
    rcases fails with after | after
    · rw [after] at pending
      cases pending
    · rw [after] at pending
      cases pending
  · intro userId awaits
    rcases fails with after | after
    · rw [after] at awaits
      exact absurd awaits not_awaits_undoing
    · rw [after] at awaits
      exact absurd awaits not_awaits_done
  · intro answer ended
    rcases fails with after | after
    · cases after.symm.trans ended
    · cases after.symm.trans ended
  · intro same given answered
    exact absurd answered (uncommitted same given)

/-- A step to a point inside the transaction. -/
theorem stageStep_runs {request : Request} {next : Except DbError request.Reply → Login LoginAnswer}
    {reply : Except DbError request.Reply} {body : Login Uuid}
    (own : request = .begin connection ∨ InSignIn connection request) (rest : Body connection body)
    (after : next reply = opened connection body)
    (early
      : ∀ statement, body.pending? = some (.within connection statement) → Early statement
          → (request = .begin connection ∨ ∃ before, request = .within connection before ∧ Looks before)
            ∧ ∃ answer, reply = .ok answer)
    (checked
      : ∀ userId, body = .done (.ok userId)
          → (⟨connection, request, reply⟩ : Entry authSql)
            = ⟨connection, .within connection (.selectActive userId), .ok (some true)⟩)
    : StageStep connection request next reply := by
  refine ⟨?_, ?_, ?_, ?_, ?_, ?_⟩
  · rw [after]
    exact .runs rest
  · rcases own with begins | inside
    · exact Or.inl begins
    · exact Or.inr (Or.inl inside)
  · intro statement pending
    rw [after] at pending
    cases body with
    | done result =>
        cases result with
        | ok userId =>
            rw [opened_ok] at pending
            cases pending
        | error error =>
            rw [opened_error] at pending
            cases pending
    | step request' next' => exact early statement pending
  · intro userId awaits
    rw [after] at awaits
    exact checked userId (awaits_opened rest awaits)
  · intro answer ended
    exact absurd (after.symm.trans ended) opened_ne_done
  · intro same given answered
    rcases own with begins | ⟨statement, inside, _⟩
    · cases begins.symm.trans same
    · cases inside.symm.trans same

/-- By cases on the point. -/
theorem Stage.step {request : Request} {next : Except DbError request.Reply → Login LoginAnswer}
    (stage : Stage connection (.step request next)) (reply : Except DbError request.Reply)
    : StageStep connection request next reply := by
  generalize stands : (Program.step request next : Login LoginAnswer) = program at stage
  cases stage with
  | @begins body rest looks =>
      rw [begins_eq] at stands
      cases stands
      cases reply with
      | ok given =>
          refine stageStep_runs (Or.inl rfl) rest rfl (fun _ _ _ => ⟨Or.inl rfl, given, rfl⟩) ?_
          intro userId ended
          exact absurd ended (looks userId)
      | error fault =>
          exact stageStep_fails (Or.inl rfl) (Or.inr rfl) (fun same => by cases same)
  | @runs body rest =>
      cases body with
      | done result =>
          cases result with
          | ok userId =>
              rw [opened_ok] at stands
              cases stands
              have own : OfSignIn connection (.commit connection) := Or.inr (Or.inr (Or.inl rfl))
              cases reply with
              | ok given =>
                  refine ⟨.ended _, own, ?_, ?_, ?_, ?_⟩
                  · intro statement pending
                    cases pending
                  · intro found awaits
                    exact absurd awaits not_awaits_done
                  · intro answer ended
                    cases ended
                    exact ⟨userId, rfl, ⟨_, rfl, rfl⟩, given, rfl⟩
                  · intro _ _ _
                    exact ⟨userId, rfl⟩
              | error fault =>
                  exact stageStep_fails own (Or.inl rfl) (fun _ given same => by cases same)
          | error error =>
              rw [opened_error] at stands
              cases stands
              exact stageStep_fails (Or.inr (Or.inr (Or.inr rfl))) (Or.inr rfl)
                (fun same => by cases same)
      | step op more =>
          cases stands
          refine stageStep_runs (Or.inr rest.sends.1) (rest.next reply) rfl ?_
            (rest.checked reply).1
          intro statement pending early
          obtain ⟨looks, answered⟩ := (rest.early reply).1 statement pending early
          exact ⟨Or.inr looks, answered⟩
  | undoes error =>
      cases stands
      exact stageStep_fails (Or.inr (Or.inr (Or.inr rfl))) (Or.inr rfl) (fun same => by cases same)
  | ended result => cases stands

/-- Where each sign-in starts. -/
theorem BindingCall.stage {config : AuthConfig} {call : BindingCall} (signsIn : call.SignsIn)
    : Stage connection (call.program config connection) := by
  cases call with
  | oidc freshId identity =>
      rw [BindingCall.program, Oidc.resolveUser]
      split
      · exact .ended _
      · exact .begins oidc_body (fun userId same => by cases same)
  | opsapi ops freshId person => exact .begins opsapi_body (fun userId same => by cases same)
  | create freshId request => exact False.elim signsIn
  | update id request => exact False.elim signsIn
  | delete id => exact False.elim signsIn

/-- What each provisioning call sends. -/
theorem BindingCall.provisions {config : AuthConfig} {call : BindingCall}
    (provisions : ¬ call.SignsIn)
    : Sends Provisions (call.program config connection) := by
  cases call with
  | oidc freshId identity => exact absurd trivial provisions
  | opsapi ops freshId person => exact absurd trivial provisions
  | create freshId request =>
      refine Sends.bind ?_ (fun _ => sends_return _)
      refine ⟨.create freshId request, ?_⟩
      intro reply _
      match reply with
      | .ok (some _) => exact sends_return _
      | .ok none => exact sends_throw _
      | .error _ => trivial
  | update id request =>
      refine Sends.bind ?_ (fun _ => sends_return _)
      refine sends_then (.update id request) (fun row => ?_)
      change Sends _ (if _ then _ else _)
      split
      · exact sends_then (.revoke id) (fun _ => sends_return _)
      · exact sends_return _
  | delete id =>
      refine Sends.bind ?_ (fun _ => sends_return _)
      refine sends_then (.revoke id) (fun _ => ?_)
      exact sends_then (.delete id) (fun _ => sends_return _)

/-- No call starts inside of a transaction. -/
theorem BindingCall.starts {config : AuthConfig} {call : BindingCall} {statement : Statement}
    : (call.program config connection).pending? ≠ some (.within connection statement) := by
  cases call with
  | oidc freshId identity =>
      rw [BindingCall.program, Oidc.resolveUser]
      split
      · intro same
        cases same
      · rw [begins_eq]
        intro same
        cases same
  | opsapi ops freshId person =>
      intro same
      cases same
  | create freshId request =>
      intro same
      cases same
  | update id request =>
      intro same
      cases same
  | delete id =>
      intro same
      cases same

/-- No call starts with its commit. -/
theorem BindingCall.not_awaits {config : AuthConfig} {call : BindingCall} {userId : Uuid}
    : ¬ Awaits connection userId (call.program config connection) := by
  intro awaits
  obtain ⟨next, same, _⟩ := awaits
  cases call with
  | oidc freshId identity =>
      rw [BindingCall.program, Oidc.resolveUser] at same
      split at same
      · cases same
      · rw [begins_eq] at same
        cases same
  | opsapi ops freshId person => cases same
  | create freshId request => cases same
  | update id request => cases same
  | delete id => cases same

end Stages

end WslVpn.Auth
