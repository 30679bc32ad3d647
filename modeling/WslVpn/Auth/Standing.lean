import WslVpn.Auth.Steady

/-! What every run of sign-ins and provisioning calls keeps: whom a sign-in can return by what it was
told, where each call stands, and who is still active when a sign-in commits.
-/

namespace WslVpn.Auth

open Interleaving Transactions.Locking
open Interleaving.System (Given)

-----------------------------------------------------------------------------------------
-- What a sign-in was told
-----------------------------------------------------------------------------------------

/-- The statement of the sign-in's transaction was answered so. -/
abbrev Told (log : List (Entry authSql)) (connection : Nat) (statement : Statement)
    (reply : statement.Reply) : Prop :=
  Given log connection (.within connection statement) (.ok reply)

/-- The sign-in has made the user, under the id that it drew. -/
def ToldOfNew (log : List (Entry authSql)) (connection : Nat) (freshId userId : Uuid) : Prop :=
  ∃ row : UserRow, row.id = freshId ∧ Told log connection (.insertUser row) userId

/-- The user, by what the sign-in was told. -/
def BindingCall.ToldOf (log : List (Entry authSql)) (connection : Nat) (userId : Uuid)
    : BindingCall → Prop
  | .oidc freshId identity =>
      Told log connection (.selectBound identity.issuer identity.subject) (some userId)
        ∨ ((∃ active, Told log connection (.selectUserByEmail identity.email) (some (userId, active)))
          ∧ Told log connection (.selectSubject identity.issuer userId) none)
        ∨ ToldOfNew log connection freshId userId
  | .opsapi ops freshId person =>
      Told log connection (.selectBound (OpsApi.issuer ops) person.uuid) (some userId)
        ∨ Told log connection (.selectUserByExternalId person.uuid) (some userId)
        ∨ ToldOfNew log connection freshId userId
  | .create .. | .update .. | .delete .. => True

/-- The program returns only such users, by what it is told. -/
def Returns (log : List (Entry authSql)) (connection : Nat) (good : Uuid → Prop)
    (program : Login Uuid)
    : Prop :=
  program.Along (Given log connection) (fun _ => True) (fun result => ∀ userId, result = .ok userId → good userId)

section Returns

variable {log : List (Entry authSql)} {connection : Nat} {good : Uuid → Prop} {config : AuthConfig}
  {freshId : Uuid}

theorem returns_throw (error : AppError) : Returns log connection good (throw error) := by
  intro userId same
  cases same

theorem returns_return {userId : Uuid} (fine : good userId)
    : Returns log connection good (return userId) := by
  intro found same
  cases same
  exact fine

theorem returns_stmt {statement : Statement} {rest : statement.Reply → Login Uuid}
    (told : ∀ reply, Told log connection statement reply → Returns log connection good (rest reply))
    : Returns log connection good (stmt connection statement >>= rest) := by
  refine Program.Along.request trivial told ?_
  intro fault _ userId same
  cases same

theorem returns_insertUser {row : UserRow}
    (told : ∀ userId, Told log connection (.insertUser row) userId → good userId)
    : Returns log connection good (stmt connection (.insertUser row)) := by
  refine ⟨trivial, ?_⟩
  intro reply given
  cases reply with
  | ok created =>
      intro userId same
      cases same
      exact told created given
  | error fault =>
      intro userId same
      cases same

theorem returns_bind {before : Uuid → Prop} {find : Login Uuid} {rest : Uuid → Login Uuid}
    (first : Returns log connection before find)
    (second : ∀ userId, before userId → Returns log connection good (rest userId))
    : Returns log connection good (find >>= rest) := by
  refine @Program.Along.bind _ _ _ _ _ _ _ _ before _ _ _
    (first.weaken (fun _ fine => fine) ?_) second
  intro result found
  cases result with
  | ok userId => exact found userId rfl
  | error error =>
      intro userId same
      cases same

theorem returns_checkActive {userId : Uuid} (fine : good userId)
    : Returns log connection good (checkActive connection userId) := by
  refine returns_stmt ?_
  intro active _
  match active with
  | none => exact returns_throw _
  | some false => exact returns_throw _
  | some true => exact returns_return fine

theorem oidc_returns {identity : VerifiedIdentity}
    : Returns log connection (fun userId => (BindingCall.oidc freshId identity).ToldOf log connection userId)
        (Oidc.findUser config connection freshId identity) := by
  refine returns_stmt ?_
  intro bound told
  match bound, told with
  | some userId, told =>
      refine returns_stmt (fun _ _ => ?_)
      exact returns_stmt (fun _ _ => returns_return (Or.inl told))
  | none, _ =>
      refine returns_stmt ?_
      intro existing toldUser
      match existing, toldUser with
      | some (userId, active), toldUser =>
          refine returns_stmt ?_
          intro already toldSubject
          match already, toldSubject with
          | some _, _ => exact returns_throw _
          | none, toldSubject =>
              refine returns_stmt (fun _ _ => returns_return (Or.inr (Or.inl ⟨⟨active, toldUser⟩, ?_⟩)))
              exact toldSubject
      | none, _ =>
          change Returns _ _ _ (if _ then _ else _)
          split
          · exact returns_throw _
          · refine returns_stmt ?_
            intro userId created
            exact returns_stmt (fun _ _ => returns_return (Or.inr (Or.inr ⟨_, rfl, created⟩)))

theorem opsapi_returns {ops : OpsApiConfig} {person : OpsApiPerson}
    : Returns log connection
        (fun userId => (BindingCall.opsapi ops freshId person).ToldOf log connection userId)
        (OpsApi.findUser config ops connection freshId person) := by
  refine returns_stmt ?_
  intro bound told
  match bound, told with
  | some userId, told => exact returns_stmt (fun _ _ => returns_return (Or.inl told))
  | none, _ =>
      refine @returns_bind _ _ _ (fun userId =>
        Told log connection (.selectUserByExternalId person.uuid) (some userId)
          ∨ ToldOfNew log connection freshId userId) _ _ ?_ ?_
      · refine returns_stmt ?_
        intro provisioned toldUser
        match provisioned, toldUser with
        | some userId, toldUser => exact returns_return (Or.inl toldUser)
        | none, _ =>
            refine returns_stmt ?_
            intro taken _
            change Returns _ _ _ (if _ then _ else _)
            split
            · exact returns_throw _
            · split
              · exact returns_throw _
              · exact returns_insertUser (fun userId created => Or.inr ⟨_, rfl, created⟩)
      · intro userId found
        exact returns_stmt (fun _ _ => returns_return (Or.inr found))

/-- What a transaction is about, it returns, by induction on its body. -/
theorem opened_returns {body : Login Uuid} (returns : Returns log connection good body)
    : (opened connection body).Along (Given log connection) (fun _ => True)
        (fun result => ∀ userId, result = .ok (.signedIn userId) → good userId) := by
  induction body with
  | done result =>
      cases result with
      | ok found =>
          rw [opened_ok]
          refine ⟨trivial, ?_⟩
          intro reply _
          cases reply with
          | ok given =>
              intro userId same
              cases same
              exact returns found rfl
          | error fault =>
              refine ⟨trivial, ?_⟩
              intro _ _ userId same
              cases same
      | error error =>
          rw [opened_error]
          refine ⟨trivial, ?_⟩
          intro _ _ userId same
          cases same
  | step request next ih =>
      rw [opened_step]
      exact ⟨trivial, fun reply given => ih reply (returns.2 reply given)⟩

theorem transaction_returns {body : Login Uuid} (returns : Returns log connection good body)
    : (inTransaction connection body >>= fun userId => pure (.signedIn userId)
          : Login LoginAnswer).Along (Given log connection) (fun _ => True)
        (fun result => ∀ userId, result = .ok (.signedIn userId) → good userId) := by
  rw [begins_eq]
  refine ⟨trivial, ?_⟩
  intro reply _
  cases reply with
  | ok given => exact opened_returns returns
  | error fault =>
      intro userId same
      cases same

/-- A call returns only users whom it was told of. -/
theorem BindingCall.returns (made : BindingCall)
    : (made.program config connection).Along (Given log connection) (fun _ => True)
        (fun result => ∀ userId, result = .ok (.signedIn userId) → made.ToldOf log connection userId) := by
  cases made with
  | oidc freshId identity =>
      rw [BindingCall.program, Oidc.resolveUser]
      split
      · intro userId same
        cases same
      · exact transaction_returns
          (returns_bind oidc_returns (fun _ told => returns_checkActive told))
  | opsapi ops freshId person =>
      exact transaction_returns
        (returns_bind opsapi_returns (fun _ told => returns_checkActive told))
  | create freshId request =>
      exact (Program.along_yields _).weaken (fun _ _ => trivial) (fun _ _ _ _ => trivial)
  | update id request =>
      exact (Program.along_yields _).weaken (fun _ _ => trivial) (fun _ _ _ _ => trivial)
  | delete id =>
      exact (Program.along_yields _).weaken (fun _ _ => trivial) (fun _ _ _ _ => trivial)

end Returns

-----------------------------------------------------------------------------------------
-- What every run keeps
-----------------------------------------------------------------------------------------

section Reached

variable {config : AuthConfig} {calls : List BindingCall} {system after : LoginSystem}
  {event : Event Nat}

/-- Each call stands at one of its points, the accounts are steady, and a sign-in that is still looking
for its user has written nothing.
-/
structure Reached (calls : List BindingCall) (system : LoginSystem) : Prop where
  stands
    : ∀ (call : Nat) program, system.calls[call]? = some program
        → ∃ made, calls[call]? = some made
            ∧ (made.SignsIn → Stage call program) ∧ (¬ made.SignsIn → Sends Provisions program)
  steady : Steady system.state.accounts
  early
    : ∀ (call : Nat) program statement, system.calls[call]? = some program
        → program.pending? = some (.within call statement) → Early statement
          → system.state.accounts.written call = some []

/-- A request that is issued is one of a sign-in at its point, or of a provisioning call. -/
theorem Reached.issues (reached : Reached calls system) {call : Nat} {request : Request}
    {next : Except DbError request.Reply → Login LoginAnswer}
    (issued : system.calls[call]? = some (.step request next))
    (reply : Except DbError request.Reply)
    : StageStep call request next reply ∨ Provisions request ∧ Sends Provisions (next reply) := by
  obtain ⟨made, _, signsIn, provisions⟩ := reached.stands call _ issued
  by_cases kind : made.SignsIn
  · exact Or.inl ((signsIn kind).step reply)
  · exact Or.inr ⟨(provisions kind).1, (provisions kind).2 reply trivial⟩

/-- A request of a sign-in is one at its point. -/
theorem Reached.signInStep (reached : Reached calls system) {call : Nat} {made : BindingCall}
    (listed : calls[call]? = some made) (signsIn : made.SignsIn) {request : Request}
    {next : Except DbError request.Reply → Login LoginAnswer}
    (issued : system.calls[call]? = some (.step request next))
    (reply : Except DbError request.Reply)
    : StageStep call request next reply := by
  obtain ⟨known, same, stage, _⟩ := reached.stands call _ issued
  cases same.symm.trans listed
  exact (stage signsIn).step reply

/-- What a call's next request is. -/
theorem Reached.sends (reached : Reached calls system) {call : Nat} {request : Request}
    {next : Except DbError request.Reply → Login LoginAnswer}
    (issued : system.calls[call]? = some (.step request next))
    : OfSignIn call request ∨ Provisions request := by
  rcases reached.issues issued (.error .connection) with step | ⟨provisions, _⟩
  · exact Or.inl step.own
  · exact Or.inr provisions

theorem Reached.elsewhere (reached : Reached calls system) {call other : Nat} {request : Request}
    {next : Except DbError request.Reply → Login LoginAnswer}
    (issued : system.calls[other]? = some (.step request next)) (apart : other ≠ call)
    : Elsewhere call request := by
  rcases reached.sends issued with own | provisions
  · exact Or.inl ⟨other, apart, own⟩
  · exact Or.inr provisions

theorem Reached.binds (reached : Reached calls system) {call : Nat} {request : Request}
    {next : Except DbError request.Reply → Login LoginAnswer}
    (issued : system.calls[call]? = some (.step request next))
    : Binds request := by
  rcases reached.sends issued with own | provisions
  · exact Or.inl ⟨call, own⟩
  · exact Or.inr provisions

/-- A sign-in comes to an early statement by an answer, and has written nothing by then. -/
theorem Reached.arrives (reached : Reached calls system) {call : Nat} {request : Request}
    {next : Except DbError request.Reply → Login LoginAnswer} {reply : Except DbError request.Reply}
    (issued : system.calls[call]? = some (.step request next)) {statement : Statement}
    (pending : (next reply).pending? = some (.within call statement)) (early : Early statement)
    : ∃ answer, reply = .ok answer
        ∧ ∀ state, request.exec system.state = .ok (answer, state)
            → state.accounts.written call = some [] := by
  rcases reached.issues issued reply with step | ⟨_, rest⟩
  · obtain ⟨from_, answer, answered⟩ := step.early statement pending early
    refine ⟨answer, answered, ?_⟩
    intro state ran
    rcases from_ with rfl | ⟨before, rfl, looks⟩
    · obtain ⟨closed, rfl⟩ := begin_cases ran
      exact written_opened closed
    · have nothing := reached.early call _ before issued rfl (Or.inl looks)
      obtain ⟨held, writes, opened, planned, _, _, rfl⟩ := within_cases ran
      cases nothing.symm.trans opened
      rw [plan_look looks planned]
      exact written_append nothing
  · cases stands : next reply with
    | done result =>
        rw [stands] at pending
        cases pending
    | step request' next' =>
        rw [stands] at pending rest
        cases pending
        cases rest.1

/-- By cases on the move. -/
theorem Reached.step (reached : Reached calls system) (moves : system.Moves elapses event after)
    : Reached calls after := by
  have stands : ∀ (call : Nat) program, after.calls[call]? = some program
      → ∃ made, calls[call]? = some made
          ∧ (made.SignsIn → Stage call program) ∧ (¬ made.SignsIn → Sends Provisions program) := by
    intro call moved now
    obtain ⟨program, found, goes⟩ := moves.goesOn now
    obtain ⟨made, listed, signsIn, provisions⟩ := reached.stands call program found
    refine ⟨made, listed, ?_, ?_⟩
    · intro kind
      rcases goes with rfl | ⟨request, next, reply, rfl, rfl⟩
      · exact signsIn kind
      · exact ((signsIn kind).step reply).stage
    · intro kind
      rcases goes with rfl | ⟨request, next, reply, rfl, rfl⟩
      · exact provisions kind
      · exact (provisions kind).2 reply trivial
  cases moves with
  | @replied mover request next reply state issued answer =>
      refine ⟨stands, reached.steady.step (reached.binds issued) answer, ?_⟩
      intro call program statement now pending early
      rcases System.getElem?_set_cases now with ⟨rfl, rfl⟩ | ⟨different, there⟩
      · obtain ⟨given, same, nothing⟩ := reached.arrives issued pending early
        cases same
        exact nothing state answer
      · have kept := ((reached.elsewhere issued (Ne.symm different)).cases answer).1
        exact kept.trans (reached.early call program statement there pending early)
  | @refused mover request next fault issued answer =>
      refine ⟨stands, reached.steady, ?_⟩
      intro call program statement now pending early
      rcases System.getElem?_set_cases now with ⟨rfl, rfl⟩ | ⟨different, there⟩
      · obtain ⟨given, same, _⟩ := reached.arrives issued pending early
        cases same
      · exact reached.early call program statement there pending early
  | @lost mover request next issued =>
      refine ⟨stands, reached.steady, ?_⟩
      intro call program statement now pending early
      rcases System.getElem?_set_cases now with ⟨rfl, rfl⟩ | ⟨different, there⟩
      · obtain ⟨given, same, _⟩ := reached.arrives issued pending early
        cases same
      · exact reached.early call program statement there pending early
  | env change => exact ⟨stands, reached.steady, reached.early⟩
  | idle named ended => exact reached

theorem Reached.start {db : AuthDb} {tables : Accounts} (start : db.accounts = .start tables)
    (good : tables.Good)
    : Reached calls (LoginSystem.binding config calls db) := by
  refine ⟨?_, ?_, ?_⟩
  · intro call program found
    obtain ⟨made, listed, rfl⟩ := LoginSystem.binding_made found
    exact ⟨made, listed, BindingCall.stage, BindingCall.provisions⟩
  · change Steady db.accounts
    rw [start]
    exact .start good
  · intro call program statement found pending
    obtain ⟨made, _, rfl⟩ := LoginSystem.binding_made found
    exact absurd pending BindingCall.starts

/-- Every run keeps it, by induction. -/
theorem Reached.run (reached : Reached calls system) (events : List (Event Nat))
    : Reached calls (system.run elapses events) := by
  have always : system.Meets elapses (fun _ _ => True) events := by
    clear reached
    induction events generalizing system with
    | nil => trivial
    | cons event rest ih => exact ⟨trivial, ih⟩
  exact System.run_induction elapses (fun _ _ _ reached _ moves => reached.step moves) reached
    always

end Reached

-----------------------------------------------------------------------------------------
-- Who is active when a sign-in commits
-----------------------------------------------------------------------------------------

/-- When the event withdraws a user's access, no sign-in stands between its check of that user and its
`COMMIT`.
-/
def Undisturbed (system : LoginSystem) : Event Nat → Prop
  | .run call =>
      ∀ request next reply after userId, system.calls[call]? = some (.step request next)
        → request.exec system.state = .ok (reply, after) → Withdraws request userId
          → system.state.accounts.committed.hasUser userId = true
            → ∀ (other : Nat) program, system.calls[other]? = some program
                → ¬ Awaits other userId program
  | .lose _ | .env _ => True

section Checked

variable {calls : List BindingCall} {system after : LoginSystem} {event : Event Nat}

/-- Whoever a sign-in is about to return is active in what it sees. -/
structure Checked (calls : List BindingCall) (system : LoginSystem) : Prop where
  reached : Reached calls system
  active
    : ∀ (call : Nat) program userId, system.calls[call]? = some program → Awaits call userId program
        → Active (system.state.accounts.view rules call) userId

theorem Active.known {tables : Accounts} {id : Uuid} (active : Active tables id)
    : tables.hasUser id = true := by
  obtain ⟨row, there, named, _⟩ := active
  exact Accounts.hasUser_iff.mpr ⟨row, there, named⟩

/-- A sign-in comes to its commit only by its check of the user. -/
theorem Reached.awaits (reached : Reached calls system) {call : Nat} {request : Request}
    {next : Except DbError request.Reply → Login LoginAnswer} {reply : Except DbError request.Reply}
    (issued : system.calls[call]? = some (.step request next)) {userId : Uuid}
    (awaits : Awaits call userId (next reply))
    : (⟨call, request, reply⟩ : Entry authSql)
        = ⟨call, .within call (.selectActive userId), .ok (some true)⟩ := by
  rcases reached.issues issued reply with step | ⟨_, rest⟩
  · exact step.awaits userId awaits
  · obtain ⟨more, commits, _⟩ := awaits
    rw [commits] at rest
    cases rest.1

/-- The check sees an active user, and writes nothing. -/
theorem active_of_check {db now : AuthDb} {connection : Nat} {userId : Uuid}
    (ran : db.within connection (.selectActive userId) = .ok (some true, now))
    : Active (now.accounts.view rules connection) userId := by
  obtain ⟨held, writes, opened, planned, _, _, rfl⟩ := within_cases ran
  have seen : Active (db.accounts.view rules connection) userId ∧ writes = [] := by
    rw [Statement.plan] at planned
    cases found : (db.accounts.view rules connection).findUser userId with
    | none =>
        rw [found] at planned
        cases planned
    | some row =>
        rw [found, Option.map_some] at planned
        obtain ⟨answer, nothing⟩ := Prod.mk.inj (Except.ok.inj planned)
        have named : row.id = userId := by simpa using List.find?_some found
        exact ⟨⟨row, List.mem_of_find?_eq_some found, named, Option.some.inj answer⟩, nothing.symm⟩
  obtain ⟨active, rfl⟩ := seen
  change Active ((db.accounts.append connection []).view rules connection) userId
  rw [Shared.view, written_append opened, List.append_nil]
  rw [Shared.view, opened] at active
  exact active

/-- By cases on the move. -/
theorem Checked.step (checked : Checked calls system) (undisturbed : Undisturbed system event)
    (moves : system.Moves elapses event after)
    : Checked calls after := by
  refine ⟨checked.reached.step moves, ?_⟩
  intro call program userId now awaits
  cases moves with
  | @replied mover request next reply state issued answer =>
      rcases System.getElem?_set_cases now with ⟨rfl, rfl⟩ | ⟨different, there⟩
      · cases checked.reached.awaits issued awaits
        exact active_of_check answer
      · have elsewhere := checked.reached.elsewhere issued (Ne.symm different)
        refine checked.reached.steady.view_active_elsewhere elsewhere ?_ answer
          (checked.active call program userId there awaits)
        intro active withdraws
        exact undisturbed request next reply state userId issued answer withdraws active.known call
          program there awaits
  | @refused mover request next fault issued answer =>
      rcases System.getElem?_set_cases now with ⟨rfl, rfl⟩ | ⟨different, there⟩
      · cases checked.reached.awaits issued awaits
      · exact checked.active call program userId there awaits
  | @lost mover request next issued =>
      rcases System.getElem?_set_cases now with ⟨rfl, rfl⟩ | ⟨different, there⟩
      · cases checked.reached.awaits issued awaits
      · exact checked.active call program userId there awaits
  | env change => exact checked.active call program userId now awaits
  | idle named ended => exact checked.active call program userId now awaits

theorem Checked.start {config : AuthConfig} {db : AuthDb} {tables : Accounts}
    (start : db.accounts = .start tables) (good : tables.Good)
    : Checked calls (LoginSystem.binding config calls db) := by
  refine ⟨.start start good, ?_⟩
  intro call program userId found awaits
  obtain ⟨made, _, rfl⟩ := LoginSystem.binding_made found
  exact absurd awaits BindingCall.not_awaits

end Checked

end WslVpn.Auth
