import WslVpn.Control.Routes
import WslVpn.Control.Traffic
import WslVpn.Interleaving.Contracts
import WslVpn.Records.Unique

/-! Requests that could leave nobody to administer the users. Each one is checked against its own
caller only, as that caller was when the request began.
-/

namespace WslVpn

open Interleaving

/-- A request to one of the two endpoints, with its `Authorization` header. -/
inductive AdminRequest where
  | update (authorization : Option String) (id : Uuid) (body : UpdateUserRequest)
  | delete (authorization : Option String) (id : Uuid)

namespace AdminRequest

def authorization : AdminRequest → Option String
  | update authorization _ _ | delete authorization _ => authorization

/-- The extractor runs before the handler. -/
def call (state : AppState) : AdminRequest → Call Unit
  | update authorization id body => do
      let admin ← requireAdmin state authorization
      let _ ← UsersRoute.update admin id body
      return ()
  | delete authorization id => do
      let admin ← requireAdmin state authorization
      let _ ← UsersRoute.delete admin id
      return ()

def token (request : AdminRequest) : Option String :=
  request.authorization.bind (afterStart "Bearer ")

/-- By its token, the request comes from an active administrator as the database is now. -/
def Stands (state : AppState) (request : AdminRequest) (db : Db) : Prop :=
  ∃ token userId email expiresAt, request.token = some token
    ∧ db.bearer (state.hashToken token) = some (userId, email, .admin, expiresAt)

theorem stands_iff {state : AppState} {request : AdminRequest} {db : Db}
    : request.Stands state db
      ↔ ((request.token.bind (fun token => db.bearer (state.hashToken token))).any
          (fun found => found.2.2.1 == .admin)) = true := by
  rw [Option.any_eq_true]
  simp only [Option.bind_eq_some_iff, beq_iff_eq]
  constructor
  · intro stands
    obtain ⟨token, userId, email, expiresAt, presented, found⟩ := stands
    exact ⟨_, ⟨token, presented, found⟩, rfl⟩
  · intro stands
    obtain ⟨⟨userId, email, role, expiresAt⟩, ⟨token, presented, found⟩, admin⟩ := stands
    subst admin
    exact ⟨token, userId, email, expiresAt, presented, found⟩

instance (state : AppState) (request : AdminRequest) (db : Db)
    : Decidable (request.Stands state db) :=
  decidable_of_iff _ stands_iff.symm

/-- The token of the request is one of the user's. -/
def ActsAs (state : AppState) (tokens : List AccessTokenRow) (request : AdminRequest)
    (userId : Uuid) : Prop :=
  ∃ token, request.token = some token
    ∧ ∃ row ∈ tokens, row.tokenHash = state.hashToken token ∧ row.userId = userId

/-- All requests have arrived and none has begun. -/
def start (state : AppState) (requests : List AdminRequest) (db : Db)
    : System sql AppError Unit where
  state := db
  calls := requests.map (call state)

end AdminRequest

namespace UserRow

def Administers (row : UserRow) : Prop := row.active = true ∧ row.role = .admin

end UserRow

instance (row : UserRow) : Decidable row.Administers :=
  inferInstanceAs (Decidable (row.active = true ∧ row.role = .admin))

/-- At least one active user is an administrator. -/
def Db.Administered (db : Db) : Prop := ∃ row ∈ db.users, row.Administers

instance (db : Db) : Decidable db.Administered :=
  inferInstanceAs (Decidable (∃ row ∈ db.users, row.Administers))

namespace Statement

/-- The statement takes the role, the activity or the row of the user. The audit log may refuse to
let a row go.
-/
def strips (db : Db) (row : UserRow) : Statement → Bool
  | updateUser id body =>
      row.id == id && (body.role == some .member || body.active == some false)
  | deleteUser id => row.id == id && !db.auditEvents.any (db.auditRefersTo id)
  | _ => false

/-- The users after a statement. -/
def usersAfter : Statement → Db → List UserRow
  | updateUser id body, db => (db.updateUser id body).2.users
  | deleteUser id, db => deleteWhere (·.id == id) db.users
  | _, db => db.users

theorem users_exec {statement : Statement} {db after : Db} {reply : statement.Reply}
    (ran : statement.exec db = .ok (reply, after))
    : after.users = statement.usersAfter db
      ∧ ∀ token ∈ after.accessTokens, token ∈ db.accessTokens := by
  have frame := exec_frame ran
  cases statement with
  | updateUser =>
      cases ran
      exact ⟨rfl, fun _ there => there⟩
  | deleteUser id =>
      simp only [exec, Db.deleteUser] at ran
      split at ran
      · next absent =>
          cases ran
          refine ⟨?_, fun _ there => there⟩
          have others : ∀ row ∈ db.users, ¬ (row.id == id) = true := by
            simpa [Db.hasUser] using absent
          exact (List.filter_eq_self.mpr (by simpa [deleteWhere] using others)).symm
      · split at ran
        · cases ran
        · cases ran
          exact ⟨rfl, fun _ there => (mem_deleteWhere.mp there).1⟩
  | _ => exact ⟨frame.users rfl, fun _ there => frame.accessTokens rfl ▸ there⟩

end Statement

-----------------------------------------------------------------------------------------
-- What one statement does to the administrators
-----------------------------------------------------------------------------------------

section Statement

variable {db after : Db} {row : UserRow}

/-- Whom a token is found to belong to. -/
theorem bearer_some {tokenHash email : String} {userId : Uuid} {role : UserRole}
    {expiresAt : Timestamp} (found : db.bearer tokenHash = some (userId, email, role, expiresAt))
    : (∃ token ∈ db.accessTokens, token.tokenHash = tokenHash ∧ token.userId = userId)
      ∧ ∃ user ∈ db.users, user.id = userId ∧ user.active = true ∧ user.role = role := by
  simp only [Db.bearer, Option.bind_eq_bind, Option.bind_eq_some_iff] at found
  obtain ⟨token, tokenFound, user, userFound, same⟩ := found
  cases same
  have hash := List.find?_some tokenFound
  have owner := List.find?_some userFound
  simp only [Bool.and_eq_true, beq_iff_eq] at hash owner
  exact ⟨⟨token, List.mem_of_find?_eq_some tokenFound, hash, owner.1.symm⟩,
    user, List.mem_of_find?_eq_some userFound, rfl, owner.2, rfl⟩

/-- What an update leaves of the standing of its target. -/
theorem administers_update {body : UpdateUserRequest}
    (kept : ¬(body.role = some .member ∨ body.active = some false)) (administers : row.Administers)
    : UserRow.Administers {
        row with
        displayName := body.displayName.or row.displayName
        active := body.active.getD row.active
        role := body.role.getD row.role } := by
  obtain ⟨active, admin⟩ := administers
  push Not at kept
  refine ⟨?_, ?_⟩
  · cases asked : body.active with
    | none => exact active
    | some now =>
        cases now with
        | true => rfl
        | false => exact absurd asked kept.2
  · cases asked : body.role with
    | none => exact admin
    | some now =>
        cases now with
        | admin => rfl
        | member => exact absurd asked kept.1

/-- An administrator whom the statement does not strip is one after it. -/
theorem administered_of_spared {statement : Statement} {reply : statement.Reply}
    (ran : statement.exec db = .ok (reply, after)) (there : row ∈ db.users)
    (administers : row.Administers) (spared : statement.strips db row = false)
    : after.Administered := by
  have users := (Statement.users_exec ran).1
  cases statement with
  | updateUser id body =>
      by_cases target : row.id = id
      · have kept : ¬ (body.role = some .member ∨ body.active = some false) := by
          simpa [Statement.strips, target] using spared
        refine ⟨_, ?_, @administers_update row body kept administers⟩
        rw [users]
        exact mem_updateWhere.mpr ⟨row, there, by simp [target]⟩
      · refine ⟨row, ?_, administers⟩
        rw [users]
        exact mem_updateWhere.mpr ⟨row, there, by simp [target]⟩
  | deleteUser id =>
      have other : row.id ≠ id := by
        intro target
        have known : db.hasUser id = true :=
          List.any_eq_true.mpr ⟨row, there, by simp [target]⟩
        have refused : db.auditEvents.any (db.auditRefersTo id) = true := by
          simpa [Statement.strips, target] using spared
        simp only [Statement.exec, Db.deleteUser, known, refused, Bool.not_true,
          Bool.false_eq_true, if_false, if_true] at ran
        cases ran
      refine ⟨row, ?_, administers⟩
      rw [users]
      exact mem_deleteWhere.mpr ⟨there, by simp [other]⟩
  | _ => exact ⟨row, users ▸ there, administers⟩

end Statement

-----------------------------------------------------------------------------------------
-- What one request may send
-----------------------------------------------------------------------------------------

/-- A write to the users has passed the check against the caller of its request. -/
def AdminRequest.Checked (state : AppState) (tokens : List AccessTokenRow) (request : AdminRequest)
    : Statement → Prop
  | .updateUser id body =>
      ∃ admin : AuthUser, request.ActsAs state tokens admin.userId
        ∧ UsersRoute.locksOut admin id body = false
  | .deleteUser id => ∃ userId, request.ActsAs state tokens userId ∧ id ≠ userId
  | _ => True

/-- No token is added, and each call sends writes that have passed their check. -/
def checkedWrites (state : AppState) (requests : List AdminRequest) (tokens : List AccessTokenRow)
    : Contract sql where
  possible db := ∀ token ∈ db.accessTokens, token ∈ tokens
  later _ _ _ := True
  may _ _ := True
  mayLose _ _ := True
  asserts call statement _ :=
    ∃ request, requests[call]? = some request ∧ request.Checked state tokens statement
  later_refl _ _ := trivial
  later_trans _ _ := trivial
  exec_sound := by
    intro call statement db reply after possible _ _ ran
    refine ⟨fun token there => possible token ?_, fun _ _ => trivial⟩
    exact (Statement.users_exec ran).2 token there

namespace AdminRequest

variable {state : AppState} {requests : List AdminRequest} {tokens : List AccessTokenRow}
  {request : AdminRequest} {call : Nat} {db : Db}

/-- What ends sessions, or is recorded, writes to no user. -/
theorem checked_of_other (statement : Statement)
    (other : revocationWrites statement ∨ statement.quiet = true) (request : AdminRequest)
    : request.Checked state tokens statement := by
  cases statement with
  | updateUser | deleteUser => simp [revocationWrites, Statement.quiet] at other
  | _ => trivial

theorem revokes_along (id : Uuid)
    : (SessionService.revokeUserSessions id).Along (fun _ _ => True)
        (fun statement => ∀ request : AdminRequest, request.Checked state tokens statement)
        (fun _ => True) :=
  revokeUserSessions_along id (fun statement own => checked_of_other statement (Or.inl own))

theorem records_along (entry : AuditEntry)
    : (AuditService.record entry).Along (fun _ _ => True)
        (fun statement => ∀ request : AdminRequest, request.Checked state tokens statement)
        (fun _ => True) :=
  record_along entry (fun statement quiet => checked_of_other statement (Or.inr quiet))

theorem keeps_of_along (made : requests[call]? = some request) {Value : Type} {program : Call Value}
    (along
      : program.Along (fun _ _ => True)
          (fun statement => ∀ request : AdminRequest, request.Checked state tokens statement)
          (fun _ => True))
    : program.Keeps (checkedWrites state requests tokens) call (fun _ _ => True) db := by
  refine along.keeps (fun _ _ _ _ => trivial) ?_ trivial
  intro statement now checked _ _ _
  exact ⟨⟨request, made, checked request⟩, fun _ _ _ => trivial⟩

/-- Whom the token is found to belong to is its user. -/
theorem requireUser_keeps (made : requests[call]? = some request)
    : (requireUser state request.authorization).Keeps (checkedWrites state requests tokens) call
        (fun user _ => request.ActsAs state tokens user.userId) db := by
  unfold requireUser
  split
  · next header given =>
      split
      · next token read =>
          have presented : request.token = some token := by
            rw [AdminRequest.token, given]
            exact read
          refine Program.Keeps.request ?_
          intro now _ possible _
          refine ⟨⟨request, made, trivial⟩, ?_⟩
          intro row after ran _
          cases ran
          split
          · next userId email role expiresAt found =>
              obtain ⟨⟨row, there, hash, owner⟩, _⟩ := bearer_some found
              refine Program.Keeps.request ?_
              intro _ _ _ _
              refine ⟨⟨request, made, trivial⟩, ?_⟩
              intro time _ _ _
              split
              · trivial
              · exact fun _ _ _ => ⟨token, presented, row, possible row there, hash, owner⟩
          · trivial
      · trivial
  · trivial

theorem requireAdmin_keeps (made : requests[call]? = some request)
    (possible : (checkedWrites state requests tokens).possible db)
    : (requireAdmin state request.authorization).Keeps (checkedWrites state requests tokens) call
        (fun admin _ => request.ActsAs state tokens admin.userId) db := by
  refine Program.Keeps.bind possible (requireUser_keeps made) ?_
  intro user now _ acts
  split
  · exact fun _ _ _ => acts
  · trivial

/-- The writes of an update have passed the check against the administrator. -/
theorem update_keeps {admin : AuthUser} {id : Uuid} {body : UpdateUserRequest}
    (made : requests[call]? = some request) (acts : request.ActsAs state tokens admin.userId)
    (possible : (checkedWrites state requests tokens).possible db)
    : (UsersRoute.update admin id body).Keeps (checkedWrites state requests tokens) call
        (fun _ _ => True) db := by
  unfold UsersRoute.update
  split
  · trivial
  · next passes =>
      have updates : (UserService.update id body).Keeps (checkedWrites state requests tokens) call
          (fun _ _ => True) db := by
        refine Program.Keeps.request ?_
        intro now _ _ _
        refine ⟨⟨request, made, admin, acts, Bool.eq_false_iff.mpr passes⟩, ?_⟩
        · intro row after _ _
          split
          · exact keeps_of_along made (Program.Along.seq (revokes_along id) (fun _ => trivial))
          · exact fun _ _ _ => trivial
      refine Program.Keeps.bind possible updates ?_
      intro updated now _ _
      split
      · exact keeps_of_along made (Program.Along.seq (records_along _) (fun _ => trivial))
      · trivial

/-- So has the write of a deletion. -/
theorem delete_keeps {admin : AuthUser} {id : Uuid} (made : requests[call]? = some request)
    (acts : request.ActsAs state tokens admin.userId)
    (possible : (checkedWrites state requests tokens).possible db)
    : (UsersRoute.delete admin id).Keeps (checkedWrites state requests tokens) call
        (fun _ _ => True) db := by
  unfold UsersRoute.delete
  split
  · trivial
  · next other =>
      have deletes : ∀ {db : Db}, (checkedWrites state requests tokens).possible db →
          (UserService.delete id).Keeps (checkedWrites state requests tokens) call
            (fun _ _ => True) db := by
        intro db possible
        refine Program.Keeps.bind possible
          (keeps_of_along made (revokes_along id)) ?_
        intro _ now _ _
        refine Program.Keeps.request ?_
        intro now _ _ _
        exact ⟨⟨request, made, admin.userId, acts, other⟩, fun _ _ _ _ _ _ _ => trivial⟩
      have looks : (UserService.get id).Keeps (checkedWrites state requests tokens) call
          (fun _ _ => True) db :=
        keeps_of_along made (@query_along _ _ (.selectUser id) (fun _ => trivial))
      refine Program.Keeps.bind possible looks ?_
      intro target now possible _
      split
      · refine Program.Keeps.bind possible (deletes possible) ?_
        intro deleted now _ _
        split
        · trivial
        · exact keeps_of_along made (Program.Along.seq (records_along _) (fun _ => trivial))
      · trivial

/-- Every request keeps to its check, from the start on. -/
theorem start_kept
    : (start state requests db).Kept (checkedWrites state requests db.accessTokens)
        (fun _ _ _ => True) := by
  have possible : (checkedWrites state requests db.accessTokens).possible db := fun _ there => there
  refine ⟨possible, ?_⟩
  intro call program found
  rw [start, List.getElem?_map] at found
  obtain ⟨request, made, rfl⟩ := Option.map_eq_some_iff.mp found
  cases request with
  | update authorization id body =>
      refine Program.Keeps.bind possible (requireAdmin_keeps made possible) ?_
      intro admin now possible acts
      exact Program.Keeps.returning possible (update_keeps made acts possible)
  | delete authorization id =>
      refine Program.Keeps.bind possible (requireAdmin_keeps made possible) ?_
      intro admin now possible acts
      exact Program.Keeps.returning possible (delete_keeps made acts possible)

-----------------------------------------------------------------------------------------
-- Runs
-----------------------------------------------------------------------------------------

/-- A statement that takes an administrator away is sent by a request that still comes from one. -/
def SentByAdministrator (state : AppState) (requests : List AdminRequest)
    (system : System sql AppError Unit) : Turn → Prop
  | .run call =>
      ∀ request ∈ requests[call]?, ∀ statement ∈ (system.calls[call]?).bind Program.pending?,
        (∃ row ∈ system.state.users, row.Administers ∧ statement.strips system.state row = true)
        → request.Stands state system.state
  | _ => True

instance (state : AppState) (requests : List AdminRequest) (system : System sql AppError Unit)
    : (turn : Turn) → Decidable (SentByAdministrator state requests system turn)
  | .run _ => inferInstanceAs (Decidable (∀ request ∈ _, ∀ statement ∈ _, _ → _))
  | .lose _ | .env _ => isTrue trivial

/-- The check spares the administrator that the request comes from. -/
theorem Stands.spared {statement : Statement} (unique : Records.Unique (·.tokenHash) tokens)
    (possible : ∀ token ∈ db.accessTokens, token ∈ tokens)
    (checked : request.Checked state tokens statement) (stands : request.Stands state db)
    : ∃ row ∈ db.users, row.Administers ∧ statement.strips db row = false := by
  obtain ⟨token, userId, email, expiresAt, presented, found⟩ := stands
  obtain ⟨⟨known, knownThere, knownHash, owner⟩, user, there, id, active, admin⟩ :=
    bearer_some found
  have same : ∀ {caller : Uuid}, request.ActsAs state tokens caller → caller = user.id := by
    intro caller acts
    obtain ⟨given, givenPresented, row, rowThere, hash, whose⟩ := acts
    obtain rfl := Option.some.inj (presented.symm.trans givenPresented)
    have one := unique.same rowThere (possible known knownThere) (hash.trans knownHash.symm)
    rw [id, ← owner, ← one, whose]
  refine ⟨user, there, ⟨active, admin⟩, ?_⟩
  cases statement with
  | updateUser id body =>
      obtain ⟨caller, acts, passes⟩ := checked
      refine Bool.eq_false_iff.mpr fun strips => ?_
      obtain ⟨target, harms⟩ := Bool.and_eq_true_iff.mp strips
      have locked : UsersRoute.locksOut caller id body = true := by
        rw [UsersRoute.locksOut, same acts, ← eq_of_beq target, harms, beq_self_eq_true,
          Bool.true_and]
      rw [passes] at locked
      cases locked
  | deleteUser id =>
      obtain ⟨caller, acts, other⟩ := checked
      refine Bool.eq_false_iff.mpr fun strips => ?_
      obtain ⟨target, _⟩ := Bool.and_eq_true_iff.mp strips
      exact other ((eq_of_beq target).symm.trans (same acts).symm)
  | _ => rfl

variable {system after : System sql AppError Unit} {turn : Turn}

/-- One turn that meets the condition leaves an administrator. -/
theorem administered_step (unique : Records.Unique (·.tokenHash) tokens)
    (kept : system.Kept (checkedWrites state requests tokens) (fun _ _ _ => True))
    (administered : system.state.Administered) (moves : system.Moves elapse turn after)
    (sent : SentByAdministrator state requests system turn)
    : after.state.Administered := by
  cases moves with
  | @replied call op next reply db issued ran =>
      obtain ⟨request, made, checked⟩ :=
        ((kept.calls call _ issued _ trivial kept.possible).1 trivial).1
      by_cases strips : ∃ row ∈ system.state.users, row.Administers ∧ op.strips system.state row = true
      · have pending : (system.calls[call]?).bind Program.pending? = some op := by
          rw [issued]
          rfl
        have stands := sent request made op pending strips
        obtain ⟨row, there, was, spared⟩ := stands.spared unique kept.possible checked
        exact administered_of_spared ran there was spared
      · obtain ⟨row, there, was⟩ := administered
        refine administered_of_spared ran there was (Bool.eq_false_iff.mpr fun harms => ?_)
        exact strips ⟨row, there, was, harms⟩
  | refused | lost | env | idle => exact administered

/-- So does a run all of whose turns meet it, by induction on the schedule. -/
theorem administered_run (unique : Records.Unique (·.tokenHash) tokens)
    (kept : system.Kept (checkedWrites state requests tokens) (fun _ _ _ => True))
    (administered : system.state.Administered) {turns past : List Turn}
    (meets : system.Meets elapse (SentByAdministrator state requests) turns) (early : past <+: turns)
    : (system.run elapse past).state.Administered := by
  induction turns generalizing system past with
  | nil =>
      rw [List.prefix_nil.mp early]
      exact administered
  | cons turn rest ih =>
      have moves := System.handle_moves elapse system turn
      have still := administered_step unique kept administered moves meets.1
      have surroundings : ∀ (passed : Nat) db, (checkedWrites state requests tokens).possible db →
          (checkedWrites state requests tokens).possible (elapse passed db)
            ∧ ∀ call, (checkedWrites state requests tokens).later call db (elapse passed db) :=
        fun _ _ possible => ⟨possible, fun _ => trivial⟩
      have admits : system.Admits (checkedWrites state requests tokens) turn := by
        cases turn with
        | run | lose => exact fun _ _ _ => trivial
        | env => trivial
      have next := kept.step surroundings admits moves
      cases past with
      | nil => exact administered
      | cons first past =>
          obtain ⟨rfl, inside⟩ := List.cons_prefix_cons.mp early
          exact ih next still meets.2 inside

end AdminRequest

open AdminRequest in
/-- In a run of updates and deletions by administrators an administrator remains all the time, if each
statement that takes one away is sent on behalf of somebody who is one just before it.
-/
theorem administrators_remain (state : AppState) (requests : List AdminRequest) {db : Db}
    (administered : db.Administered) (unique : Records.Unique (·.tokenHash) db.accessTokens)
    (turns : List Turn)
    (sent : (start state requests db).Meets elapse (SentByAdministrator state requests) turns)
    : ∀ past, past <+: turns → ((start state requests db).run elapse past).state.Administered :=
  fun _ early => administered_run unique start_kept administered sent early

/-- Two administrators, each with a token. -/
def boardroom : Db := {
  Db.empty 0 with
  users := [⟨1, "ada@example.com", none, none, true, .admin⟩,
    ⟨2, "bob@example.com", none, none, true, .admin⟩]
  accessTokens := [⟨1, "ada's token", 3600⟩, ⟨2, "bob's token", 3600⟩]
}

/-- Each of them demotes the other. -/
def demotions : List AdminRequest :=
  [.update (some "Bearer ada's token") 2 ⟨none, none, some .member⟩,
    .update (some "Bearer bob's token") 1 ⟨none, none, some .member⟩]

theorem boardroom_tokens : Records.Unique (·.tokenHash) boardroom.accessTokens := by
  unfold Records.Unique
  decide

/-- The first one is done before the second one begins, whom the extractor then refuses. -/
def oneByOne : List Turn := List.replicate 5 (.run 0) ++ [.run 1, .run 1]

theorem first_demotion_remains
    : ((AdminRequest.start smallState demotions boardroom).run elapse oneByOne).state.Administered := by
  refine administrators_remain smallState demotions (by decide) boardroom_tokens oneByOne ?_ oneByOne
    List.prefix_rfl
  simp only [oneByOne, List.replicate, List.cons_append, List.nil_append, System.Meets, and_true]
  decide +kernel

/-- Both are authenticated before either update runs: nobody is left. -/
theorem nobody_remains
    : boardroom.Administered
      ∧ ¬ ((AdminRequest.start smallState demotions boardroom).run elapse
          [.run 0, .run 0, .run 1, .run 1, .run 0, .run 1]).state.Administered := by
  decide +kernel

end WslVpn
