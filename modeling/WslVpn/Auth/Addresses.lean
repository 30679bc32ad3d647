import WslVpn.Auth.Calls

/-! The spelling of the addresses that are stored. All writers but one store them in lower case. -/

namespace WslVpn.Auth

open Transactions.Locking Interleaving

/-- The text has no upper-case letter of ASCII. -/
def LowerCase (text : String) : Prop := asciiLower text = text

theorem lowerCase_asciiLower (text : String) : LowerCase (asciiLower text) :=
  asciiLower_asciiLower text

/-- The writes store addresses in lower case only. -/
def WritesLower (writes : List Write) : Prop := ∀ row, Write.user row ∈ writes → LowerCase row.email

/-- The stored addresses are in lower case, and so are those that open transactions have written. -/
structure Addresses (accounts : Shared Accounts Write) : Prop where
  committed : ∀ row ∈ accounts.committed.users, LowerCase row.email
  pending : ∀ held ∈ accounts.pending, WritesLower held.writes

/-- The statement names addresses in lower case only. -/
def Statement.NamesLower : Statement → Prop
  | .updateUserEmail _ email => LowerCase email
  | .insertUser row => LowerCase row.email
  | .upsertAdmin _ email => LowerCase email
  | _ => True

section Rows

variable {tables : Accounts} {writes : List Write}

/-- Writes in lower case keep the addresses so, by induction on them. -/
theorem applyAll_lower (lower : ∀ row ∈ tables.users, LowerCase row.email)
    (fine : WritesLower writes)
    : ∀ row ∈ (rules.applyAll tables writes).users, LowerCase row.email := by
  induction writes generalizing tables with
  | nil => exact lower
  | cons write rest ih =>
      refine @ih (tables.apply write) ?_
        (fun row member => fine row (List.mem_cons_of_mem _ member))
      intro row there
      cases write with
      | user new =>
          rcases mem_users_user.mp there with rfl | ⟨there, _⟩
          · exact fine row List.mem_cons_self
          · exact lower row there
      | identity binding => exact lower row there
      | deleteUser id => exact lower row (mem_users_delete.mp there).1

theorem writesLower_nil : WritesLower [] := by
  intro row member
  cases member

theorem writesLower_user {new : UserRow} (lower : LowerCase new.email)
    : WritesLower [.user new] := by
  intro row member
  cases List.mem_singleton.mp member
  exact lower

/-- A statement writes addresses that it names, or that were stored, by cases on the statement. -/
theorem plan_lower {lower : String → String} {statement : Statement} {reply : statement.Reply}
    (stored : ∀ row ∈ tables.users, LowerCase row.email) (names : statement.NamesLower)
    (creates
      : ∀ freshId request, statement = .upsertUser freshId request
          → tables.findByEmail request.email = none → LowerCase request.email)
    (planned : statement.plan lower tables = .ok (reply, writes))
    : WritesLower writes := by
  have found : ∀ {sought : UserRow → Bool} (row : UserRow), tables.users.find? sought = some row →
      LowerCase row.email :=
    fun row there => stored row (List.mem_of_find?_eq_some there)
  cases statement with
  | selectBound | selectUserByEmail | selectSubject | selectUserByExternalId
  | selectUserByLowerEmail | selectActive | countAdmins =>
      cases planned
      exact writesLower_nil
  | updateIdentityEmail issuer subject email =>
      simp only [Statement.plan] at planned
      split at planned
      · cases planned
        exact writesLower_nil
      · cases planned
        intro row member
        simp at member
  | insertIdentity row =>
      simp only [Statement.plan] at planned
      split at planned
      · cases planned
      · cases planned
        intro row member
        simp at member
  | updateUserEmail id email =>
      simp only [Statement.plan] at planned
      split at planned
      · cases planned
        exact writesLower_nil
      · cases planned
        exact writesLower_user names
  | insertUser row =>
      simp only [Statement.plan] at planned
      split at planned
      · cases planned
      · cases planned
        exact writesLower_user names
  | upsertUser freshId request =>
      simp only [Statement.plan] at planned
      split at planned
      · next row there =>
          split at planned
          · cases planned
            exact writesLower_user (found row there)
          · cases planned
            exact writesLower_nil
      · next absent =>
          split at planned
          · cases planned
          · cases planned
            exact writesLower_user (creates freshId request rfl absent)
  | updateUser id request =>
      simp only [Statement.plan] at planned
      split at planned
      · cases planned
        exact writesLower_nil
      · next row there =>
          cases planned
          exact writesLower_user (found row there)
  | deleteUser id =>
      simp only [Statement.plan] at planned
      split at planned
      · cases planned
        exact writesLower_nil
      · cases planned
        intro row member
        simp at member
  | upsertAdmin freshId email =>
      simp only [Statement.plan] at planned
      split at planned
      · next row there =>
          cases planned
          exact writesLower_user (found row there)
      · split at planned
        · cases planned
        · cases planned
          exact writesLower_user names
  | demoteOthers emails =>
      cases planned
      intro row member
      obtain ⟨old, there, same⟩ := List.mem_map.mp member
      cases same
      exact stored old (List.mem_of_mem_filter there)

end Rows

-----------------------------------------------------------------------------------------
-- Runs
-----------------------------------------------------------------------------------------

/-- A user is created within a transaction by a sign-in only, and any statement names addresses in
lower case.
-/
def Request.NamesLower : Request → Prop
  | .within _ statement =>
      statement.NamesLower ∧ ∀ freshId request, statement ≠ .upsertUser freshId request
  | .auto statement => statement.NamesLower
  | _ => True

theorem Addresses.view {accounts : Shared Accounts Write} (addresses : Addresses accounts)
    (connection : Nat)
    : ∀ row ∈ (accounts.view rules connection).users, LowerCase row.email := by
  refine applyAll_lower addresses.committed ?_
  cases opened : accounts.written connection with
  | none => exact writesLower_nil
  | some writes => exact addresses.pending _ (mem_of_written opened)

/-- A request that names addresses in lower case keeps them so, by cases on what it does. -/
theorem Addresses.step {db after : AuthDb} {request : Request} {reply : request.Reply}
    (addresses : Addresses db.accounts) (names : request.NamesLower)
    (creates
      : ∀ freshId new, request = .auto (.upsertUser freshId new)
          → db.accounts.committed.findByEmail new.email = none → LowerCase new.email)
    (ran : request.exec db = .ok (reply, after))
    : Addresses after.accounts := by
  have effect := effect_of_exec ran
  generalize after.accounts = accounts at effect ⊢
  cases effect with
  | begin closed =>
      refine ⟨addresses.committed, ?_⟩
      intro held member
      rcases List.mem_append.mp member with old | new
      · exact addresses.pending held old
      · rw [List.mem_singleton.mp new]
        exact writesLower_nil
  | @within connection statement reply held writes opened planned fine free =>
      have lower : WritesLower writes := by
        refine plan_lower (addresses.view connection) names.1 ?_ planned
        intro freshId new same
        exact absurd same (names.2 freshId new)
      refine ⟨addresses.committed, ?_⟩
      intro held member
      obtain ⟨old, there, rfl⟩ := List.mem_map.mp member
      split
      · intro row inside
        rcases List.mem_append.mp inside with before | new
        · exact addresses.pending old there row before
        · exact lower row new
      · exact addresses.pending old there
  | commit opened =>
      exact ⟨addresses.view _, fun held member => addresses.pending held (List.mem_of_mem_filter member)⟩
  | rollback =>
      exact ⟨addresses.committed,
        fun held member => addresses.pending held (List.mem_of_mem_filter member)⟩
  | auto planned fine free =>
      refine ⟨applyAll_lower addresses.committed ?_, addresses.pending⟩
      refine plan_lower addresses.committed names ?_ planned
      intro freshId new same
      exact creates freshId new (congrArg Request.auto same)
  | elsewhere other => exact addresses

section Calls

variable {jwt : Jwt} {config : AuthConfig} {connection : Nat}

theorem checkActive_lower (userId : Uuid)
    : Sends Request.NamesLower (checkActive connection userId) := by
  refine sends_then ⟨trivial, by simp⟩ ?_
  intro active
  match active with
  | none => exact sends_throw _
  | some false => exact sends_throw _
  | some true => exact sends_return _

theorem oidc_findUser_lower {freshId : Uuid} {identity : VerifiedIdentity}
    (lower : LowerCase identity.email)
    : Sends Request.NamesLower (Oidc.findUser config connection freshId identity) := by
  refine sends_then ⟨trivial, by simp⟩ ?_
  intro bound
  match bound with
  | some userId =>
      refine sends_then ⟨trivial, by simp⟩ (fun _ => ?_)
      exact sends_then ⟨lower, by simp⟩ (fun _ => sends_return _)
  | none =>
      refine sends_then ⟨trivial, by simp⟩ ?_
      intro existing
      match existing with
      | some (userId, _) =>
          refine sends_then ⟨trivial, by simp⟩ ?_
          intro already
          match already with
          | some _ => exact sends_throw _
          | none => exact sends_then ⟨trivial, by simp⟩ (fun _ => sends_return _)
      | none =>
          change Sends _ (if _ then _ else _)
          split
          · exact sends_throw _
          · refine sends_then ⟨lower, by simp⟩ (fun _ => ?_)
            exact sends_then ⟨trivial, by simp⟩ (fun _ => sends_return _)

theorem oidc_resolveUser_lower {freshId : Uuid} {identity : VerifiedIdentity}
    (lower : LowerCase identity.email)
    : Sends Request.NamesLower (Oidc.resolveUser config connection freshId identity) := by
  rw [Oidc.resolveUser]
  split
  · exact sends_throw _
  · refine sends_inTransaction trivial trivial trivial ?_
    exact (oidc_findUser_lower lower).bind (fun userId => checkActive_lower userId)

/-- A verified identity has its address in lower case. -/
theorem verify_lower {presented : Oidc.Presented} {identity : VerifiedIdentity}
    (accepted : Oidc.verify jwt config presented = .ok identity)
    : LowerCase identity.email := by
  rw [Oidc.verify] at accepted
  cases verified : verifyIdToken jwt presented.token presented.jwks config.issuer config.clientId
      presented.nonce config.clockSkewSecs with
  | error error =>
      rw [verified] at accepted
      cases accepted
  | ok made =>
      rw [verified] at accepted
      cases accepted
      obtain ⟨claims, _, made⟩ := verifyIdToken_ok verified
      obtain ⟨_, _, _, email, _, lowered⟩ := identityOf_ok made
      rw [lowered]
      exact lowerCase_asciiLower email

theorem signIn_lower {freshId : Uuid} {presented : Oidc.Presented}
    : Sends Request.NamesLower (Oidc.signIn jwt config connection freshId presented) := by
  rw [Oidc.signIn]
  cases accepted : Oidc.verify jwt config presented with
  | error error => trivial
  | ok identity =>
      exact (oidc_resolveUser_lower (verify_lower accepted)).bind (fun _ => sends_return _)

theorem opsapi_findUser_lower {ops : OpsApiConfig} {freshId : Uuid} {person : OpsApiPerson}
    (lower : LowerCase person.email)
    : Sends Request.NamesLower (OpsApi.findUser config ops connection freshId person) := by
  refine sends_then ⟨trivial, by simp⟩ ?_
  intro bound
  match bound with
  | some userId => exact sends_then ⟨trivial, by simp⟩ (fun _ => sends_return _)
  | none =>
      have provisioned : Sends Request.NamesLower
          (OpsApi.provisionedUser config connection freshId person) := by
        refine sends_then ⟨trivial, by simp⟩ ?_
        intro provisioned
        match provisioned with
        | some id => exact sends_return _
        | none =>
            refine sends_then ⟨trivial, by simp⟩ ?_
            intro taken
            change Sends _ (if _ then _ else _)
            split
            · exact sends_throw _
            · split
              · exact sends_throw _
              · exact sends_send ⟨lower, by simp⟩
      refine provisioned.bind (fun _ => ?_)
      exact sends_then ⟨trivial, by simp⟩ (fun _ => sends_return _)

theorem mintAccessToken_lower (secret : String) (userId : Uuid)
    : Sends Request.NamesLower (mintAccessToken config secret userId) := by
  refine sends_then trivial (fun _ => ?_)
  exact sends_then trivial (fun _ => sends_return _)

/-- A person of a session has their address in lower case. -/
theorem whoseSession_lower {workspace : String} {me : OpsApi.Answered OpsApi.MeResponse}
    {person : OpsApiPerson} (told : OpsApi.whoseSession workspace me = .ok person)
    : LowerCase person.email := by
  unfold OpsApi.whoseSession at told
  split at told
  · cases told
  · split at told
    · cases told
    · split at told
      · cases told
      · split at told
        · cases told
        · split at told
          · cases told
          · split at told
            · cases told
            · cases told
              exact lowerCase_asciiLower _

theorem exchange_lower {freshId : Uuid} {secret : String} {me : OpsApi.Answered OpsApi.MeResponse}
    {scim : OpsApi.Answered OpsApi.ScimUser}
    : Sends Request.NamesLower (OpsApi.exchange config connection freshId secret me scim) := by
  unfold OpsApi.exchange
  split
  · next ops configured =>
      cases told : OpsApi.whoseSession ops.workspace me with
      | error error => trivial
      | ok person =>
          change Sends _ (liftExcept (OpsApi.directoryLookup person.uuid scim) >>= _)
          refine (sends_lift _).bind (fun answer => ?_)
          change Sends _ (if _ then _ else _)
          split
          · exact sends_throw _
          · refine Sends.bind ?_ (fun userId => ?_)
            · refine sends_inTransaction trivial trivial trivial ?_
              exact (opsapi_findUser_lower (whoseSession_lower told)).bind
                (fun userId => checkActive_lower userId)
            · exact (mintAccessToken_lower secret userId).bind (fun _ => sends_return _)
  · exact sends_throw _

theorem devLogin_lower {freshId : Uuid} {secret email : String}
    : Sends Request.NamesLower (devLogin config freshId secret email) := by
  unfold devLogin
  split
  · exact sends_throw _
  · refine Sends.bind ?_ (fun userId => ?_)
    · refine sends_then trivial ?_
      intro existing
      match existing with
      | some (id, active) =>
          change Sends _ (if _ then _ else _)
          split
          · exact sends_return _
          · exact sends_throw _
      | none => exact sends_send (lowerCase_asciiLower (trimmed email))
    · refine sends_then trivial (fun _ => ?_)
      exact (mintAccessToken_lower secret userId).bind (fun _ => sends_return _)

/-- By induction on the addresses. -/
theorem grantAdmins_lower {freshId : String → Uuid} {emails : List String}
    (lower : ∀ email ∈ emails, LowerCase email)
    : Sends Request.NamesLower (grantAdmins freshId emails) := by
  induction emails with
  | nil => exact sends_return ()
  | cons email rest ih =>
      obtain ⟨here, lower⟩ := List.forall_mem_cons.mp lower
      exact sends_then here (fun _ => ih lower)

theorem reconcileAdmins_lower {freshId : String → Uuid}
    : Sends Request.NamesLower (reconcileAdmins config freshId) := by
  unfold reconcileAdmins
  change Sends _ (if _ then _ else _)
  split
  · exact sends_then trivial (fun _ => sends_return _)
  · refine (grantAdmins_lower ?_).bind (fun _ => ?_)
    · intro email member
      obtain ⟨raw, _, rfl⟩ := List.mem_map.mp (List.mem_of_mem_filter member)
      exact config.toLowercase_ascii _
    · exact sends_then trivial (fun _ => sends_return _)

/-- No call names an address in upper case, apart from those that create a user. -/
theorem program_lower (call : LoginCall)
    : Sends Request.NamesLower (call.program jwt config connection) := by
  cases call with
  | create freshId request =>
      refine Sends.bind ?_ (fun _ => sends_return _)
      refine ⟨trivial, ?_⟩
      intro reply _
      match reply with
      | .ok (some _) => exact sends_return _
      | .ok none => exact sends_throw _
      | .error _ => trivial
  | update id request =>
      refine Sends.bind ?_ (fun _ => sends_return _)
      refine sends_then trivial (fun row => ?_)
      change Sends _ (if _ then _ else _)
      split
      · exact sends_then trivial (fun _ => sends_return _)
      · exact sends_return _
  | delete id =>
      refine Sends.bind ?_ (fun _ => sends_return _)
      refine sends_then trivial (fun _ => ?_)
      exact sends_then trivial (fun _ => sends_return _)
  | oidc freshId presented => exact signIn_lower.bind (fun _ => sends_return _)
  | opsapi freshId secret me scim => exact exchange_lower.bind (fun _ => sends_return _)
  | devLogin freshId secret email => exact devLogin_lower.bind (fun _ => sends_return _)
  | reconcileAdmins freshId => exact reconcileAdmins_lower.bind (fun _ => sends_return _)

end Calls

end WslVpn.Auth
