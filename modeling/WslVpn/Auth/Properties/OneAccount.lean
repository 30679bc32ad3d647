import WslVpn.Auth.Addresses
import WslVpn.Auth.Properties.EmailLinking

/-! One account for each address, however it is spelled. -/

namespace WslVpn.Auth

open Transactions.Locking Interleaving

/-- The first sign-in of the person whom the row was made for, under any spelling of their address.
-/
structure FirstSignIn (config : AuthConfig) (tables : Accounts) (identity : VerifiedIdentity)
    (row : UserRow) : Prop where
  stored : row ∈ tables.users
  active : row.active = true
  address : eqIgnoreAsciiCase identity.email row.email = true
  admitted : config.admits identity.hostedDomain = true
  unbound
    : ∀ binding ∈ tables.identities,
        ¬ (binding.issuer = identity.issuer ∧ binding.subject = identity.subject)
  first
    : ∀ binding ∈ tables.identities, ¬ (binding.issuer = identity.issuer ∧ binding.userId = row.id)

/-- The first sign-in through OpsAPI of a person whom OpsAPI provisioned. -/
structure FirstOpsSignIn (ops : OpsApiConfig) (tables : Accounts) (person : OpsApiPerson)
    (row : UserRow) : Prop where
  stored : row ∈ tables.users
  active : row.active = true
  provisioned : row.externalId = some person.uuid
  unbound
    : ∀ binding ∈ tables.identities,
        ¬ (binding.issuer = OpsApi.issuer ops ∧ binding.subject = person.uuid)
  first
    : ∀ binding ∈ tables.identities, ¬ (binding.issuer = OpsApi.issuer ops ∧ binding.userId = row.id)

/-- The call, run on these tables alone, finds the user, and no other one is made. -/
def FindsUser {Value : Type} (tables : Accounts) (call : Login Value) (value : Value) : Prop :=
  ∀ db : AuthDb, db.accounts = .start tables →
    (call.alone db).1 = .ok value ∧ (call.alone db).2.accounts.committed.users = tables.users

/-- No two users have one address but for its case, and whoever has been provisioned is found at their
first sign-in.
-/
structure OneAccount (jwt : Jwt) (config : AuthConfig) (tables : Accounts) : Prop where
  apart
    : ∀ row ∈ tables.users, ∀ other ∈ tables.users,
        eqIgnoreAsciiCase row.email other.email = true → row = other
  found
    : ∀ presented identity row, Oidc.verify jwt config presented = .ok identity
        → FirstSignIn config tables identity row
          → ∀ connection freshId, FindsUser tables
              (Oidc.signIn jwt config connection freshId presented) (identity, row.id)
  foundByOpsApi
    : ∀ ops person row, FirstOpsSignIn ops tables person row
        → ∀ connection freshId, FindsUser tables
            (OpsApi.resolveUser config ops connection freshId person) row.id

section Found

variable {tables : Accounts} {row : UserRow}

theorem findUser_of_good (good : tables.Good) (stored : row ∈ tables.users)
    : tables.findUser row.id = some row :=
  Records.find?_only stored (beq_self_eq_true _)
    (fun other there same => good.ids other there row stored (beq_iff_eq.mp same))

theorem findByEmail_of_good (good : tables.Good) (stored : row ∈ tables.users)
    : tables.findByEmail row.email = some row :=
  Records.find?_only stored (beq_self_eq_true _)
    (fun other there same =>
      good.logins other there row stored (sameLogin_iff.mpr (Or.inl (beq_iff_eq.mp same))))

theorem findIdentity_none {issuer subject : String}
    (unbound
      : ∀ binding ∈ tables.identities, ¬ (binding.issuer = issuer ∧ binding.subject = subject))
    : tables.findIdentity issuer subject = none := by
  refine List.find?_eq_none.mpr ?_
  intro binding there same
  exact unbound binding there (by simpa using same)

/-- A new binding is admitted when neither its subject nor its user has one of the issuer. -/
theorem check_new_identity {binding : IdentityRow} (stored : row ∈ tables.users)
    (named : binding.userId = row.id)
    (unbound
      : ∀ other ∈ tables.identities,
          ¬ (other.issuer = binding.issuer ∧ other.subject = binding.subject))
    (first
      : ∀ other ∈ tables.identities, ¬ (other.issuer = binding.issuer ∧ other.userId = row.id))
    : rules.checkAll tables [.identity binding] = none := by
  refine checkAll_cons.mpr ⟨check_identity.mpr ⟨?_, row, stored, named.symm⟩, rfl⟩
  intro other there
  rw [Bool.eq_iff_iff, sameSubject_iff, samePerson_iff, named]
  exact iff_of_false (unbound other there) (first other there)

variable {db : AuthDb} {connection : Nat} {config : AuthConfig} {freshId : Uuid}
  {binding : IdentityRow}

/-- The last check of a sign-in lets an active user pass, whatever has been bound meanwhile. -/
theorem checkActive_alone (closed : db.accounts.written connection = none) {writes : List Write}
    (stored : (rules.applyAll db.accounts.committed writes).findUser row.id = some row)
    (active : row.active = true)
    : (checkActive connection row.id).alone (db.opened connection writes)
      = (.ok row.id, db.opened connection writes) := by
  have planned : (Statement.selectActive row.id).plan db.lower
      (rules.applyAll db.accounts.committed writes) = .ok (some true, []) := by
    rw [Statement.plan, stored, Option.map_some, active]
  rw [checkActive, stmt_read_then closed planned]
  rfl

variable (quiet : db.accounts = .start tables)

include quiet

theorem committed_of_quiet : db.accounts.committed = tables := congrArg Shared.committed quiet

theorem written_of_quiet : db.accounts.written connection = none := by
  rw [Shared.written, congrArg Shared.pending quiet]
  rfl

theorem insertIdentity_alone (stored : row ∈ tables.users) (named : binding.userId = row.id)
    (unbound
      : ∀ other ∈ tables.identities,
          ¬ (other.issuer = binding.issuer ∧ other.subject = binding.subject))
    (first
      : ∀ other ∈ tables.identities, ¬ (other.issuer = binding.issuer ∧ other.userId = row.id))
    : (stmt connection (.insertIdentity binding)).alone (db.opened connection [])
      = (.ok (), db.opened connection [.identity binding]) := by
  have planned : (Statement.insertIdentity binding).plan db.lower
      (rules.applyAll db.accounts.committed []) = .ok ((), [.identity binding]) := by
    rw [committed_of_quiet quiet]
    have looked : (rules.applyAll tables []).findIdentity binding.issuer binding.subject = none :=
      findIdentity_none unbound
    simp only [Statement.plan, looked]
  have fine : rules.checkAll (rules.applyAll db.accounts.committed []) [.identity binding]
      = none := by
    rw [committed_of_quiet quiet]
    exact check_new_identity stored named unbound first
  have free : ∀ held ∈ db.accounts.pending, rules.clashes held.writes [.identity binding]
      = false := by
    intro held member
    rw [congrArg Shared.pending quiet] at member
    cases member
  exact stmt_alone_ok (written_of_quiet quiet) planned fine free

/-- Whoever has been found and bound is signed in if they are active, and no user has been written.
-/
theorem signedIn_alone (good : tables.Good) (stored : row ∈ tables.users)
    (active : row.active = true)
    {find : Login Uuid}
    (found
      : find.alone (db.opened connection [])
        = (.ok row.id, db.opened connection [.identity binding]))
    : let ended :=
        (inTransaction connection do
          let userId ← find
          checkActive connection userId).alone db
      ended.1 = .ok row.id ∧ ended.2.accounts.committed.users = tables.users := by
  have closed : db.accounts.written connection = none := written_of_quiet quiet
  have kept : (rules.applyAll db.accounts.committed [.identity binding]).findUser row.id
      = some row := by
    rw [committed_of_quiet quiet]
    change tables.findUser row.id = some row
    exact findUser_of_good good stored
  have body := (Program.alone_bind_ok found).trans (checkActive_alone closed kept active)
  have ended := inTransaction_alone_ok closed body
  refine ⟨congrArg Prod.fst ended, ?_⟩
  refine (congrArg (fun ended => ended.2.accounts.committed.users) ended).trans ?_
  change db.accounts.committed.users = tables.users
  rw [committed_of_quiet quiet]

/-- A person with an account that is not bound yet is linked to it. -/
theorem oidc_findUser_links {identity : VerifiedIdentity} (good : tables.Good)
    (first : FirstSignIn config tables identity row) (spelled : identity.email = row.email)
    : (Oidc.findUser config connection freshId identity).alone (db.opened connection [])
      = (.ok row.id, db.opened connection [.identity (bindingOf identity row.id)]) := by
  have closed : db.accounts.written connection = none := written_of_quiet quiet
  have bound : (Statement.selectBound identity.issuer identity.subject).plan db.lower
      (rules.applyAll db.accounts.committed []) = .ok (none, []) := by
    rw [committed_of_quiet quiet]
    change Except.ok ((tables.findIdentity identity.issuer identity.subject).map (·.userId), []) = _
    rw [findIdentity_none first.unbound]
    rfl
  have existing : (Statement.selectUserByEmail identity.email).plan db.lower
      (rules.applyAll db.accounts.committed []) = .ok (some (row.id, row.active), []) := by
    rw [committed_of_quiet quiet]
    change Except.ok ((tables.findByEmail identity.email).map (fun row => (row.id, row.active)), [])
      = _
    rw [spelled, findByEmail_of_good good first.stored]
    rfl
  have already : (Statement.selectSubject identity.issuer row.id).plan db.lower
      (rules.applyAll db.accounts.committed []) = .ok (none, []) := by
    rw [committed_of_quiet quiet]
    change Except.ok ((tables.identities.find?
      (fun other => other.issuer == identity.issuer && other.userId == row.id)).map (·.subject), []) = _
    have missing : tables.identities.find?
        (fun other => other.issuer == identity.issuer && other.userId == row.id) = none := by
      refine List.find?_eq_none.mpr ?_
      intro other there same
      exact first.first other there (by simpa using same)
    rw [missing]
    rfl
  refine (stmt_read_then closed bound).trans ?_
  refine (stmt_read_then closed existing).trans ?_
  refine (stmt_read_then closed already).trans ?_
  have linked :=
    @insertIdentity_alone _ row _ connection (bindingOf identity row.id) quiet first.stored
    rfl first.unbound first.first
  exact Program.alone_bind_ok linked

/-- A person whom OpsAPI has provisioned is linked to the account that it made. -/
theorem opsapi_findUser_links {ops : OpsApiConfig} {person : OpsApiPerson} (good : tables.Good)
    (first : FirstOpsSignIn ops tables person row)
    : (OpsApi.findUser config ops connection freshId person).alone (db.opened connection [])
      = (.ok row.id,
          db.opened connection [.identity {
            issuer := OpsApi.issuer ops
            subject := person.uuid
            userId := row.id
            email := person.email
          }]) := by
  have closed : db.accounts.written connection = none := written_of_quiet quiet
  have bound : (Statement.selectBound (OpsApi.issuer ops) person.uuid).plan db.lower
      (rules.applyAll db.accounts.committed []) = .ok (none, []) := by
    rw [committed_of_quiet quiet]
    change Except.ok ((tables.findIdentity (OpsApi.issuer ops) person.uuid).map (·.userId), []) = _
    rw [findIdentity_none first.unbound]
    rfl
  have provisioned : (Statement.selectUserByExternalId person.uuid).plan db.lower
      (rules.applyAll db.accounts.committed []) = .ok (some row.id, []) := by
    rw [committed_of_quiet quiet]
    change Except.ok ((tables.users.find? (·.externalId == some person.uuid)).map (·.id), []) = _
    have found : tables.users.find? (·.externalId == some person.uuid) = some row := by
      refine Records.find?_only first.stored (beq_iff_eq.mpr first.provisioned) ?_
      intro other there same
      refine good.logins other there row first.stored (sameLogin_iff.mpr (Or.inr ?_))
      rw [beq_iff_eq.mp same, first.provisioned]
      exact ⟨Option.some_ne_none _, rfl⟩
    rw [found]
    rfl
  have person' : (OpsApi.provisionedUser config connection freshId person).alone
      (db.opened connection []) = (.ok row.id, db.opened connection []) :=
    stmt_read_then closed provisioned
  have linked := @insertIdentity_alone _ row _ connection
    ⟨OpsApi.issuer ops, person.uuid, row.id, person.email⟩ quiet first.stored rfl first.unbound
    first.first
  refine (stmt_read_then closed bound).trans ?_
  refine (Program.alone_bind_ok person').trans ?_
  exact Program.alone_bind_ok linked

end Found

-----------------------------------------------------------------------------------------
-- Where all addresses are in lower case
-----------------------------------------------------------------------------------------

section OneAccount

variable {jwt : Jwt} {config : AuthConfig} {tables : Accounts}

/-- Addresses in lower case that are equal but for case are equal. -/
theorem eq_of_lowerCase {text other : String} (lower : LowerCase text)
    (otherLower : LowerCase other)
    (same : eqIgnoreAsciiCase text other = true)
    : text = other := by
  have same : asciiLower text = asciiLower other := beq_iff_eq.mp same
  rw [← lower, same, otherLower]

theorem oneAccount_of_lower (good : tables.Good) (lower : ∀ row ∈ tables.users, LowerCase row.email)
    : OneAccount jwt config tables := by
  refine ⟨?_, ?_, ?_⟩
  · intro row there other otherThere same
    have address := eq_of_lowerCase (lower row there) (lower other otherThere) same
    exact good.logins row there other otherThere (sameLogin_iff.mpr (Or.inl address))
  · intro presented identity row verified first connection freshId db quiet
    have spelled : identity.email = row.email :=
      eq_of_lowerCase (verify_lower verified) (lower row first.stored) first.address
    have found :=
      @oidc_findUser_links tables row db connection config freshId quiet identity good first
      spelled
    obtain ⟨answered, kept⟩ := signedIn_alone quiet good first.stored first.active found
    have resolved : Oidc.resolveUser config connection freshId identity
        = inTransaction connection (do
            let userId ← Oidc.findUser config connection freshId identity
            checkActive connection userId) := by
      rw [Oidc.resolveUser, first.admitted]
      rfl
    rw [← resolved] at answered kept
    have whole : (Oidc.signIn jwt config connection freshId presented).alone db
        = (.ok (identity, row.id),
            ((Oidc.resolveUser config connection freshId identity).alone db).2) := by
      rw [Oidc.signIn, verified]
      exact Program.alone_bind_ok (Prod.ext answered rfl)
    rw [whole]
    exact ⟨rfl, kept⟩
  · intro ops person row first connection freshId db quiet
    have found :=
      @opsapi_findUser_links tables row db connection config freshId quiet ops person good
      first
    exact signedIn_alone quiet good first.stored first.active found

end OneAccount

/-- When the event adds a user for the administrators or the directory, the address is in lower
case.
-/
def AddsLower (system : LoginSystem) : Event Nat → Prop
  | .run call =>
      ∀ freshId request next reply after,
        system.calls[call]? = some (.step (.auto (.upsertUser freshId request)) next)
          → system.state.auto (.upsertUser freshId request) = .ok (reply, after)
            → system.state.accounts.committed.findByEmail request.email = none
              → LowerCase request.email
  | .lose _ | .env _ => True

/-- What every run that adds users in lower case keeps. -/
structure KeepsLower (system : LoginSystem) : Prop where
  sends : system.AllAlong (fun _ => Request.NamesLower) (fun _ _ => True)
  valid : Valid system.state.accounts
  addresses : Addresses system.state.accounts

/-- By cases on the move. -/
theorem KeepsLower.step {system after : LoginSystem} {event : Event Nat} (keeps : KeepsLower system)
    (adds : AddsLower system event) (moves : system.Moves elapses event after)
    : KeepsLower after := by
  refine ⟨keeps.sends.step moves, ?_, ?_⟩
  · cases moves with
    | replied issued answer => exact keeps.valid.step answer
    | refused issued answer => exact keeps.valid
    | lost issued => exact keeps.valid
    | env change => exact keeps.valid
    | idle named ended => exact keeps.valid
  · cases moves with
    | replied issued answer =>
        refine keeps.addresses.step (keeps.sends _ _ issued).1 ?_ answer
        intro freshId new same absent
        subst same
        exact adds freshId new _ _ _ issued answer absent
    | refused issued answer => exact keeps.addresses
    | lost issued => exact keeps.addresses
    | env change => exact keeps.addresses
    | idle named ended => exact keeps.addresses

/-- In every run of sign-ins and provisioning calls that adds users in lower case only, there is one
account for each address.
-/
theorem one_account_while_lower {jwt : Jwt} {config : AuthConfig} {calls : List LoginCall}
    {db : AuthDb}
    {tables : Accounts} (start : db.accounts = .start tables) (good : tables.Good)
    (lower : ∀ row ∈ tables.users, LowerCase row.email) {events : List (Event Nat)}
    (adds : (LoginSystem.start jwt config calls db).Meets elapses AddsLower events)
    : OneAccount jwt config
        ((LoginSystem.start jwt config calls db).run elapses events).state.accounts.committed := by
  have initial : KeepsLower (LoginSystem.start jwt config calls db) := by
    refine ⟨?_, ?_, ?_⟩
    · intro call program found
      obtain ⟨_, _, rfl⟩ := LoginSystem.start_calls found
      exact program_lower _
    · change Valid db.accounts
      rw [start]
      exact .start good
    · change Addresses db.accounts
      rw [start]
      exact ⟨lower, fun held member => by cases member⟩
  have ended :=
    System.run_induction elapses (fun _ _ _ keeps adds moves => keeps.step adds moves) initial adds
  exact oneAccount_of_lower ended.valid.good ended.addresses.committed

/-- A configuration under which anybody may sign in. -/
def jitConfig : AuthConfig := { plainConfig with provisioning := .jit }

def creationOf (email : String) : CreateUserRequest where
  email
  displayName := none
  externalId := none
  active := true

def aliceToken : Oidc.Presented where
  token := "t"
  jwks := [rsaKey]
  nonce := some "n"

theorem noAccounts_good : (⟨[], []⟩ : Accounts).Good := by
  refine ⟨?_, ?_, ?_, ?_, ?_⟩
  all_goals
    intro row there
    cases there

/-- The directory creates two users in lower case, and one of them signs in. -/
def lowerCreations : LoginSystem :=
  .start (jwtOf (tokenClaims (some "alice@example.com") none)) jitConfig
    [.create 1 (creationOf "alice@example.com"), .create 2 (creationOf "bob@example.com"),
      .oidc 3 aliceToken]
    (usersOnly [])

/-- The second user is created in the course of the first sign-in. -/
def lowerEvents : List (Event Nat) :=
  .run 0 :: List.replicate 3 (.run 2) ++ .run 1 :: List.replicate 4 (.run 2)

/-- Whoever signs in gets the account that the directory has created. -/
theorem one_account_of_lowerCreations
    : (lowerCreations.run elapses lowerEvents).state.accounts.committed.users.map (·.id) = [1, 2]
      ∧ (lowerCreations.run elapses lowerEvents).state.accounts.committed.identities.map (·.userId)
        = [1]
      ∧ OneAccount (jwtOf (tokenClaims (some "alice@example.com") none)) jitConfig
          (lowerCreations.run elapses lowerEvents).state.accounts.committed := by
  have adds : lowerCreations.Meets elapses AddsLower lowerEvents := by
    refine ⟨?first, ?_, ?_, ?_, ?second, ?_, ?_, ?_, ?_, trivial⟩
    case first | second =>
      intro freshId request next reply after issued
      cases issued
      intro _ _
      unfold LowerCase
      decide +kernel
    all_goals
      intro freshId request next reply after issued
      cases issued
  exact ⟨by decide +kernel, by decide +kernel,
    one_account_while_lower rfl noAccounts_good (fun row there => by cases there) adds⟩

/-- The row of a user who may sign in. -/
def memberRow (id : Uuid) (email : String) (displayName : Option String) : UserRow where
  id
  email
  displayName
  externalId := none
  active := true
  role := .member

/-- The directory creates a user in another spelling, who then signs in for the first time. -/
def spelledCreation : LoginSystem :=
  .start (jwtOf (tokenClaims (some "alice@example.com") none)) jitConfig
    [.create 1 (creationOf "Alice@Example.com"), .oidc 2 aliceToken] (usersOnly [])

/-- An address that the directory spells with capitals gets a second account at the first sign-in.
-/
theorem second_account_made
    : ¬ OneAccount (jwtOf (tokenClaims (some "alice@example.com") none)) jitConfig
        (spelledCreation.run elapses (.run 0 :: List.replicate 7 (.run 1))).state.accounts.committed := by
  intro one
  have same := one.apart (memberRow 1 "Alice@Example.com" none) (by decide +kernel)
    (memberRow 2 "alice@example.com" (some "alice@example.com")) (by decide +kernel)
    (by decide +kernel)
  exact absurd (congrArg UserRow.id same) (by decide)

end WslVpn.Auth
