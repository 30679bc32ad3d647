import WslVpn.Records.History
import WslVpn.Control.Versions

/-! What no interleaving of calls takes back: the log, the stored versions and the declarations
only grow, a session that has ended stays as it is, and rows go with their user alone.
-/

namespace WslVpn

open AddressSpace Interleaving Records

-----------------------------------------------------------------------------------------
-- What stays of a row
-----------------------------------------------------------------------------------------

/-- The columns named by the key stay. -/
def Lasting {Row Key : Type} (key : Row → Key) (old new : Row) : Prop := key new = key old

def UserRow.identity (row : UserRow) : Uuid × String × Option String :=
  (row.id, row.email, row.externalId)

def GroupRow.identity (row : GroupRow) : Uuid × String := (row.id, row.name)

def DeviceRow.identity (row : DeviceRow) : Uuid × Uuid × String :=
  (row.id, row.userId, row.wireguardPublicKey)

def ServiceRow.identity (row : ServiceRow) : Uuid × String := (row.networkId, row.name)

def PolicyRow.identity (row : PolicyRow) : Uuid × String := (row.id, row.name)

/-- A gateway keeps its name and its secret, its version never falls, and it stays attached. -/
structure GatewayRow.Follows (old new : GatewayRow) : Prop where
  id : new.id = old.id
  name : new.name = old.name
  registrationTokenHash : new.registrationTokenHash = old.registrationTokenHash
  configVersion : old.configVersion ≤ new.configVersion
  attached : old.networkId.isSome → new.networkId.isSome

/-- A session keeps whom and what it was granted to, under which policy and until when; once it
has ended it stays as it ended.
-/
structure SessionRow.Follows (old new : SessionRow) : Prop where
  id : new.id = old.id
  userId : new.userId = old.userId
  deviceId : new.deviceId = old.deviceId
  gatewayId : new.gatewayId = old.gatewayId
  networkId : new.networkId = old.networkId
  policyId : new.policyId = old.policyId
  policyVersion : new.policyVersion = old.policyVersion
  createdAt : new.createdAt = old.createdAt
  expiresAt : new.expiresAt = old.expiresAt
  status : old.status = .active ∨ new.status = old.status

section Rows

variable {Row Key : Type} {key : Row → Key}

theorem Lasting.refl (row : Row) : Lasting key row row := rfl

theorem Lasting.trans {first second third : Row} (before : Lasting key first second)
    (after : Lasting key second third)
    : Lasting key first third :=
  Eq.trans after before

theorem GatewayRow.Follows.refl (row : GatewayRow) : row.Follows row :=
  ⟨rfl, rfl, rfl, le_rfl, fun attached => attached⟩

theorem GatewayRow.Follows.trans {first second third : GatewayRow} (before : first.Follows second)
    (after : second.Follows third)
    : first.Follows third where
  id := after.id.trans before.id
  name := after.name.trans before.name
  registrationTokenHash := after.registrationTokenHash.trans before.registrationTokenHash
  configVersion := le_trans before.configVersion after.configVersion
  attached := fun attached => after.attached (before.attached attached)

theorem SessionRow.Follows.refl (row : SessionRow) : row.Follows row :=
  ⟨rfl, rfl, rfl, rfl, rfl, rfl, rfl, rfl, rfl, Or.inr rfl⟩

theorem SessionRow.Follows.trans {first second third : SessionRow} (before : first.Follows second)
    (after : second.Follows third)
    : first.Follows third where
  id := after.id.trans before.id
  userId := after.userId.trans before.userId
  deviceId := after.deviceId.trans before.deviceId
  gatewayId := after.gatewayId.trans before.gatewayId
  networkId := after.networkId.trans before.networkId
  policyId := after.policyId.trans before.policyId
  policyVersion := after.policyVersion.trans before.policyVersion
  createdAt := after.createdAt.trans before.createdAt
  expiresAt := after.expiresAt.trans before.expiresAt
  status := by
    rcases before.status with active | same
    · exact Or.inl active
    · rcases after.status with active | same'
      · exact Or.inl (same.symm.trans active)
      · exact Or.inr (same'.trans same)

/-- A session gets its address. -/
theorem SessionRow.Follows.addressed (row : SessionRow) (assignedIp : IpNetwork)
    : row.Follows { row with assignedIp } :=
  ⟨rfl, rfl, rfl, rfl, rfl, rfl, rfl, rfl, rfl, Or.inr rfl⟩

/-- An active session ends. -/
theorem SessionRow.Follows.ended {row : SessionRow} (active : row.status = .active)
    (status : SessionStatus)
    : row.Follows { row with status } :=
  ⟨rfl, rfl, rfl, rfl, rfl, rfl, rfl, rfl, rfl, Or.inl active⟩

theorem active_of_isActiveSession {id : Uuid} {row : SessionRow}
    (holds : Db.isActiveSession id row = true)
    : row.status = .active := by
  simp only [Db.isActiveSession, Bool.and_eq_true, beq_iff_eq] at holds
  exact holds.2

theorem active_of_lapsed {db : Db} {gatewayId : Uuid} {row : SessionRow}
    (holds : db.lapsed gatewayId row = true)
    : row.status = .active := by
  simp only [Db.lapsed, Bool.and_eq_true, beq_iff_eq] at holds
  exact holds.1.2

/-- An update that is allowed for what it matches. -/
theorem later_updateWhere {follows : Row → Row → Prop} {mayGo : Row → Prop}
    {matching : Row → Bool} {change : Row → Row} (self : ∀ row, follows row row)
    (allowed : ∀ row, matching row = true → follows row (change row)) (rows : List Row)
    : Later follows mayGo rows (updateWhere matching change rows) := by
  refine Later.map ?_ rows
  intro row
  split
  · rename_i matched
    exact allowed row matched
  · exact self row

/-- A deletion that is allowed for what it matches. -/
theorem later_deleteWhere {follows : Row → Row → Prop} {mayGo : Row → Prop}
    {matching : Row → Bool} (self : ∀ row, follows row row)
    (allowed : ∀ row, matching row = true → mayGo row) (rows : List Row)
    : Later follows mayGo rows (deleteWhere matching rows) := by
  refine Later.filter self ?_ rows
  intro row matched
  exact allowed row (by simpa using matched)

end Rows

-----------------------------------------------------------------------------------------
-- What stays of a database
-----------------------------------------------------------------------------------------

/-- The later database continues the earlier one, from which these users may have been deleted. -/
structure Db.KeptIn (deletes : Uuid → Prop) (db after : Db) : Prop where
  now : db.now ≤ after.now
  auditEvents : db.auditEvents <+: after.auditEvents
  gitRevisions : db.gitRevisions <+: after.gitRevisions
  policyVersions : db.policyVersions <+: after.policyVersions
  networks : db.networks <+: after.networks
  routes : db.routes <+: after.routes
  networkServices
    : Later (Lasting ServiceRow.identity) (fun _ => False) db.networkServices
        after.networkServices
  policies : Later (Lasting PolicyRow.identity) (fun _ => False) db.policies after.policies
  groups : Later (Lasting GroupRow.identity) (fun _ => False) db.groups after.groups
  gateways : Later GatewayRow.Follows (fun _ => False) db.gateways after.gateways
  users : Later (Lasting UserRow.identity) (fun row => deletes row.id) db.users after.users
  accessTokens
    : Later Eq (fun row => deletes row.userId) db.accessTokens after.accessTokens
  groupMemberships
    : Later Eq (fun row => deletes row.userId) db.groupMemberships after.groupMemberships
  devices
    : Later (Lasting DeviceRow.identity) (fun row => deletes row.userId) db.devices after.devices
  deviceCertificates
    : Later Eq (fun _ => ∃ userId, deletes userId) db.deviceCertificates after.deviceCertificates
  sessions
    : Later SessionRow.Follows (fun _ => ∃ userId, deletes userId) db.sessions after.sessions

namespace Db.KeptIn

variable {deletes : Uuid → Prop} {db after final : Db} {statement : Statement}
  {reply : statement.Reply}

theorem refl (deletes : Uuid → Prop) (db : Db) : KeptIn deletes db db where
  now := le_rfl
  auditEvents := List.prefix_rfl
  gitRevisions := List.prefix_rfl
  policyVersions := List.prefix_rfl
  networks := List.prefix_rfl
  routes := List.prefix_rfl
  networkServices := .refl Lasting.refl _
  policies := .refl Lasting.refl _
  groups := .refl Lasting.refl _
  gateways := .refl GatewayRow.Follows.refl _
  users := .refl Lasting.refl _
  accessTokens := .refl Eq.refl _
  groupMemberships := .refl Eq.refl _
  devices := .refl Lasting.refl _
  deviceCertificates := .refl Eq.refl _
  sessions := .refl SessionRow.Follows.refl _

/-- What may go later might have gone before. -/
theorem trans (first : KeptIn deletes db after) (second : KeptIn deletes after final)
    : KeptIn deletes db final where
  now := le_trans first.now second.now
  auditEvents := first.auditEvents.trans second.auditEvents
  gitRevisions := first.gitRevisions.trans second.gitRevisions
  policyVersions := first.policyVersions.trans second.policyVersions
  networks := first.networks.trans second.networks
  routes := first.routes.trans second.routes
  networkServices := first.networkServices.trans Lasting.trans (fun _ gone => gone)
    second.networkServices
  policies := first.policies.trans Lasting.trans (fun _ gone => gone) second.policies
  groups := first.groups.trans Lasting.trans (fun _ gone => gone) second.groups
  gateways := first.gateways.trans GatewayRow.Follows.trans (fun _ gone => gone) second.gateways
  users := by
    refine first.users.trans Lasting.trans ?_ second.users
    intro old new lasting deleted
    have same : new.id = old.id := congrArg Prod.fst lasting
    rwa [← same]
  accessTokens := first.accessTokens.trans Eq.trans (fun same gone => same ▸ gone)
    second.accessTokens
  groupMemberships := first.groupMemberships.trans Eq.trans (fun same gone => same ▸ gone)
    second.groupMemberships
  devices := by
    refine first.devices.trans Lasting.trans ?_ second.devices
    intro old new lasting deleted
    have same : new.userId = old.userId := congrArg (fun identity => identity.2.1) lasting
    rwa [← same]
  deviceCertificates := first.deviceCertificates.trans Eq.trans (fun _ gone => gone)
    second.deviceCertificates
  sessions := first.sessions.trans SessionRow.Follows.trans (fun _ gone => gone) second.sessions

/-- The clock moves forward. -/
theorem elapse (passed : Nat) : KeptIn deletes db (elapse passed db) :=
  { refl deletes db with now := Int.le_add_of_nonneg_right (Int.natCast_nonneg passed) }

-----------------------------------------------------------------------------------------
-- Statements
-----------------------------------------------------------------------------------------

theorem of_upsertGroup {id : Uuid} {name : String} {description : Option String} {reply : Uuid}
    (ran : (Statement.upsertGroup id name description).exec db = .ok (reply, after))
    : KeptIn deletes db after := by
  simp only [Statement.exec] at ran
  split at ran
  · cases ran
    refine { refl deletes db with groups := later_updateWhere Lasting.refl ?_ _ }
    exact fun _ _ => rfl
  · split at ran
    · cases ran
    · cases ran
      exact { refl deletes db with groups := .append Lasting.refl _ _ }

theorem of_insertRoute {networkId : Uuid} {destination : String} {description : Option String}
    (ran : db.insertRoute networkId destination description = .ok ((), after))
    : KeptIn deletes db after := by
  unfold Db.insertRoute at ran
  split at ran
  · cases ran
  · split at ran
    · cases ran
      exact refl deletes db
    · split at ran
      · cases ran
      · cases ran
        exact { refl deletes db with routes := List.prefix_append _ _ }

/-- A service is replaced by one of the same network and name. -/
theorem of_upsertService {networkId : Uuid} {name destination protocol : String}
    {ports : List Int} {description : Option String}
    (ran
      : db.upsertService networkId name destination protocol ports description = .ok ((), after))
    : KeptIn deletes db after := by
  unfold Db.upsertService at ran
  split at ran
  · cases ran
  · split at ran
    · split at ran
      · dsimp only at ran
        split at ran
        · cases ran
          refine { refl deletes db with networkServices := later_updateWhere Lasting.refl ?_ _ }
          intro row same
          simp only [Bool.and_eq_true, beq_iff_eq] at same
          simp only [Lasting, ServiceRow.identity, same]
        · split at ran
          · cases ran
          · cases ran
            exact { refl deletes db with networkServices := .append Lasting.refl _ _ }
      · cases ran
    · cases ran

/-- An enrolment leaves the identity and the version, and attaches at most. -/
theorem of_upsertGateway {row reply : GatewayRow}
    (ran : db.upsertGateway row = .ok (reply, after))
    : KeptIn deletes db after := by
  obtain ⟨_, _, rfl⟩ := Statement.upsertGateway_ok ran
  refine { refl deletes db with gateways := ?_ }
  simp only [Statement.gatewaysAfter]
  split
  · refine later_updateWhere GatewayRow.Follows.refl ?_ _
    intro stored _
    refine ⟨rfl, rfl, rfl, le_rfl, ?_⟩
    intro attached
    cases given : row.networkId with
    | none => simpa [Db.reenrolled, given] using attached
    | some networkId => simp [Db.reenrolled, given]
  · exact .append GatewayRow.Follows.refl _ _

theorem of_updateGatewayToken {id : Uuid} {authTokenHash : String}
    {reply : Option (Uuid × Timestamp)}
    (ran : db.updateGatewayToken id authTokenHash = .ok (reply, after))
    : KeptIn deletes db after := by
  unfold Db.updateGatewayToken at ran
  split at ran
  · cases ran
  · cases ran
    refine { refl deletes db with gateways := later_updateWhere GatewayRow.Follows.refl ?_ _ }
    exact fun _ _ => ⟨rfl, rfl, rfl, le_rfl, fun attached => attached⟩

theorem bumpWhere (matching : GatewayRow → Bool)
    : KeptIn deletes db (db.bumpWhere matching) := by
  refine { refl deletes db with gateways := later_updateWhere GatewayRow.Follows.refl ?_ _ }
  exact fun row _ => ⟨rfl, rfl, rfl, Int.le_add_of_nonneg_right (by decide), fun attached => attached⟩

theorem of_upsertDevice {row reply : DeviceRow} (ran : db.upsertDevice row = .ok (reply, after))
    : KeptIn deletes db after := by
  unfold Db.upsertDevice at ran
  split at ran
  · cases ran
    refine { refl deletes db with devices := later_updateWhere Lasting.refl ?_ _ }
    exact fun _ _ => rfl
  · split at ran
    · cases ran
    · split at ran
      · cases ran
      · cases ran
        exact { refl deletes db with devices := .append Lasting.refl _ _ }

theorem of_insertDeviceCertificate {row : DeviceCertificateRow}
    (ran : db.insertDeviceCertificate row = .ok ((), after))
    : KeptIn deletes db after := by
  unfold Db.insertDeviceCertificate at ran
  split at ran
  · cases ran
    exact { refl deletes db with deviceCertificates := .append Eq.refl _ _ }
  · cases ran

theorem of_insertAuditEvent {entry : AuditEntry}
    (ran : db.insertAuditEvent entry = .ok ((), after))
    : KeptIn deletes db after := by
  unfold Db.insertAuditEvent at ran
  split at ran
  · cases ran
    exact { refl deletes db with auditEvents := List.prefix_append _ _ }
  · cases ran

/-- The user goes with what is the user's own. -/
theorem of_deleteUser {id : Uuid} {reply : Nat} (deleted : deletes id)
    (ran : db.deleteUser id = .ok (reply, after))
    : KeptIn deletes db after := by
  unfold Db.deleteUser at ran
  split at ran
  · cases ran
    exact refl deletes db
  · split at ran
    · cases ran
    · cases ran
      exact {
        refl deletes db with
        users := later_deleteWhere Lasting.refl (fun row same => eq_of_beq same ▸ deleted) _
        accessTokens := later_deleteWhere Eq.refl (fun row same => eq_of_beq same ▸ deleted) _
        groupMemberships := later_deleteWhere Eq.refl (fun row same => eq_of_beq same ▸ deleted) _
        devices := later_deleteWhere Lasting.refl (fun row same => eq_of_beq same ▸ deleted) _
        deviceCertificates := later_deleteWhere Eq.refl (fun _ _ => ⟨id, deleted⟩) _
        sessions := later_deleteWhere SessionRow.Follows.refl (fun _ _ => ⟨id, deleted⟩) _
      }

/-- A session is changed in its address, or ended. -/
theorem of_sessionUpdate {matching : SessionRow → Bool} {change : SessionRow → SessionRow}
    (allowed : ∀ row, matching row = true → row.Follows (change row))
    : KeptIn deletes db { db with sessions := updateWhere matching change db.sessions } :=
  { refl deletes db with sessions := later_updateWhere SessionRow.Follows.refl allowed _ }

/-- No statement takes anything back but the deletion of a user, by cases on the statement. -/
theorem of_exec (ran : statement.exec db = .ok (reply, after))
    (allowed : ∀ id, statement = .deleteUser id → deletes id)
    : KeptIn deletes db after := by
  cases statement with
  | upsertGroup id name description => exact of_upsertGroup ran
  | updateUser id request =>
      cases ran
      refine { refl deletes db with users := later_updateWhere Lasting.refl ?_ _ }
      exact fun _ _ => rfl
  | deleteUser id => exact of_deleteUser (allowed id rfl) ran
  | upsertDevice row => exact of_upsertDevice ran
  | insertDeviceCertificate row => exact of_insertDeviceCertificate ran
  | updateDeviceRevoked id =>
      cases ran
      refine { refl deletes db with devices := later_updateWhere Lasting.refl ?_ _ }
      exact fun _ _ => rfl
  | insertNetwork id request =>
      obtain ⟨_, _, _, _, rfl⟩ := Statement.insertNetwork_ok ran
      exact { refl deletes db with networks := List.prefix_append _ _ }
  | insertRoute networkId destination description => exact of_insertRoute ran
  | upsertService networkId name destination protocol ports description =>
      exact of_upsertService ran
  | upsertGateway row => exact of_upsertGateway ran
  | updateGatewayToken id authTokenHash => exact of_updateGatewayToken ran
  | updateGatewayHeartbeat id =>
      cases ran
      refine { refl deletes db with gateways := later_updateWhere GatewayRow.Follows.refl ?_ _ }
      exact fun _ _ => ⟨rfl, rfl, rfl, le_rfl, fun attached => attached⟩
  | bumpGateway id =>
      cases ran
      exact bumpWhere _
  | bumpGatewaysOfSession sessionId =>
      cases ran
      exact bumpWhere _
  | upsertPolicy id name gitCommit =>
      rcases Statement.upsertPolicy_ok ran with ⟨_, rfl⟩ | ⟨_, _, _, rfl⟩
      · exact refl deletes after
      · exact { refl deletes db with policies := .append Lasting.refl _ _ }
  | insertPolicyVersion row =>
      obtain ⟨_, _, _, rfl⟩ := Statement.insertPolicyVersion_ok ran
      exact { refl deletes db with policyVersions := List.prefix_append _ _ }
  | updatePolicyVersion id version gitCommit =>
      cases ran
      refine { refl deletes db with policies := later_updateWhere Lasting.refl ?_ _ }
      exact fun _ _ => rfl
  | insertGitRevision row =>
      cases ran
      exact { refl deletes db with gitRevisions := List.prefix_append _ _ }
  | insertSession row =>
      obtain ⟨_, _, rfl⟩ := Statement.insertSession_ok ran
      exact { refl deletes db with sessions := .append SessionRow.Follows.refl _ _ }
  | updateSessionAssignedIp id assignedIp =>
      cases ran
      exact of_sessionUpdate (fun row _ => .addressed row assignedIp)
  | updateSessionRevoked id =>
      cases ran
      exact of_sessionUpdate (fun _ active => .ended (active_of_isActiveSession active) .revoked)
  | expireSessions gatewayId =>
      cases ran
      exact of_sessionUpdate (fun _ lapsed => .ended (active_of_lapsed lapsed) .expired)
  | insertPeer row =>
      obtain ⟨_, _, rfl⟩ := Statement.insertPeer_ok ran
      exact { refl deletes db with }
  | insertAllocation row =>
      obtain ⟨_, _, rfl⟩ := Statement.insertAllocation_ok ran
      exact { refl deletes db with }
  | deletePeersOfSession sessionId =>
      cases ran
      exact { refl deletes db with }
  | deleteExpiredPeers gatewayId =>
      cases ran
      exact { refl deletes db with }
  | deleteAllocationsOfSession sessionId =>
      cases ran
      exact { refl deletes db with }
  | insertAuditEvent entry => exact of_insertAuditEvent ran
  | _ =>
      cases ran
      exact refl deletes db

end Db.KeptIn

-----------------------------------------------------------------------------------------
-- Runs
-----------------------------------------------------------------------------------------

variable {deletes : Uuid → Prop} {requests : List Request}

/-- One event continues the database, when the deletions to come are among those of the requests. -/
theorem Db.KeptIn.step {plane after : ControlPlane} {turn : Turn}
    (sends : plane.AllAlong (Sends requests) (fun _ _ => True))
    (moves : plane.Moves WslVpn.elapse turn after)
    : Db.KeptIn (fun userId => .deleteUser userId ∈ requests) plane.state after.state := by
  cases moves with
  | @replied call statement next reply db issued answer =>
      refine Db.KeptIn.of_exec answer ?_
      rintro id rfl
      obtain ⟨request, made, issues⟩ := (sends call _ issued).1
      rw [← Request.issues_deleteUser issues]
      exact List.mem_of_getElem? made
  | refused => exact .refl _ _
  | lost => exact .refl _ _
  | env passed => exact .elapse passed
  | idle => exact .refl _ _

/-- By induction on the schedule. -/
theorem Db.KeptIn.run {plane : ControlPlane}
    (sends : plane.AllAlong (Sends requests) (fun _ _ => True)) (turns : List Turn)
    : Db.KeptIn (fun userId => .deleteUser userId ∈ requests) plane.state
        (plane.after turns).state := by
  induction turns generalizing plane with
  | nil => exact .refl _ _
  | cons turn rest ih =>
      have moves := System.handle_moves WslVpn.elapse plane turn
      exact (Db.KeptIn.step sends moves).trans (ih (sends.step moves))

/-- Any two moments of any run, whatever calls are interleaved, lost or delayed: the later database
continues the earlier one, and what is missing went with a user whose deletion was requested.
-/
theorem history_continues (state : AppState) (requests : List Request) (db : Db)
    (before later : List Turn)
    : Db.KeptIn (fun userId => .deleteUser userId ∈ requests)
        ((ControlPlane.start state requests db).after before).state
        ((ControlPlane.start state requests db).after (before ++ later)).state := by
  have sends : ((ControlPlane.start state requests db).after before).AllAlong (Sends requests)
      (fun _ _ => True) := ControlPlane.start_sends.run before
  rw [ControlPlane.after, ControlPlane.after, System.run_append]
  exact Db.KeptIn.run sends later

end WslVpn
