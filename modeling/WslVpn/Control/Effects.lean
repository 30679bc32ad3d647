import WslVpn.Control.Requests

/-! What a statement does to each table. A statement that the tables below do not name leaves
them alone; the guards of those that do are stated one by one.
-/

namespace WslVpn

open AddressSpace

/-- The network of the given identifier. -/
def Db.networkAt (db : Db) (id : Uuid) : Option NetworkRow := db.networks.find? (·.id == id)

/-- A network that a nullable reference is known to have. -/
theorem optionally_networkAt {db : Db} {networkId : Option Uuid}
    (known : Db.optionally db.hasNetwork networkId = true) (id : Uuid) (named : networkId = some id)
    : ∃ network, db.networkAt id = some network := by
  subst named
  obtain ⟨network, member, same⟩ := List.any_eq_true.mp known
  cases found : db.networkAt id with
  | none => exact absurd same (by simpa using List.find?_eq_none.mp found network member)
  | some network => exact ⟨network, rfl⟩

/-- The session has no active row. -/
def Db.Ended (db : Db) (sessionId : Uuid) : Prop :=
  ∀ session ∈ db.sessions, session.id = sessionId → session.status ≠ .active

/-- The version of a gateway that a bump matches is one higher. -/
theorem versionOf_bumpWhere {db : Db} {gatewayId : Uuid} {matching : GatewayRow → Bool} {old : Int}
    (matches_ : ∀ row ∈ db.gateways, row.id = gatewayId → matching row = true)
    (stored : db.versionOf gatewayId = some old)
    : (db.bumpWhere matching).versionOf gatewayId = some (old + 1) := by
  obtain ⟨row, found, rfl⟩ := Option.map_eq_some_iff.mp stored
  have isGateway : row.id = gatewayId := by simpa using List.find?_some found
  have counted := matches_ row (List.mem_of_find?_eq_some found) isGateway
  simp only [Db.versionOf, Db.bumpWhere]
  rw [find?_updateWhere]
  · simp only [found, Option.map_some, counted, if_true]
  · exact fun _ => rfl

section Ended

variable {db : Db} {sessionId : Uuid}

theorem ended_iff_count
    : db.Ended sessionId ↔ db.sessions.countP (Db.isActiveSession sessionId) = 0 := by
  rw [List.countP_eq_zero]
  constructor
  · intro ended session member isActive
    simp only [Db.isActiveSession, Bool.and_eq_true, beq_iff_eq] at isActive
    exact ended session member isActive.1 isActive.2
  · intro none session member same active
    exact none session member (by simp [Db.isActiveSession, same, active])

theorem updateSessionRevoked_ended : (db.updateSessionRevoked sessionId).Ended sessionId := by
  intro session member same
  obtain ⟨old, _, rfl⟩ := mem_updateWhere.mp member
  split
  · simp
  · rename_i inactive
    rw [if_neg inactive] at same
    intro active
    exact inactive (by simp [Db.isActiveSession, same, active])

theorem updateSessionRevoked_of_ended (ended : db.Ended sessionId)
    : db.updateSessionRevoked sessionId = db := by
  have none : ∀ session ∈ db.sessions, Db.isActiveSession sessionId session = false := by
    intro session member
    have := List.countP_eq_zero.mp (ended_iff_count.mp ended) session member
    simpa using this
  simp only [Db.updateSessionRevoked, updateWhere_none none]

/-- A whole revocation of a session that has an active row. -/
def Db.revoked (db : Db) (sessionId : Uuid) : Db :=
  let dismantled : Db := {
    db.updateSessionRevoked sessionId with
    wireguardPeers := deleteWhere (·.sessionId == sessionId) db.wireguardPeers
    ipamAllocations := deleteWhere (·.sessionId == some sessionId) db.ipamAllocations
  }
  dismantled.bumpWhere (dismantled.isGatewayOfSession sessionId)

end Ended

/-- A table that statements write. -/
inductive Table where
  | users
  | accessTokens
  | devices
  | networks
  | routes
  | networkServices
  | gateways
  | policies
  | policyVersions
  | sessions
  | wireguardPeers
  | ipamAllocations
  deriving DecidableEq

namespace Statement

def networksAfter : Statement → Db → List NetworkRow
  | .insertNetwork id request, db =>
      match db.cidrIn request.cidr with
      | none => db.networks
      | some cidr => db.networks ++ [{
          id
          name := request.name
          cidr
          dnsServers := request.dnsServers
          dnsDomains := request.dnsDomains
        }]
  | _, db => db.networks

def gatewaysAfter : Statement → Db → List GatewayRow
  | .upsertGateway row, db =>
      match db.gateways.find? (·.name == row.name) with
      | some _ => updateWhere (·.name == row.name) (Db.reenrolled row) db.gateways
      | none => db.gateways ++ [row]
  | .updateGatewayToken id authTokenHash, db =>
      updateWhere (·.id == id) (fun row => { row with authTokenHash := some authTokenHash })
        db.gateways
  | .updateGatewayHeartbeat id, db =>
      updateWhere (·.id == id) (fun row => { row with lastHeartbeatAt := some db.now }) db.gateways
  | .bumpGateway id, db => (db.bumpWhere (·.id == id)).gateways
  | .bumpGatewaysOfSession sessionId, db =>
      (db.bumpWhere (db.isGatewayOfSession sessionId)).gateways
  | _, db => db.gateways

def sessionsAfter : Statement → Db → List SessionRow
  | .insertSession row, db => db.sessions ++ [{ row with createdAt := db.now }]
  | .updateSessionAssignedIp id assignedIp, db =>
      updateWhere (·.id == id) (fun row => { row with assignedIp }) db.sessions
  | .updateSessionRevoked id, db => (db.updateSessionRevoked id).sessions
  | .expireSessions gatewayId, db => (db.expireSessions gatewayId).sessions
  | .deleteUser id, db =>
      if db.hasUser id then deleteWhere (db.sessionGoesWith id) db.sessions else db.sessions
  | _, db => db.sessions

/-- The session is deleted together with the user. -/
def goesWithUser (db : Db) (userId sessionId : Uuid) : Bool :=
  db.sessions.any (fun session => session.id == sessionId && db.sessionGoesWith userId session)

def peersAfter : Statement → Db → List PeerRow
  | .insertPeer row, db =>
      db.wireguardPeers ++ [{ row with allowedIps := row.allowedIps.map IpNetwork.canonical }]
  | .deletePeersOfSession sessionId, db =>
      deleteWhere (·.sessionId == sessionId) db.wireguardPeers
  | .deleteExpiredPeers gatewayId, db => deleteWhere (db.expiredPeer gatewayId) db.wireguardPeers
  | .deleteUser id, db =>
      if db.hasUser id then
        deleteWhere (fun peer => goesWithUser db id peer.sessionId || db.ownsDevice id peer.deviceId)
          db.wireguardPeers
      else db.wireguardPeers
  | _, db => db.wireguardPeers

def allocationsAfter : Statement → Db → List AllocationRow
  | .insertAllocation row, db => db.ipamAllocations ++ [row]
  | .deleteAllocationsOfSession sessionId, db =>
      deleteWhere (·.sessionId == some sessionId) db.ipamAllocations
  | .deleteUser id, db =>
      if db.hasUser id then
        updateWhere (fun row => row.sessionId.any (goesWithUser db id))
          (fun row => { row with sessionId := none }) db.ipamAllocations
      else db.ipamAllocations
  | _, db => db.ipamAllocations

/-- What a statement leaves in the tables that sessions depend on. -/
structure Effect (statement : Statement) (db after : Db) : Prop where
  now : after.now = db.now
  networks : after.networks = statement.networksAfter db
  gateways : after.gateways = statement.gatewaysAfter db
  sessions : after.sessions = statement.sessionsAfter db
  peers : after.wireguardPeers = statement.peersAfter db
  allocations : after.ipamAllocations = statement.allocationsAfter db

-----------------------------------------------------------------------------------------
-- Writes that check something, when they are not refused
-----------------------------------------------------------------------------------------

theorem insertNetwork_ok {db after : Db} {id : Uuid} {request : CreateNetworkRequest}
    {reply : NetworkRow} (ran : db.insertNetwork id request = .ok (reply, after))
    : ∃ cidr, db.cidrIn request.cidr = some cidr
        ∧ (∀ row ∈ db.networks, row.id ≠ id)
        ∧ reply = ⟨id, request.name, cidr, request.dnsServers, request.dnsDomains⟩
        ∧ after = { db with networks := db.networks ++ [reply] } := by
  unfold Db.insertNetwork at ran
  split at ran
  · cases ran
  · rename_i cidr parsed
    split at ran
    · cases ran
    · rename_i unused
      cases ran
      refine ⟨cidr, parsed, ?_, rfl, rfl⟩
      intro row member same
      exact unused (List.any_eq_true.mpr ⟨row, member, by simp [same]⟩)

theorem upsertGateway_ok {db after : Db} {row reply : GatewayRow}
    (ran : db.upsertGateway row = .ok (reply, after))
    : Db.optionally db.hasNetwork row.networkId = true
      ∧ ((∃ stored ∈ db.gateways, stored.name = row.name) ∨ db.hasGateway row.id = false)
      ∧ after = { db with gateways := Statement.gatewaysAfter (.upsertGateway row) db } := by
  unfold Db.upsertGateway at ran
  split at ran
  · cases ran
  · rename_i known
    have known : Db.optionally db.hasNetwork row.networkId = true := by simpa using known
    split at ran
    · cases ran
    · split at ran
      · rename_i stored found
        cases ran
        have named : stored.name = row.name := by simpa using List.find?_some found
        refine ⟨known, Or.inl ⟨stored, List.mem_of_find?_eq_some found, named⟩, ?_⟩
        simp only [gatewaysAfter, found]
      · rename_i missing
        split at ran
        · cases ran
        · rename_i unused
          cases ran
          refine ⟨known, Or.inr (by simpa using unused), ?_⟩
          simp only [gatewaysAfter, missing]

theorem insertSession_ok {db after : Db} {row : SessionRow} {reply : Unit}
    (ran : db.insertSession row = .ok (reply, after))
    : db.hasSession row.id = false
      ∧ (db.hasUser row.userId ∧ db.hasDevice row.deviceId ∧ db.hasGateway row.gatewayId
        ∧ db.hasNetwork row.networkId)
      ∧ after = { db with sessions := db.sessions ++ [{ row with createdAt := db.now }] } := by
  unfold Db.insertSession at ran
  split at ran
  · cases ran
  · rename_i unused
    split at ran
    · rename_i known
      cases ran
      simp only [Bool.and_eq_true] at known
      exact ⟨by simpa using unused, ⟨known.1.1.1.1, known.1.1.1.2, known.1.1.2, known.1.2⟩, rfl⟩
    · cases ran

theorem insertPeer_ok {db after : Db} {row : PeerRow} {reply : Unit}
    (ran : db.insertPeer row = .ok (reply, after))
    : (db.hasSession row.sessionId ∧ db.hasGateway row.gatewayId)
      ∧ (∀ other ∈ db.wireguardPeers, other.sessionId ≠ row.sessionId)
      ∧ after = { db with
          wireguardPeers := db.wireguardPeers
            ++ [{ row with allowedIps := row.allowedIps.map IpNetwork.canonical }] } := by
  unfold Db.insertPeer at ran
  split at ran
  · cases ran
  · rename_i unused
    split at ran
    · rename_i known
      cases ran
      simp only [Bool.and_eq_true] at known
      refine ⟨known.1, ?_, rfl⟩
      intro other member same
      exact unused (List.any_eq_true.mpr ⟨other, member, by simp [same]⟩)
    · cases ran

theorem insertAllocation_ok {db after : Db} {row : AllocationRow} {reply : Unit}
    (ran : db.insertAllocation row = .ok (reply, after))
    : (∀ other ∈ db.ipamAllocations,
        ¬ (other.networkId = row.networkId ∧ other.address = row.address))
      ∧ Db.optionally db.hasSession row.sessionId
      ∧ after = { db with ipamAllocations := db.ipamAllocations ++ [row] } := by
  unfold Db.insertAllocation at ran
  split at ran
  · cases ran
  · rename_i unused
    split at ran
    · rename_i known
      cases ran
      simp only [Bool.and_eq_true] at known
      refine ⟨?_, known.2, rfl⟩
      intro other member given
      obtain ⟨network, address⟩ := given
      exact unused (List.any_eq_true.mpr ⟨other, member, by simp [network, address]⟩)
    · cases ran

theorem deleteUser_ok {db after : Db} {id : Uuid} {reply : Nat}
    (ran : db.deleteUser id = .ok (reply, after))
    : Effect (.deleteUser id) db after := by
  unfold Db.deleteUser at ran
  split at ran
  · rename_i missing
    cases ran
    have absent : db.hasUser id = false := by simpa using missing
    refine ⟨rfl, rfl, rfl, ?_, ?_, ?_⟩
    · simp [sessionsAfter, absent]
    · simp [peersAfter, absent]
    · simp [allocationsAfter, absent]
  · rename_i known
    split at ran
    · cases ran
    · cases ran
      have present : db.hasUser id = true := by simpa using known
      refine ⟨rfl, rfl, rfl, ?_, ?_, ?_⟩
      · simp only [sessionsAfter, present, if_true]
      · simp only [peersAfter, present, if_true]
        rfl
      · simp only [allocationsAfter, present, if_true]
        rfl

-----------------------------------------------------------------------------------------
-- What a statement leaves alone
-----------------------------------------------------------------------------------------

/-- The tables that a statement may change, those that its cascades reach included. -/
def written : Statement → List Table
  | .updateUser .. => [.users]
  | .deleteUser _ => [.users, .accessTokens, .devices, .sessions, .wireguardPeers, .ipamAllocations]
  | .upsertDevice _ | .updateDeviceRevoked _ => [.devices]
  | .insertNetwork .. => [.networks]
  | .insertRoute .. => [.routes]
  | .upsertService .. => [.networkServices]
  | .upsertGateway _ | .updateGatewayToken .. | .updateGatewayHeartbeat _ | .bumpGateway _
  | .bumpGatewaysOfSession _ => [.gateways]
  | .upsertPolicy .. | .updatePolicyVersion .. => [.policies]
  | .insertPolicyVersion _ => [.policyVersions]
  | .insertSession _ | .updateSessionAssignedIp .. | .updateSessionRevoked _
  | .expireSessions _ => [.sessions]
  | .insertPeer _ | .deletePeersOfSession _ | .deleteExpiredPeers _ => [.wireguardPeers]
  | .insertAllocation _ | .deleteAllocationsOfSession _ => [.ipamAllocations]
  | _ => []

/-- The statement may change the table. -/
def writes (statement : Statement) (table : Table) : Bool := statement.written.contains table

/-- What a statement does not write stays as it is. -/
structure Frame (statement : Statement) (db after : Db) : Prop where
  cidrIn : after.cidrIn = db.cidrIn
  now : after.now = db.now
  users : statement.writes .users = false → after.users = db.users
  accessTokens : statement.writes .accessTokens = false → after.accessTokens = db.accessTokens
  devices : statement.writes .devices = false → after.devices = db.devices
  networks : statement.writes .networks = false → after.networks = db.networks
  routes : statement.writes .routes = false → after.routes = db.routes
  networkServices
    : statement.writes .networkServices = false → after.networkServices = db.networkServices
  gateways : statement.writes .gateways = false → after.gateways = db.gateways
  policies : statement.writes .policies = false → after.policies = db.policies
  policyVersions
    : statement.writes .policyVersions = false → after.policyVersions = db.policyVersions
  sessions : statement.writes .sessions = false → after.sessions = db.sessions
  wireguardPeers
    : statement.writes .wireguardPeers = false → after.wireguardPeers = db.wireguardPeers
  ipamAllocations
    : statement.writes .ipamAllocations = false → after.ipamAllocations = db.ipamAllocations

theorem Frame.refl (statement : Statement) (db : Db) : Frame statement db db := by
  constructor <;> intros <;> rfl

/-- The cascades of a deletion. -/
theorem deleteUser_frame {db after : Db} {id : Uuid} {reply : Nat}
    (ran : db.deleteUser id = .ok (reply, after))
    : Frame (.deleteUser id) db after := by
  unfold Db.deleteUser at ran
  split at ran
  · cases ran
    exact Frame.refl _ _
  · split at ran
    · cases ran
    · cases ran
      exact {
        Frame.refl (.deleteUser id) db with
        users := nofun
        accessTokens := nofun
        devices := nofun
        sessions := nofun
        wireguardPeers := nofun
        ipamAllocations := nofun
      }

/-- No statement changes anything but what it writes, by cases on the statement. -/
theorem exec_frame {statement : Statement} {db after : Db} {reply : statement.Reply}
    (ran : statement.exec db = .ok (reply, after))
    : Frame statement db after := by
  have same := Frame.refl statement db
  cases statement with
  | upsertGroup | insertDeviceCertificate | insertAuditEvent =>
      simp only [exec, Db.insertDeviceCertificate, Db.insertAuditEvent] at ran
      repeat' split at ran
      all_goals cases ran <;> exact { same with }
  | upsertDevice =>
      simp only [exec, Db.upsertDevice] at ran
      repeat' split at ran
      all_goals cases ran <;> exact { same with devices := nofun }
  | deleteUser => exact deleteUser_frame ran
  | insertNetwork =>
      obtain ⟨_, _, _, _, rfl⟩ := insertNetwork_ok ran
      exact { same with networks := nofun }
  | insertRoute =>
      simp only [exec, Db.insertRoute] at ran
      repeat' split at ran
      all_goals cases ran <;> exact { same with routes := nofun }
  | upsertService =>
      simp only [exec, Db.upsertService] at ran
      repeat' split at ran
      all_goals cases ran <;> exact { same with networkServices := nofun }
  | upsertGateway =>
      rw [(upsertGateway_ok ran).2.2]
      exact { same with gateways := nofun }
  | updateGatewayToken =>
      simp only [exec, Db.updateGatewayToken] at ran
      repeat' split at ran
      all_goals cases ran <;> exact { same with gateways := nofun }
  | upsertPolicy =>
      simp only [exec] at ran
      repeat' split at ran
      all_goals cases ran <;> exact { same with policies := nofun }
  | insertPolicyVersion =>
      simp only [exec, Db.insertPolicyVersion] at ran
      repeat' split at ran
      all_goals cases ran <;> exact { same with policyVersions := nofun }
  | insertSession =>
      obtain ⟨_, _, rfl⟩ := insertSession_ok ran
      exact { same with sessions := nofun }
  | insertPeer =>
      obtain ⟨_, _, rfl⟩ := insertPeer_ok ran
      exact { same with wireguardPeers := nofun }
  | insertAllocation =>
      obtain ⟨_, _, rfl⟩ := insertAllocation_ok ran
      exact { same with ipamAllocations := nofun }
  | insertGitRevision =>
      cases ran
      exact { same with }
  | updateUser =>
      cases ran
      exact { same with users := nofun }
  | updateDeviceRevoked =>
      cases ran
      exact { same with devices := nofun }
  | updateGatewayHeartbeat | bumpGateway | bumpGatewaysOfSession =>
      cases ran
      exact { same with gateways := nofun }
  | updatePolicyVersion =>
      cases ran
      exact { same with policies := nofun }
  | updateSessionAssignedIp | updateSessionRevoked | expireSessions =>
      cases ran
      exact { same with sessions := nofun }
  | deletePeersOfSession | deleteExpiredPeers =>
      cases ran
      exact { same with wireguardPeers := nofun }
  | deleteAllocationsOfSession =>
      cases ran
      exact { same with ipamAllocations := nofun }
  | _ =>
      obtain ⟨_, rfl⟩ := Prod.mk.inj (Except.ok.inj ran)
      exact same

-----------------------------------------------------------------------------------------
-- What a statement changes
-----------------------------------------------------------------------------------------

/-- The effect of any statement, by cases on the statement. -/
theorem exec_effect {statement : Statement} {db after : Db} {reply : statement.Reply}
    (ran : statement.exec db = .ok (reply, after))
    : Effect statement db after := by
  have frame := exec_frame ran
  cases statement with
  | insertNetwork id request =>
      obtain ⟨cidr, parsed, _, rfl, rfl⟩ := insertNetwork_ok ran
      exact ⟨rfl, by simp only [networksAfter, parsed], rfl, rfl, rfl, rfl⟩
  | upsertGateway row =>
      rw [(upsertGateway_ok ran).2.2]
      exact ⟨rfl, rfl, rfl, rfl, rfl, rfl⟩
  | updateGatewayToken =>
      simp only [exec, Db.updateGatewayToken] at ran
      split at ran
      · cases ran
      · cases ran
        exact ⟨rfl, rfl, rfl, rfl, rfl, rfl⟩
  | insertSession row =>
      obtain ⟨_, _, rfl⟩ := insertSession_ok ran
      exact ⟨rfl, rfl, rfl, rfl, rfl, rfl⟩
  | insertPeer row =>
      obtain ⟨_, _, rfl⟩ := insertPeer_ok ran
      exact ⟨rfl, rfl, rfl, rfl, rfl, rfl⟩
  | insertAllocation row =>
      obtain ⟨_, _, rfl⟩ := insertAllocation_ok ran
      exact ⟨rfl, rfl, rfl, rfl, rfl, rfl⟩
  | deleteUser id => exact deleteUser_ok ran
  | updateGatewayHeartbeat | bumpGateway | bumpGatewaysOfSession | updateSessionAssignedIp
  | updateSessionRevoked | expireSessions | deletePeersOfSession | deleteExpiredPeers
  | deleteAllocationsOfSession =>
      cases ran
      exact ⟨rfl, rfl, rfl, rfl, rfl, rfl⟩
  | _ =>
      exact ⟨frame.now, frame.networks rfl, frame.gateways rfl, frame.sessions rfl,
        frame.wireguardPeers rfl, frame.ipamAllocations rfl⟩

-----------------------------------------------------------------------------------------
-- What becomes of a session
-----------------------------------------------------------------------------------------

/-- The statement ends the session. -/
def Ends (statement : Statement) (db : Db) (session : SessionRow) : Prop :=
  statement = .updateSessionRevoked session.id
  ∨ ∃ gatewayId, statement = .expireSessions gatewayId ∧ db.lapsed gatewayId session = true

/-- The address that a session has after the statement. -/
def addressAfter (statement : Statement) (session : SessionRow) : IpNetwork :=
  match statement with
  | .updateSessionAssignedIp id assignedIp => if session.id == id then assignedIp else session.assignedIp
  | _ => session.assignedIp

/-- A session before and after a statement. -/
structure Ages (statement : Statement) (db : Db) (old new : SessionRow) : Prop where
  id : new.id = old.id
  userId : new.userId = old.userId
  deviceId : new.deviceId = old.deviceId
  gatewayId : new.gatewayId = old.gatewayId
  networkId : new.networkId = old.networkId
  expiresAt : new.expiresAt = old.expiresAt
  assignedIp : new.assignedIp = statement.addressAfter old
  active : new.status = .active ↔ old.status = .active ∧ ¬ Ends statement db old

/-- The session that a statement adds. -/
def inserted (statement : Statement) (db : Db) : List SessionRow :=
  match statement with
  | .insertSession row => [{ row with createdAt := db.now }]
  | _ => []

/-- A statement that ends no session and moves no address. -/
theorem Ages.still {statement : Statement} {db : Db} (session : SessionRow)
    (address : statement.addressAfter session = session.assignedIp)
    (goesOn : ¬ Ends statement db session)
    : Ages statement db session session :=
  ⟨rfl, rfl, rfl, rfl, rfl, rfl, address.symm, ⟨fun active => ⟨active, goesOn⟩, And.left⟩⟩

/-- A statement that writes no session ends none. -/
theorem not_ends_of_unwritten {statement : Statement} {db : Db} {session : SessionRow}
    (untouched : statement.writes .sessions = false)
    : ¬ Ends statement db session := by
  rintro (rfl | ⟨_, rfl, _⟩)
  · cases untouched
  · cases untouched

theorem addressAfter_of_unwritten {statement : Statement} {session : SessionRow}
    (untouched : statement.writes .sessions = false)
    : statement.addressAfter session = session.assignedIp := by
  unfold addressAfter
  split
  · cases untouched
  · rfl

theorem inserted_of_unwritten {statement : Statement} {db : Db}
    (untouched : statement.writes .sessions = false)
    : statement.inserted db = [] := by
  unfold inserted
  split
  · cases untouched
  · rfl

/-- Every session stays, aged by the statement, unless a user is deleted. -/
theorem sessions_exec {statement : Statement} {db after : Db} {reply : statement.Reply}
    (ran : statement.exec db = .ok (reply, after)) (kept : ∀ user, statement ≠ .deleteUser user)
    : ∃ age : SessionRow → SessionRow,
        (∀ session, Ages statement db session (age session))
        ∧ after.sessions = db.sessions.map age ++ statement.inserted db := by
  have sessions := (exec_effect ran).sessions
  by_cases touched : statement.writes .sessions = false
  · refine ⟨id, fun session => ?_, ?_⟩
    · exact Ages.still session (addressAfter_of_unwritten touched) (not_ends_of_unwritten touched)
    · rw [(exec_frame ran).sessions touched, inserted_of_unwritten touched, List.map_id,
        List.append_nil]
  · cases statement with
    | deleteUser user => exact absurd rfl (kept user)
    | updateSessionAssignedIp sessionId assignedIp =>
        refine ⟨_, ?_, sessions.trans (List.append_nil _).symm⟩
        intro session
        have goesOn : ¬ Ends (.updateSessionAssignedIp sessionId assignedIp) db session := by
          rintro (⟨⟨⟩⟩ | ⟨_, ⟨⟩, _⟩)
        split
        · rename_i same
          refine ⟨rfl, rfl, rfl, rfl, rfl, rfl, ?_, ⟨fun active => ⟨active, goesOn⟩, And.left⟩⟩
          simp only [addressAfter, same, if_true]
        · rename_i other
          exact Ages.still session (by simp only [addressAfter, other]; rfl) goesOn
    | updateSessionRevoked sessionId =>
        refine ⟨_, ?_, sessions.trans (List.append_nil _).symm⟩
        intro session
        split
        · rename_i ended
          have same : session.id = sessionId := by
            simp only [Db.isActiveSession, Bool.and_eq_true, beq_iff_eq] at ended
            exact ended.1
          refine ⟨rfl, rfl, rfl, rfl, rfl, rfl, rfl, ?_⟩
          simp [Ends, same]
        · rename_i other
          refine ⟨rfl, rfl, rfl, rfl, rfl, rfl, rfl, ⟨fun active => ⟨active, ?_⟩, And.left⟩⟩
          rintro (same | ⟨_, ⟨⟩, _⟩)
          cases same
          exact other (by simp [Db.isActiveSession, active])
    | expireSessions gatewayId =>
        refine ⟨_, ?_, sessions.trans (List.append_nil _).symm⟩
        intro session
        split
        · rename_i lapsed
          refine ⟨rfl, rfl, rfl, rfl, rfl, rfl, rfl, ?_⟩
          simp [Ends, lapsed]
        · rename_i lasting
          refine ⟨rfl, rfl, rfl, rfl, rfl, rfl, rfl, ⟨fun active => ⟨active, ?_⟩, And.left⟩⟩
          rintro (⟨⟨⟩⟩ | ⟨_, same, lapsed⟩)
          cases same
          exact lasting lapsed
    | insertSession row =>
        refine ⟨id, fun session => Ages.still session rfl ?_, ?_⟩
        · rintro (⟨⟨⟩⟩ | ⟨_, ⟨⟩, _⟩)
        · rw [sessions, List.map_id]
          rfl
    | _ => exact absurd rfl touched

section Sessions

variable {statement : Statement} {db after : Db} {reply : statement.Reply}

/-- A session of the new table was in the old one, or the statement has inserted it. -/
theorem session_before (ran : statement.exec db = .ok (reply, after))
    (kept : ∀ user, statement ≠ .deleteUser user) {session : SessionRow}
    (there : session ∈ after.sessions)
    : (∃ old ∈ db.sessions, Ages statement db old session)
      ∨ ∃ row, statement = .insertSession row ∧ session = { row with createdAt := db.now } := by
  obtain ⟨age, ages, sessions⟩ := sessions_exec ran kept
  rw [sessions] at there
  rcases List.mem_append.mp there with aged | new
  · obtain ⟨old, member, rfl⟩ := List.mem_map.mp aged
    exact Or.inl ⟨old, member, ages old⟩
  · unfold inserted at new
    split at new
    · rename_i row
      exact Or.inr ⟨row, rfl, List.mem_singleton.mp new⟩
    · cases new

/-- A session of the old table is in the new one. -/
theorem session_after (ran : statement.exec db = .ok (reply, after))
    (kept : ∀ user, statement ≠ .deleteUser user) {session : SessionRow}
    (there : session ∈ db.sessions)
    : ∃ new ∈ after.sessions, Ages statement db session new := by
  obtain ⟨age, ages, sessions⟩ := sessions_exec ran kept
  refine ⟨age session, ?_, ages session⟩
  rw [sessions]
  exact List.mem_append_left _ (List.mem_map_of_mem there)

/-- Only the insert adds a session, and only the deletion of a user removes one. -/
theorem hasSession_exec (ran : statement.exec db = .ok (reply, after))
    (kept : ∀ user, statement ≠ .deleteUser user) (id : Uuid)
    : after.hasSession id = true
      ↔ db.hasSession id = true ∨ ∃ row, statement = .insertSession row ∧ row.id = id := by
  simp only [Db.hasSession, List.any_eq_true, beq_iff_eq]
  constructor
  · intro given
    obtain ⟨session, there, same⟩ := given
    rcases session_before ran kept there with ⟨old, member, ages⟩ | ⟨row, rfl, rfl⟩
    · exact Or.inl ⟨old, member, ages.id.symm.trans same⟩
    · exact Or.inr ⟨row, rfl, same⟩
  · rintro (⟨session, there, same⟩ | ⟨row, rfl, same⟩)
    · obtain ⟨new, member, ages⟩ := session_after ran kept there
      exact ⟨new, member, ages.id.trans same⟩
    · refine ⟨{ row with createdAt := db.now }, ?_, same⟩
      rw [(exec_effect ran).sessions]
      exact List.mem_append_right _ List.mem_cons_self

/-- A network keeps its row. -/
theorem network_after {id : Uuid} {network : NetworkRow}
    (ran : statement.exec db = .ok (reply, after)) (stored : db.networkAt id = some network)
    : after.networkAt id = some network := by
  rw [Db.networkAt, (exec_effect ran).networks]
  cases statement with
  | insertNetwork =>
      simp only [networksAfter]
      split
      · exact stored
      · rw [Db.networkAt] at stored
        rw [List.find?_append, stored]
        rfl
  | _ => exact stored

/-- A gateway of the new table: an old one on the same network, one that has enrolled again, or a
new one.
-/
theorem gateway_before {gateway : GatewayRow} (ran : statement.exec db = .ok (reply, after))
    (there : gateway ∈ after.gateways)
    : (∃ old ∈ db.gateways, gateway.id = old.id ∧ gateway.networkId = old.networkId)
      ∨ (∃ row, ∃ old ∈ db.gateways, statement = .upsertGateway row ∧ old.name = row.name
          ∧ gateway = Db.reenrolled row old)
      ∨ ∃ row, statement = .upsertGateway row ∧ gateway = row ∧ db.hasGateway row.id = false := by
  rw [(exec_effect ran).gateways] at there
  cases statement with
  | upsertGateway row =>
      simp only [gatewaysAfter] at there
      rcases (upsertGateway_ok ran).2.1 with ⟨stored, member, named⟩ | unused
      · split at there
        · obtain ⟨old, found, rfl⟩ := mem_updateWhere.mp there
          split
          · rename_i same
            exact Or.inr (Or.inl ⟨row, old, found, rfl, by simpa using same, rfl⟩)
          · exact Or.inl ⟨old, found, rfl, rfl⟩
        · rename_i missing
          exact absurd (by simpa using named) (List.find?_eq_none.mp missing stored member)
      · split at there
        · obtain ⟨old, found, rfl⟩ := mem_updateWhere.mp there
          split
          · rename_i same
            exact Or.inr (Or.inl ⟨row, old, found, rfl, by simpa using same, rfl⟩)
          · exact Or.inl ⟨old, found, rfl, rfl⟩
        · rcases List.mem_append.mp there with old | new
          · exact Or.inl ⟨gateway, old, rfl, rfl⟩
          · exact Or.inr (Or.inr ⟨row, rfl, List.mem_singleton.mp new, unused⟩)
  | updateGatewayToken | updateGatewayHeartbeat | bumpGateway | bumpGatewaysOfSession =>
      obtain ⟨old, found, rfl⟩ := mem_updateWhere.mp there
      refine Or.inl ⟨old, found, ?_⟩
      split <;> exact ⟨rfl, rfl⟩
  | _ => exact Or.inl ⟨gateway, there, rfl, rfl⟩

/-- Gateways are never removed. -/
theorem hasGateway_after {id : Uuid} (ran : statement.exec db = .ok (reply, after))
    (there : db.hasGateway id = true)
    : after.hasGateway id = true := by
  rw [Db.hasGateway, (exec_effect ran).gateways]
  cases statement with
  | upsertGateway row =>
      simp only [gatewaysAfter]
      split
      · rw [any_updateWhere]
        · exact there
        · exact fun _ => rfl
      · rw [List.any_append]
        exact Bool.or_eq_true_iff.mpr (Or.inl there)
  | updateGatewayToken | updateGatewayHeartbeat | bumpGateway | bumpGatewaysOfSession =>
      rw [gatewaysAfter]
      first
        | rw [any_updateWhere]
        | rw [Db.bumpWhere, any_updateWhere]
      · exact there
      · exact fun _ => rfl
  | _ => exact there

/-- Devices are deleted with their user only. -/
theorem hasDevice_after {id : Uuid} (ran : statement.exec db = .ok (reply, after))
    (kept : ∀ user, statement ≠ .deleteUser user) (there : db.hasDevice id = true)
    : after.hasDevice id = true := by
  cases touched : statement.writes .devices with
  | false =>
      rw [Db.hasDevice, (exec_frame ran).devices touched]
      exact there
  | true =>
      cases statement with
      | deleteUser user => exact absurd rfl (kept user)
      | updateDeviceRevoked =>
          cases ran
          rw [Db.hasDevice, any_updateWhere]
          · exact there
          · exact fun _ => rfl
      | upsertDevice row =>
          simp only [exec, Db.upsertDevice] at ran
          split at ran
          · cases ran
            rw [Db.hasDevice, any_updateWhere]
            · exact there
            · exact fun _ => rfl
          · repeat' split at ran
            all_goals cases ran
            rw [Db.hasDevice, List.any_append]
            exact Bool.or_eq_true_iff.mpr (Or.inl there)
      | _ => cases touched

/-- A peer of the new table was in the old one, or the statement has inserted it. -/
theorem peer_before {peer : PeerRow} (ran : statement.exec db = .ok (reply, after))
    (there : peer ∈ after.wireguardPeers)
    : peer ∈ db.wireguardPeers
      ∨ ∃ row, statement = .insertPeer row
        ∧ peer = { row with allowedIps := row.allowedIps.map IpNetwork.canonical } := by
  rw [(exec_effect ran).peers] at there
  cases statement with
  | insertPeer row =>
      rcases List.mem_append.mp there with old | new
      · exact Or.inl old
      · exact Or.inr ⟨row, rfl, List.mem_singleton.mp new⟩
  | deletePeersOfSession | deleteExpiredPeers => exact Or.inl (mem_deleteWhere.mp there).1
  | deleteUser =>
      simp only [peersAfter] at there
      split at there
      · exact Or.inl (mem_deleteWhere.mp there).1
      · exact Or.inl there
  | _ => exact Or.inl there

/-- An allocation of the new table was in the old one and has not been released, or the statement
has inserted it, or its session goes with a deleted user.
-/
theorem allocation_before {row : AllocationRow} (ran : statement.exec db = .ok (reply, after))
    (there : row ∈ after.ipamAllocations)
    : (row ∈ db.ipamAllocations
        ∧ ∀ sessionId, statement = .deleteAllocationsOfSession sessionId
            → row.sessionId ≠ some sessionId)
      ∨ statement = .insertAllocation row
      ∨ ∃ user, statement = .deleteUser user ∧ db.hasUser user = true
          ∧ ∃ old ∈ db.ipamAllocations, ∃ sessionId, old.sessionId = some sessionId
            ∧ goesWithUser db user sessionId = true := by
  rw [(exec_effect ran).allocations] at there
  cases statement with
  | insertAllocation new =>
      rcases List.mem_append.mp there with old | same
      · exact Or.inl ⟨old, by rintro _ ⟨⟩⟩
      · rw [List.mem_singleton.mp same]
        exact Or.inr (Or.inl rfl)
  | deleteAllocationsOfSession sessionId =>
      obtain ⟨old, other⟩ := mem_deleteWhere.mp there
      refine Or.inl ⟨old, ?_⟩
      rintro _ ⟨⟩
      simpa using other
  | deleteUser user =>
      simp only [allocationsAfter] at there
      split at there
      · rename_i known
        obtain ⟨old, member, rfl⟩ := mem_updateWhere.mp there
        split
        · rename_i goes
          obtain ⟨sessionId, referred, goes⟩ := (Option.any_eq_true _ _).mp goes
          exact Or.inr (Or.inr ⟨user, rfl, known, old, member, sessionId, referred, goes⟩)
        · exact Or.inl ⟨member, by rintro _ ⟨⟩⟩
      · exact Or.inl ⟨there, by rintro _ ⟨⟩⟩
  | _ => exact Or.inl ⟨there, by rintro _ ⟨⟩⟩

/-- An allocation stays until its session is released, or until a user is deleted. -/
theorem allocation_after {row : AllocationRow} (ran : statement.exec db = .ok (reply, after))
    (kept : ∀ user, statement ≠ .deleteUser user) (there : row ∈ db.ipamAllocations)
    : row ∈ after.ipamAllocations
      ∨ ∃ sessionId, statement = .deleteAllocationsOfSession sessionId
          ∧ row.sessionId = some sessionId := by
  rw [(exec_effect ran).allocations]
  cases statement with
  | insertAllocation => exact Or.inl (List.mem_append_left _ there)
  | deleteAllocationsOfSession sessionId =>
      by_cases released : row.sessionId = some sessionId
      · exact Or.inr ⟨sessionId, rfl, released⟩
      · exact Or.inl (mem_deleteWhere.mpr ⟨there, by simpa using released⟩)
  | deleteUser user => exact absurd rfl (kept user)
  | _ => exact Or.inl there

/-- An active session is ended by the statement, deleted with a user, or still active. -/
theorem active_after {sessionId : Uuid} (ran : statement.exec db = .ok (reply, after))
    (active : db.sessionActive sessionId = true)
    : after.sessionActive sessionId = true
      ∨ (∃ session ∈ db.sessions, session.id = sessionId ∧ session.status = .active
          ∧ Ends statement db session)
      ∨ ∃ user, statement = .deleteUser user ∧ db.hasUser user = true
          ∧ goesWithUser db user sessionId = true := by
  obtain ⟨session, there, isActive⟩ := List.any_eq_true.mp active
  simp only [Bool.and_eq_true, beq_iff_eq] at isActive
  by_cases deletes : ∃ user, statement = .deleteUser user
  · obtain ⟨user, rfl⟩ := deletes
    cases known : db.hasUser user with
    | false =>
        refine Or.inl ?_
        rw [Db.sessionActive, (exec_effect ran).sessions]
        simp only [sessionsAfter, known]
        exact active
    | true =>
        cases goes : db.sessionGoesWith user session with
        | true =>
            refine Or.inr (Or.inr ⟨user, rfl, known, ?_⟩)
            exact List.any_eq_true.mpr ⟨session, there, by simp [isActive.1, goes]⟩
        | false =>
            refine Or.inl ?_
            rw [Db.sessionActive, (exec_effect ran).sessions]
            simp only [sessionsAfter, known, if_true]
            refine List.any_eq_true.mpr ⟨session, mem_deleteWhere.mpr ⟨there, goes⟩, ?_⟩
            simp [isActive]
  · by_cases ended : Ends statement db session
    · exact Or.inr (Or.inl ⟨session, there, isActive.1, isActive.2, ended⟩)
    · refine Or.inl ?_
      obtain ⟨new, member, ages⟩ :=
        session_after ran (fun user same => deletes ⟨user, same⟩) there
      refine List.any_eq_true.mpr ⟨new, member, ?_⟩
      simp only [Bool.and_eq_true, beq_iff_eq]
      exact ⟨ages.id.trans isActive.1, ages.active.mpr ⟨isActive.2, ended⟩⟩

/-- A session that was known is not made active again. -/
theorem active_before {sessionId : Uuid} (ran : statement.exec db = .ok (reply, after))
    (known : db.hasSession sessionId = true) (active : after.sessionActive sessionId = true)
    : db.sessionActive sessionId = true := by
  obtain ⟨session, there, isActive⟩ := List.any_eq_true.mp active
  by_cases deletes : ∃ user, statement = .deleteUser user
  · obtain ⟨user, rfl⟩ := deletes
    refine List.any_eq_true.mpr ⟨session, ?_, isActive⟩
    rw [(exec_effect ran).sessions] at there
    simp only [sessionsAfter] at there
    split at there
    · exact (mem_deleteWhere.mp there).1
    · exact there
  · simp only [Bool.and_eq_true, beq_iff_eq] at isActive
    rcases session_before ran (fun user same => deletes ⟨user, same⟩) there with
      ⟨old, member, ages⟩ | ⟨row, rfl, rfl⟩
    · refine List.any_eq_true.mpr ⟨old, member, ?_⟩
      simp only [Bool.and_eq_true, beq_iff_eq]
      exact ⟨ages.id.symm.trans isActive.1, (ages.active.mp isActive.2).1⟩
    · have unused := (insertSession_ok ran).1
      rw [show row.id = sessionId from isActive.1, known] at unused
      cases unused

end Sessions

end Statement

end WslVpn
