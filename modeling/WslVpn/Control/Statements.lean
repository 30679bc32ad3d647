import WslVpn.Interleaving.System
import WslVpn.Control.Schema

/-! The statements that the services send to the database. Each one is committed on its own, so
it is atomic and what it does is visible to every other call before the next statement runs.
-/

namespace WslVpn

open AddressSpace

/-- Why the database refused a statement. -/
inductive DbError where
  | connection
  | uniqueViolation
  | foreignKeyViolation
  | checkViolation
  | invalidText
  | raised (message : String)
  deriving DecidableEq

/-- The first element that no other one is better than: `ORDER BY ... LIMIT 1`. -/
def firstBest {Row : Type} (better : Row → Row → Bool) : List Row → Option Row
  | [] => none
  | row :: rest =>
      match firstBest better rest with
      | none => some row
      | some other => if better other row then some other else some row

theorem firstBest_mem {Row : Type} {better : Row → Row → Bool} {rows : List Row} {row : Row}
    (found : firstBest better rows = some row)
    : row ∈ rows := by
  induction rows with
  | nil => cases found
  | cons head rest ih =>
      simp only [firstBest] at found
      cases tail : firstBest better rest with
      | none =>
          rw [tail] at found
          exact List.mem_cons.mpr (Or.inl (Option.some.inj found).symm)
      | some other =>
          simp only [tail] at found
          split at found
          · exact List.mem_cons_of_mem _ (ih (tail.trans found))
          · exact List.mem_cons.mpr (Or.inl (Option.some.inj found).symm)

theorem firstBest_isSome {Row : Type} {better : Row → Row → Bool} {rows : List Row} {row : Row}
    (there : row ∈ rows)
    : ∃ best, firstBest better rows = some best := by
  cases rows with
  | nil => cases there
  | cons head rest =>
      simp only [firstBest]
      split
      · exact ⟨head, rfl⟩
      · exact ⟨_, (apply_ite some _ _ _).symm⟩

/-- The rows that a matching row is replaced in, as `UPDATE ... WHERE` does. -/
def updateWhere {Row : Type} (matching : Row → Bool) (change : Row → Row) (rows : List Row)
    : List Row :=
  rows.map (fun row => if matching row then change row else row)

/-- The rows that `DELETE ... WHERE` leaves. -/
def deleteWhere {Row : Type} (matching : Row → Bool) (rows : List Row) : List Row :=
  rows.filter (fun row => !matching row)

section Tables

variable {Row : Type} {matching : Row → Bool} {change : Row → Row} {rows : List Row} {row : Row}

theorem mem_updateWhere
    : row ∈ updateWhere matching change rows
      ↔ ∃ old ∈ rows, row = if matching old then change old else old := by
  simp only [updateWhere, List.mem_map, eq_comm]

@[simp] theorem mem_deleteWhere
    : row ∈ deleteWhere matching rows ↔ row ∈ rows ∧ matching row = false := by
  simp only [deleteWhere, List.mem_filter, Bool.not_eq_true']

/-- An update that matches nothing. -/
theorem updateWhere_none (none : ∀ row ∈ rows, matching row = false)
    : updateWhere matching change rows = rows := by
  refine (List.map_congr_left ?_).trans (List.map_id rows)
  intro row member
  simp only [none row member, Bool.false_eq_true, if_false, id]

/-- A search by what the update does not touch finds the updated row. -/
theorem find?_updateWhere {sought : Row → Bool}
    (untouched : ∀ row, sought (change row) = sought row)
    : (updateWhere matching change rows).find? sought
      = (rows.find? sought).map (fun row => if matching row then change row else row) := by
  rw [updateWhere, List.find?_map]
  congr 2
  funext row
  simp only [Function.comp]
  split
  · exact untouched row
  · rfl

/-- A question about what the update does not touch. -/
theorem any_updateWhere {asked : Row → Bool} (untouched : ∀ row, asked (change row) = asked row)
    : (updateWhere matching change rows).any asked = rows.any asked := by
  rw [updateWhere, List.any_map]
  congr 1
  funext row
  simp only [Function.comp]
  split
  · exact untouched row
  · rfl

end Tables

/-- A statement of one of the services, with its bound parameters. Identifiers that the database
or the service draws at random are parameters as well.
-/
inductive Statement where
  | utcNow
  -- bearer and service authentication
  | selectBearer (tokenHash : String)
  -- groups
  | selectUserGroupNames (userId : Uuid)
  | upsertGroup (id : Uuid) (name : String) (description : Option String)
  -- users
  | selectUser (id : Uuid)
  | updateUser (id : Uuid) (request : UpdateUserRequest)
  | deleteUser (id : Uuid)
  -- devices
  | selectDeviceOfUser (id userId : Uuid)
  | upsertDevice (row : DeviceRow)
  | insertDeviceCertificate (row : DeviceCertificateRow)
  | updateDeviceRevoked (id : Uuid)
  -- networks
  | selectNetwork (id : Uuid)
  | selectNetworkByName (name : String)
  | selectNetworkCidr (id : Uuid)
  | selectNetworkIdByName (name : String)
  | insertNetwork (id : Uuid) (request : CreateNetworkRequest)
  | selectRouteDestinations (networkId : Uuid)
  | insertRoute (networkId : Uuid) (destination : String) (description : Option String)
  | selectServices (networkId : Uuid)
  | upsertService (networkId : Uuid) (name destination protocol : String) (ports : List Int)
    (description : Option String)
  -- gateways
  | selectGateway (id : Uuid)
  | selectGatewayByName (name : String)
  | selectGatewayNetwork (id : Uuid)
  | selectGatewayForNetwork (networkId : Uuid)
  | upsertGateway (row : GatewayRow)
  | updateGatewayToken (id : Uuid) (authTokenHash : String)
  | updateGatewayHeartbeat (id : Uuid)
  | bumpGateway (id : Uuid)
  | bumpGatewaysOfSession (sessionId : Uuid)
  -- policies
  | selectActivePolicies
  | selectPolicyMeta (name : String)
  | upsertPolicy (id : Uuid) (name : String) (gitCommit : Option String)
  | selectNextPolicyVersion (policyId : Uuid)
  | insertPolicyVersion (row : PolicyVersionRow)
  | updatePolicyVersion (id : Uuid) (version : Int) (gitCommit : Option String)
  | insertGitRevision (row : GitRevisionRow)
  -- sessions
  | insertSession (row : SessionRow)
  | updateSessionAssignedIp (id : Uuid) (assignedIp : IpNetwork)
  | updateSessionRevoked (id : Uuid)
  | expireSessions (gatewayId : Uuid)
  | selectSessionOwner (id : Uuid)
  | selectActiveSessionsOfUser (userId : Uuid)
  | selectActiveSessionsOfDevice (deviceId : Uuid)
  | selectIdentityByIp (host : IpNetwork)
  -- wireguard_peers
  | insertPeer (row : PeerRow)
  | deletePeersOfSession (sessionId : Uuid)
  | deleteExpiredPeers (gatewayId : Uuid)
  | selectServedPeers (gatewayId : Uuid)
  -- ipam_allocations
  | selectAllocatedAddresses (networkId : Uuid)
  | insertAllocation (row : AllocationRow)
  | deleteAllocationsOfSession (sessionId : Uuid)
  -- audit_events
  | insertAuditEvent (entry : AuditEntry)

/-- What the database answers to a statement. The answer to an update or a delete is the number
of rows it affected.
-/
@[reducible] def Statement.Reply : Statement → Type
  | .utcNow => Timestamp
  | .selectBearer _ => Option (Uuid × String × UserRole × Timestamp)
  | .selectUserGroupNames _ => List String
  | .upsertGroup .. => Uuid
  | .selectUser _ => Option User
  | .updateUser .. => Option User
  | .deleteUser _ => Nat
  | .selectDeviceOfUser .. => Option (Uuid × String × Bool)
  | .upsertDevice _ => DeviceRow
  | .insertDeviceCertificate _ => Unit
  | .updateDeviceRevoked _ => Nat
  | .selectNetwork _ => Option NetworkRow
  | .selectNetworkByName _ => Option NetworkRow
  | .selectNetworkCidr _ => Option IpNetwork
  | .selectNetworkIdByName _ => Option Uuid
  | .insertNetwork .. => NetworkRow
  | .selectRouteDestinations _ => List IpNetwork
  | .insertRoute .. => Unit
  | .selectServices _ => List ServiceRow
  | .upsertService .. => Unit
  | .selectGateway _ => Option GatewayRow
  | .selectGatewayByName _ => Option (Uuid × Option String)
  | .selectGatewayNetwork _ => Option (Option Uuid)
  | .selectGatewayForNetwork _ => Option (Uuid × String × String × Int)
  | .upsertGateway _ => GatewayRow
  | .updateGatewayToken .. => Option (Uuid × Timestamp)
  | .updateGatewayHeartbeat _ => Nat
  | .bumpGateway _ => Nat
  | .bumpGatewaysOfSession _ => Nat
  | .selectActivePolicies => List AccessPolicyDocument
  | .selectPolicyMeta _ => Option (Uuid × Int × Option String)
  | .upsertPolicy .. => Uuid
  | .selectNextPolicyVersion _ => Int
  | .insertPolicyVersion _ => PolicyVersionRow
  | .updatePolicyVersion .. => Nat
  | .insertGitRevision _ => Unit
  | .insertSession _ => Unit
  | .updateSessionAssignedIp .. => Nat
  | .updateSessionRevoked _ => Nat
  | .expireSessions _ => Nat
  | .selectSessionOwner _ => Option Uuid
  | .selectActiveSessionsOfUser _ => List Uuid
  | .selectActiveSessionsOfDevice _ => List Uuid
  | .selectIdentityByIp _ => Option (SessionRow × String)
  | .insertPeer _ => Unit
  | .deletePeersOfSession _ => Nat
  | .deleteExpiredPeers _ => Nat
  | .selectServedPeers _ => List PeerRow
  | .selectAllocatedAddresses _ => List IpNetwork
  | .insertAllocation _ => Unit
  | .deleteAllocationsOfSession _ => Nat
  | .insertAuditEvent _ => Unit

namespace Db

-----------------------------------------------------------------------------------------
-- Referential checks
-----------------------------------------------------------------------------------------

def hasUser (db : Db) (id : Uuid) : Bool := db.users.any (·.id == id)
def hasDevice (db : Db) (id : Uuid) : Bool := db.devices.any (·.id == id)
def hasNetwork (db : Db) (id : Uuid) : Bool := db.networks.any (·.id == id)
def hasGateway (db : Db) (id : Uuid) : Bool := db.gateways.any (·.id == id)
def hasSession (db : Db) (id : Uuid) : Bool := db.sessions.any (·.id == id)
def hasPolicy (db : Db) (id : Uuid) : Bool := db.policies.any (·.id == id)

/-- A nullable reference is satisfied by NULL. -/
def optionally (known : Uuid → Bool) : Option Uuid → Bool
  | none => true
  | some id => known id

-----------------------------------------------------------------------------------------
-- Writes that check something
-----------------------------------------------------------------------------------------

def insertNetwork (db : Db) (id : Uuid) (request : CreateNetworkRequest)
    : Except DbError (NetworkRow × Db) :=
  match db.cidrIn request.cidr with
  | none => .error .invalidText
  | some cidr =>
      if db.networks.any (fun row => row.id == id || row.name == request.name) then
        .error .uniqueViolation
      else
        let row : NetworkRow := {
          id
          name := request.name
          cidr
          dnsServers := request.dnsServers
          dnsDomains := request.dnsDomains
        }
        .ok (row, { db with networks := db.networks ++ [row] })

/-- `ON CONFLICT (network_id, destination) DO NOTHING`. -/
def insertRoute (db : Db) (networkId : Uuid) (destination : String)
    (description : Option String) : Except DbError (Unit × Db) :=
  match db.cidrIn destination with
  | none => .error .invalidText
  | some destination =>
      if db.routes.any (fun row => row.networkId == networkId && row.destination == destination)
      then .ok ((), db)
      else if !db.hasNetwork networkId then .error .foreignKeyViolation
      else .ok ((), { db with routes := db.routes ++ [{ networkId, destination, description }] })

/-- `ON CONFLICT (network_id, name) DO UPDATE`. -/
def upsertService (db : Db) (networkId : Uuid) (name destination protocol : String)
    (ports : List Int) (description : Option String) : Except DbError (Unit × Db) :=
  match db.cidrIn destination with
  | none => .error .invalidText
  | some destination =>
      if protocol_check : protocol = "tcp" ∨ protocol = "udp" then
        if ports_check : ports ≠ [] ∧ ∀ port ∈ ports, 0 < port ∧ port ≤ 65535 then
          let row : ServiceRow := {
            networkId, name, destination, protocol, ports, description
            protocol_check, ports_check
          }
          let sameKey (other : ServiceRow) := other.networkId == networkId && other.name == name
          if db.networkServices.any sameKey then
            .ok ((), {
              db with networkServices := updateWhere sameKey (fun _ => row) db.networkServices
            })
          else if !db.hasNetwork networkId then .error .foreignKeyViolation
          else .ok ((), { db with networkServices := db.networkServices ++ [row] })
        else .error .checkViolation
      else .error .checkViolation

/-- The row that an enrolment leaves in place of a stored one: its id, registration hash,
heartbeat and version are kept, and a NULL network keeps the stored one.
-/
def reenrolled (row stored : GatewayRow) : GatewayRow :=
  { stored with
    publicKey := row.publicKey
    endpoint := row.endpoint
    networkId := row.networkId.or stored.networkId
    authTokenHash := row.authTokenHash }

/-- `ON CONFLICT (name) DO UPDATE`. -/
def upsertGateway (db : Db) (row : GatewayRow) : Except DbError (GatewayRow × Db) :=
  if !optionally db.hasNetwork row.networkId then .error .foreignKeyViolation
  else if db.gateways.any
      (fun other => other.name != row.name && other.authTokenHash.isSome
        && other.authTokenHash == row.authTokenHash) then
    .error .uniqueViolation
  else
    match db.gateways.find? (·.name == row.name) with
    | some stored =>
        .ok (reenrolled row stored, {
          db with gateways := updateWhere (·.name == row.name) (reenrolled row) db.gateways
        })
    | none =>
        if db.hasGateway row.id then .error .uniqueViolation
        else .ok (row, { db with gateways := db.gateways ++ [row] })

/-- The hash is unique among the gateways. -/
def updateGatewayToken (db : Db) (id : Uuid) (authTokenHash : String)
    : Except DbError (Option (Uuid × Timestamp) × Db) :=
  if db.hasGateway id && db.gateways.any
      (fun other => other.id != id && other.authTokenHash == some authTokenHash) then
    .error .uniqueViolation
  else
    .ok ((db.gateways.find? (·.id == id)).map (fun row => (row.id, db.now)), {
      db with
      gateways := updateWhere (·.id == id) (fun row => { row with authTokenHash := some authTokenHash })
        db.gateways
    })

/-- `created_at` is not among the inserted columns: its default is the database's clock. -/
def insertSession (db : Db) (row : SessionRow) : Except DbError (Unit × Db) :=
  if db.hasSession row.id then .error .uniqueViolation
  else if db.hasUser row.userId && db.hasDevice row.deviceId && db.hasGateway row.gatewayId
      && db.hasNetwork row.networkId && optionally db.hasPolicy row.policyId then
    .ok ((), { db with sessions := db.sessions ++ [{ row with createdAt := db.now }] })
  else .error .foreignKeyViolation

/-- The addresses become values of type `cidr`, which clears their host bits. -/
def insertPeer (db : Db) (row : PeerRow) : Except DbError (Unit × Db) :=
  if db.wireguardPeers.any (fun other => other.id == row.id || other.sessionId == row.sessionId)
  then .error .uniqueViolation
  else if db.hasSession row.sessionId && db.hasGateway row.gatewayId && db.hasDevice row.deviceId
  then
    let row := { row with allowedIps := row.allowedIps.map IpNetwork.canonical }
    .ok ((), { db with wireguardPeers := db.wireguardPeers ++ [row] })
  else .error .foreignKeyViolation

def insertAllocation (db : Db) (row : AllocationRow) : Except DbError (Unit × Db) :=
  if db.ipamAllocations.any
      (fun other => other.networkId == row.networkId && other.address == row.address) then
    .error .uniqueViolation
  else if db.hasNetwork row.networkId && optionally db.hasSession row.sessionId then
    .ok ((), { db with ipamAllocations := db.ipamAllocations ++ [row] })
  else .error .foreignKeyViolation

def insertAuditEvent (db : Db) (entry : AuditEntry) : Except DbError (Unit × Db) :=
  if optionally db.hasUser entry.userId && optionally db.hasDevice entry.deviceId
      && optionally db.hasPolicy entry.policyId then
    .ok ((), { db with auditEvents := db.auditEvents ++ [entry] })
  else .error .foreignKeyViolation

/-- The row that a registration leaves in place of a stored one: its id and owner are kept and
the revocation is lifted.
-/
def reregistered (row stored : DeviceRow) : DeviceRow :=
  { stored with
    name := row.name
    platform := row.platform
    osVersion := row.osVersion
    agentVersion := row.agentVersion
    revoked := false }

/-- `ON CONFLICT (wireguard_public_key) DO UPDATE`. -/
def upsertDevice (db : Db) (row : DeviceRow) : Except DbError (DeviceRow × Db) :=
  match db.devices.find? (·.wireguardPublicKey == row.wireguardPublicKey) with
  | some stored =>
      .ok (reregistered row stored, {
        db with
        devices := updateWhere (·.wireguardPublicKey == row.wireguardPublicKey)
          (reregistered row) db.devices
      })
  | none =>
      if db.hasDevice row.id then .error .uniqueViolation
      else if !db.hasUser row.userId then .error .foreignKeyViolation
      else .ok (row, { db with devices := db.devices ++ [row] })

def insertDeviceCertificate (db : Db) (row : DeviceCertificateRow)
    : Except DbError (Unit × Db) :=
  if db.hasDevice row.deviceId then
    .ok ((), { db with deviceCertificates := db.deviceCertificates ++ [row] })
  else .error .foreignKeyViolation

def insertPolicyVersion (db : Db) (row : PolicyVersionRow)
    : Except DbError (PolicyVersionRow × Db) :=
  if db.policyVersions.any
      (fun other => other.policyId == row.policyId && other.version == row.version) then
    .error .uniqueViolation
  else if db.hasPolicy row.policyId then
    .ok (row, { db with policyVersions := db.policyVersions ++ [row] })
  else .error .foreignKeyViolation

-----------------------------------------------------------------------------------------
-- Deleting a user
-----------------------------------------------------------------------------------------

/-- The devices that go with a user. -/
def ownsDevice (db : Db) (userId deviceId : Uuid) : Bool :=
  db.devices.any (fun device => device.userId == userId && device.id == deviceId)

/-- The sessions that go with a user, directly or with one of the user's devices. -/
def sessionGoesWith (db : Db) (userId : Uuid) (session : SessionRow) : Bool :=
  session.userId == userId || db.ownsDevice userId session.deviceId

/-- An audit event that refers to the user or to one of the user's devices. -/
def auditRefersTo (db : Db) (userId : Uuid) (entry : AuditEntry) : Bool :=
  entry.userId == some userId || entry.deviceId.any (db.ownsDevice userId)

/-- `DELETE FROM users WHERE id = $1` with everything that the foreign keys drag along. Clearing
a reference in `audit_events` is an update, which the append-only trigger refuses.
-/
def deleteUser (db : Db) (id : Uuid) : Except DbError (Nat × Db) :=
  if !db.hasUser id then .ok (0, db)
  else if db.auditEvents.any (db.auditRefersTo id) then
    .error (.raised "audit_events is append-only; UPDATE is not permitted")
  else
    let goes (sessionId : Uuid) : Bool :=
      db.sessions.any (fun session => session.id == sessionId && db.sessionGoesWith id session)
    .ok (1, {
      db with
      users := deleteWhere (·.id == id) db.users
      accessTokens := deleteWhere (·.userId == id) db.accessTokens
      groupMemberships := deleteWhere (·.userId == id) db.groupMemberships
      devices := deleteWhere (·.userId == id) db.devices
      deviceCertificates :=
        deleteWhere (fun row => db.ownsDevice id row.deviceId) db.deviceCertificates
      sessions := deleteWhere (db.sessionGoesWith id) db.sessions
      wireguardPeers :=
        deleteWhere (fun peer => goes peer.sessionId || db.ownsDevice id peer.deviceId)
          db.wireguardPeers
      ipamAllocations :=
        updateWhere (fun row => row.sessionId.any goes) (fun row => { row with sessionId := none })
          db.ipamAllocations
    })

-----------------------------------------------------------------------------------------
-- Queries that join or order
-----------------------------------------------------------------------------------------

def userGroupNames (db : Db) (userId : Uuid) : List String :=
  db.groups.flatMap fun group =>
    (db.groupMemberships.filter
      (fun row => row.groupId == group.id && row.userId == userId)).map (fun _ => group.name)

def bearer (db : Db) (tokenHash : String) : Option (Uuid × String × UserRole × Timestamp) := do
  let token ← db.accessTokens.find? (·.tokenHash == tokenHash)
  let user ← db.users.find? (fun user => user.id == token.userId && user.active)
  some (user.id, user.email, user.role, token.expiresAt)

/-- Later heartbeats come first, and none at all comes last. -/
def laterHeartbeat (left right : GatewayRow) : Bool :=
  match left.lastHeartbeatAt, right.lastHeartbeatAt with
  | some left, some right => decide (right < left)
  | some _, none => true
  | none, _ => false

def gatewayForNetwork (db : Db) (networkId : Uuid) : Option GatewayRow :=
  firstBest laterHeartbeat (db.gateways.filter (·.networkId == some networkId))

def activePolicies (db : Db) : List AccessPolicyDocument :=
  db.policies.flatMap fun policy =>
    (db.policyVersions.filter
      (fun row => row.policyId == policy.id && row.version == policy.currentVersion)).map
      (·.document)

def nextPolicyVersion (db : Db) (policyId : Uuid) : Int :=
  ((db.policyVersions.filter (·.policyId == policyId)).map (·.version)).foldl max 0 + 1

def sessionActive (db : Db) (sessionId : Uuid) : Bool :=
  db.sessions.any (fun session => session.id == sessionId && session.status == .active)

def servedPeers (db : Db) (gatewayId : Uuid) : List PeerRow :=
  db.wireguardPeers.filter fun peer =>
    peer.gatewayId == gatewayId && db.sessionActive peer.sessionId && decide (db.now < peer.expiresAt)

def services (db : Db) (networkId : Uuid) : List ServiceRow :=
  (db.networkServices.filter (·.networkId == networkId)).insertionSort
    (fun left right => left.name ≤ right.name)

def allocatedAddresses (db : Db) (networkId : Uuid) : List IpNetwork :=
  (db.ipamAllocations.filter (·.networkId == networkId)).map (·.address)

/-- The session is at the address and may be named to a proxy. -/
def answersFor (db : Db) (host : IpNetwork) (session : SessionRow) : Bool :=
  session.assignedIp == host && session.status == .active && decide (db.now < session.expiresAt)
    && db.users.any (fun user => user.id == session.userId && user.active)

def identityByIp (db : Db) (host : IpNetwork) : Option (SessionRow × String) := do
  let session ← firstBest (fun left right => decide (right.createdAt < left.createdAt))
    (db.sessions.filter (db.answersFor host))
  let user ← db.users.find? (·.id == session.userId)
  some (session, user.email)

-----------------------------------------------------------------------------------------
-- Writes that always succeed
-----------------------------------------------------------------------------------------

def isActiveSession (id : Uuid) (session : SessionRow) : Bool :=
  session.id == id && session.status == .active

def updateSessionRevoked (db : Db) (id : Uuid) : Db :=
  { db with
    sessions := updateWhere (isActiveSession id) (fun row => { row with status := .revoked })
      db.sessions }

/-- An active session of the gateway whose lease has run out. -/
def lapsed (db : Db) (gatewayId : Uuid) (session : SessionRow) : Bool :=
  session.gatewayId == gatewayId && session.status == .active && decide (session.expiresAt < db.now)

def expireSessions (db : Db) (gatewayId : Uuid) : Db :=
  { db with
    sessions := updateWhere (db.lapsed gatewayId) (fun row => { row with status := .expired })
      db.sessions }

def expiredPeer (db : Db) (gatewayId : Uuid) (peer : PeerRow) : Bool :=
  peer.gatewayId == gatewayId && decide (peer.expiresAt < db.now)

def bumpWhere (db : Db) (matching : GatewayRow → Bool) : Db :=
  { db with
    gateways := updateWhere matching
      (fun row => { row with configVersion := row.configVersion + 1 }) db.gateways }

/-- The gateway that a session was created on. -/
def isGatewayOfSession (db : Db) (sessionId : Uuid) (gateway : GatewayRow) : Bool :=
  db.sessions.any (fun session => session.id == sessionId && session.gatewayId == gateway.id)

def userOf (db : Db) (id : Uuid) : Option User :=
  (db.users.find? (·.id == id)).map fun row => {
    id := row.id
    email := row.email
    displayName := row.displayName
    externalId := row.externalId
    active := row.active
    role := row.role
  }

def updateUser (db : Db) (id : Uuid) (request : UpdateUserRequest) : Option User × Db :=
  let change (row : UserRow) : UserRow := {
    row with
    displayName := request.displayName.or row.displayName
    active := request.active.getD row.active
    role := request.role.getD row.role
  }
  let updated := (db.users.find? (·.id == id)).map change
  (updated.map fun row => {
      id := row.id
      email := row.email
      displayName := row.displayName
      externalId := row.externalId
      active := row.active
      role := row.role
    },
    { db with users := updateWhere (·.id == id) change db.users })

end Db

/-- What a statement does to the database and what it answers. -/
def Statement.exec : (statement : Statement) → Db → Except DbError (statement.Reply × Db)
  | .utcNow, db => .ok (db.now, db)
  | .selectBearer tokenHash, db => .ok (db.bearer tokenHash, db)
  | .selectUserGroupNames userId, db => .ok (db.userGroupNames userId, db)
  | .upsertGroup id name description, db =>
      match db.groups.find? (·.name == name) with
      | some stored => .ok (stored.id, {
          db with
          groups := updateWhere (·.name == name) (fun row => { row with description }) db.groups
        })
      | none =>
          if db.groups.any (·.id == id) then .error .uniqueViolation
          else .ok (id, { db with groups := db.groups ++ [{ id, name, description }] })
  | .selectUser id, db => .ok (db.userOf id, db)
  | .updateUser id request, db => .ok (db.updateUser id request)
  | .deleteUser id, db => db.deleteUser id
  | .selectDeviceOfUser id userId, db =>
      .ok ((db.devices.find? (fun row => row.id == id && row.userId == userId)).map
        (fun row => (row.id, row.wireguardPublicKey, row.revoked)), db)
  | .upsertDevice row, db => db.upsertDevice row
  | .insertDeviceCertificate row, db => db.insertDeviceCertificate row
  | .updateDeviceRevoked id, db =>
      .ok (db.devices.countP (·.id == id), {
        db with
        devices := updateWhere (·.id == id) (fun row => { row with revoked := true }) db.devices
      })
  | .selectNetwork id, db => .ok (db.networks.find? (·.id == id), db)
  | .selectNetworkByName name, db => .ok (db.networks.find? (·.name == name), db)
  | .selectNetworkCidr id, db => .ok ((db.networks.find? (·.id == id)).map (·.cidr), db)
  | .selectNetworkIdByName name, db => .ok ((db.networks.find? (·.name == name)).map (·.id), db)
  | .insertNetwork id request, db => db.insertNetwork id request
  | .selectRouteDestinations networkId, db =>
      .ok ((db.routes.filter (·.networkId == networkId)).map (·.destination), db)
  | .insertRoute networkId destination description, db =>
      db.insertRoute networkId destination description
  | .selectServices networkId, db => .ok (db.services networkId, db)
  | .upsertService networkId name destination protocol ports description, db =>
      db.upsertService networkId name destination protocol ports description
  | .selectGateway id, db => .ok (db.gateways.find? (·.id == id), db)
  | .selectGatewayByName name, db =>
      .ok ((db.gateways.find? (·.name == name)).map (fun row => (row.id, row.authTokenHash)), db)
  | .selectGatewayNetwork id, db =>
      .ok ((db.gateways.find? (·.id == id)).map (·.networkId), db)
  | .selectGatewayForNetwork networkId, db =>
      .ok ((db.gatewayForNetwork networkId).map
        (fun row => (row.id, row.publicKey, row.endpoint, row.configVersion)), db)
  | .upsertGateway row, db => db.upsertGateway row
  | .updateGatewayToken id authTokenHash, db => db.updateGatewayToken id authTokenHash
  | .updateGatewayHeartbeat id, db =>
      .ok (db.gateways.countP (·.id == id), {
        db with
        gateways := updateWhere (·.id == id)
          (fun row => { row with lastHeartbeatAt := some db.now }) db.gateways
      })
  | .bumpGateway id, db =>
      .ok (db.gateways.countP (·.id == id), db.bumpWhere (·.id == id))
  | .bumpGatewaysOfSession sessionId, db =>
      .ok (db.gateways.countP (db.isGatewayOfSession sessionId),
        db.bumpWhere (db.isGatewayOfSession sessionId))
  | .selectActivePolicies, db => .ok (db.activePolicies, db)
  | .selectPolicyMeta name, db =>
      .ok ((db.policies.find? (·.name == name)).map
        (fun row => (row.id, row.currentVersion, row.gitCommit)), db)
  | .upsertPolicy id name gitCommit, db =>
      match db.policies.find? (·.name == name) with
      | some stored => .ok (stored.id, db)
      | none =>
          if db.hasPolicy id then .error .uniqueViolation
          else .ok (id, {
            db with policies := db.policies ++ [{ id, name, currentVersion := 0, gitCommit }]
          })
  | .selectNextPolicyVersion policyId, db => .ok (db.nextPolicyVersion policyId, db)
  | .insertPolicyVersion row, db => db.insertPolicyVersion row
  | .updatePolicyVersion id version gitCommit, db =>
      .ok (db.policies.countP (·.id == id), {
        db with
        policies := updateWhere (·.id == id)
          (fun row => { row with currentVersion := version, gitCommit }) db.policies
      })
  | .insertGitRevision row, db => .ok ((), { db with gitRevisions := db.gitRevisions ++ [row] })
  | .insertSession row, db => db.insertSession row
  | .updateSessionAssignedIp id assignedIp, db =>
      .ok (db.sessions.countP (·.id == id), {
        db with
        sessions := updateWhere (·.id == id) (fun row => { row with assignedIp }) db.sessions
      })
  | .updateSessionRevoked id, db =>
      .ok (db.sessions.countP (Db.isActiveSession id), db.updateSessionRevoked id)
  | .expireSessions gatewayId, db =>
      .ok (db.sessions.countP (db.lapsed gatewayId), db.expireSessions gatewayId)
  | .selectSessionOwner id, db => .ok ((db.sessions.find? (·.id == id)).map (·.userId), db)
  | .selectActiveSessionsOfUser userId, db =>
      .ok ((db.sessions.filter (fun row => row.userId == userId && row.status == .active)).map
        (·.id), db)
  | .selectActiveSessionsOfDevice deviceId, db =>
      .ok ((db.sessions.filter (fun row => row.deviceId == deviceId && row.status == .active)).map
        (·.id), db)
  | .selectIdentityByIp host, db => .ok (db.identityByIp host, db)
  | .insertPeer row, db => db.insertPeer row
  | .deletePeersOfSession sessionId, db =>
      .ok (db.wireguardPeers.countP (·.sessionId == sessionId), {
        db with wireguardPeers := deleteWhere (·.sessionId == sessionId) db.wireguardPeers
      })
  | .deleteExpiredPeers gatewayId, db =>
      .ok (db.wireguardPeers.countP (db.expiredPeer gatewayId), {
        db with wireguardPeers := deleteWhere (db.expiredPeer gatewayId) db.wireguardPeers
      })
  | .selectServedPeers gatewayId, db => .ok (db.servedPeers gatewayId, db)
  | .selectAllocatedAddresses networkId, db => .ok (db.allocatedAddresses networkId, db)
  | .insertAllocation row, db => db.insertAllocation row
  | .deleteAllocationsOfSession sessionId, db =>
      .ok (db.ipamAllocations.countP (·.sessionId == some sessionId), {
        db with
        ipamAllocations := deleteWhere (·.sessionId == some sessionId) db.ipamAllocations
      })
  | .insertAuditEvent entry, db => db.insertAuditEvent entry

/-- The database as a shared state of the programs that send it statements. -/
abbrev sql : Interleaving.Signature Db DbError where
  Op := Statement
  Reply := Statement.Reply
  exec := Statement.exec
  lost := .connection

/-- A service call, at any point between its statements. -/
abbrev Call (Value : Type) := Interleaving.Program sql AppError Value

/-- Send a statement; `?` turns a refusal into a database error. -/
def query (statement : Statement) : Call statement.Reply :=
  @Interleaving.Program.request Db DbError AppError sql (fun _ => .db) statement

section Execute

variable {Value : Type} {env : Nat → Db → Db} {fails : Nat → Bool} {n : Nat}
  {statement : Statement} {rest : statement.Reply → Call Value} {db : Db}

theorem execute_query_lost (lost : fails n = true)
    : (query statement >>= rest).execute env fails n db = (.error .db, env n db) :=
  Interleaving.Program.execute_request_lost env lost

theorem execute_query_answered {reply : statement.Reply} {after : Db} (arrives : fails n = false)
    (ran : statement.exec (env n db) = .ok (reply, after))
    : (query statement >>= rest).execute env fails n db
      = (rest reply).execute env fails (n + 1) after :=
  Interleaving.Program.execute_request_answered env arrives ran

theorem execute_query_refused {fault : DbError} (arrives : fails n = false)
    (ran : statement.exec (env n db) = .error fault)
    : (query statement >>= rest).execute env fails n db = (.error .db, env n db) :=
  Interleaving.Program.execute_request_refused env arrives ran

theorem alone_query_ok {reply : statement.Reply} {after : Db}
    (ran : statement.exec db = .ok (reply, after))
    : (query statement).alone db = (.ok reply, after) :=
  Interleaving.Program.alone_request_ok ran

theorem alone_query_error {fault : DbError} (ran : statement.exec db = .error fault)
    : (query statement).alone db = (.error .db, db) :=
  Interleaving.Program.alone_request_error ran

end Execute

end WslVpn
