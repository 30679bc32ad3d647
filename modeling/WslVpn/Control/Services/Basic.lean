import WslVpn.Control.Statements

/-! The services that the others call: the audit log, groups, networks and address allocation. -/

namespace WslVpn

open AddressSpace

/-- The part of the application state that the services read. Hashing and the text of a device
certificate come from libraries.
-/
structure AppState where
  gatewayRegistrationToken : String
  defaultPort : Nat
  hashToken : String → String
  certificatePem : Uuid → Uuid → Timestamp → String

/-- `id.to_string()`. -/
def uuidText (id : Uuid) : String := toString id

namespace AuditEntry

/-- A system-attributed event. -/
def new (action : String) : AuditEntry where
  action := action
  decision := none
  actorType := .system
  actorId := none
  userId := none
  deviceId := none
  resource := none
  policyId := none
  policyVersion := none
  gitCommit := none
  details := []

def decided (entry : AuditEntry) (decision : String) : AuditEntry :=
  { entry with decision := some decision }

/-- Sets the subject to the same user when one has not been named. -/
def byUser (entry : AuditEntry) (userId : Uuid) (email : String) : AuditEntry :=
  { entry with
    actorType := .user
    actorId := some email
    userId := entry.userId.or (some userId) }

def byService (entry : AuditEntry) (tokenName : String) : AuditEntry :=
  { entry with actorType := .service, actorId := some tokenName }

def byGateway (entry : AuditEntry) (gatewayId : Uuid) : AuditEntry :=
  { entry with actorType := .gateway, actorId := some (uuidText gatewayId) }

def subject (entry : AuditEntry) (userId : Uuid) : AuditEntry :=
  { entry with userId := some userId }

def device (entry : AuditEntry) (deviceId : Uuid) : AuditEntry :=
  { entry with deviceId := some deviceId }

def about (entry : AuditEntry) (resource : String) : AuditEntry :=
  { entry with resource := some resource }

def policy (entry : AuditEntry) (id : Uuid) (version : Int) : AuditEntry :=
  { entry with policyId := some id, policyVersion := some version }

def atCommit (entry : AuditEntry) (commit : Option String) : AuditEntry :=
  { entry with gitCommit := commit }

def withDetails (entry : AuditEntry) (details : List (String × Detail)) : AuditEntry :=
  { entry with details }

end AuditEntry

def AuditService.record (entry : AuditEntry) : Call Unit := query (.insertAuditEvent entry)

def GroupService.userGroupNames (userId : Uuid) : Call (List String) :=
  query (.selectUserGroupNames userId)

def GroupService.create (freshId : Uuid) (name : String) (description : Option String)
    : Call Uuid :=
  query (.upsertGroup freshId name description)

namespace NetworkService

def ofRow (row : NetworkRow) : Network where
  id := row.id
  name := row.name
  cidr := networkText row.cidr
  dnsServers := row.dnsServers
  dnsDomains := row.dnsDomains

def get (id : Uuid) : Call (Option Network) := do
  let row : Option NetworkRow ← query (.selectNetwork id)
  return row.map ofRow

def getByName (name : String) : Call (Option Network) := do
  let row : Option NetworkRow ← query (.selectNetworkByName name)
  return row.map ofRow

def create (freshId : Uuid) (req : CreateNetworkRequest) : Call Network := do
  let row : NetworkRow ← query (.insertNetwork freshId req)
  return ofRow row

def routesFor (networkId : Uuid) : Call (List String) := do
  let rows : List IpNetwork ← query (.selectRouteDestinations networkId)
  return rows.map networkText

end NetworkService

namespace IpamService

/-- The last octet of an IPv4 address. -/
def lastOctet (address : BitVec 32) : Nat := address.toNat % 256

/-- Network, broadcast and gateway addresses are told by the last octet, for IPv4 only. -/
def skipped : IpAddr → Bool
  | .v4 address => lastOctet address == 0 || lastOctet address == 255 || lastOctet address == 1
  | .v6 _ => false

/-- The first address of the network that may be handed out. -/
def firstFree (cidr : IpNetwork) (used : List IpAddr) : Option IpAddr :=
  cidr.iter.find? (fun addr => !skipped addr && !used.contains addr)

/-- The answer is the text of the address with the prefix length 32, for either family. -/
def allocate (networkId sessionId : Uuid) : Call String := do
  let cidr : Option IpNetwork ← query (.selectNetworkCidr networkId)
  let some cidr := cidr | throw .notFound
  let used : List IpNetwork ← query (.selectAllocatedAddresses networkId)
  match firstFree cidr (used.map IpNetwork.ip) with
  | none => throw (.badRequest "no free IP addresses in network")
  | some addr =>
      let some host := IpNetwork.new? addr 32 | throw (.badRequest "invalid prefix")
      let () ← query (.insertAllocation { networkId, address := host, sessionId := some sessionId })
      return addressText addr ++ "/32"

def releaseSession (sessionId : Uuid) : Call Unit := do
  let _ ← query (.deleteAllocationsOfSession sessionId)
  return ()

theorem releaseSession_bind {Value : Type} (sessionId : Uuid) (rest : Unit → Call Value)
    : (releaseSession sessionId >>= rest)
      = (query (.deleteAllocationsOfSession sessionId) >>= fun _ => rest ()) :=
  Interleaving.Program.bind_assoc _ _ _

end IpamService

end WslVpn
