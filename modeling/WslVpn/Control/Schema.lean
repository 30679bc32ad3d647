import WslVpn.Control.Policy

/-! The tables of the control plane, one row type for each, with the columns that the services
read or write. A table is the list of its rows in the order in which an unordered query returns
them.
-/

namespace WslVpn

open AddressSpace

structure UserRow where
  id : Uuid
  email : String
  displayName : Option String
  externalId : Option String
  active : Bool
  role : UserRole
  deriving DecidableEq

structure AccessTokenRow where
  userId : Uuid
  tokenHash : String
  expiresAt : Timestamp
  deriving DecidableEq

structure GroupRow where
  id : Uuid
  name : String
  description : Option String
  deriving DecidableEq

structure MembershipRow where
  groupId : Uuid
  userId : Uuid
  deriving DecidableEq

structure DeviceRow where
  id : Uuid
  userId : Uuid
  name : String
  platform : String
  osVersion : Option String
  agentVersion : Option String
  wireguardPublicKey : String
  revoked : Bool
  deriving DecidableEq

structure DeviceCertificateRow where
  deviceId : Uuid
  certificatePem : String
  fingerprint : String
  expiresAt : Timestamp
  deriving DecidableEq

structure NetworkRow where
  id : Uuid
  name : String
  cidr : IpNetwork
  dnsServers : List String
  dnsDomains : List String
  deriving DecidableEq

structure RouteRow where
  networkId : Uuid
  destination : IpNetwork
  description : Option String
  deriving DecidableEq

/-- The protocol and the ports carry the checks of the table. -/
structure ServiceRow where
  networkId : Uuid
  name : String
  destination : IpNetwork
  protocol : String
  ports : List Int
  description : Option String
  protocol_check : protocol = "tcp" ∨ protocol = "udp"
  ports_check : ports ≠ [] ∧ ∀ port ∈ ports, 0 < port ∧ port ≤ 65535
  deriving DecidableEq

structure GatewayRow where
  id : Uuid
  name : String
  publicKey : String
  endpoint : String
  networkId : Option Uuid
  registrationTokenHash : String
  authTokenHash : Option String
  lastHeartbeatAt : Option Timestamp
  configVersion : Int
  deriving DecidableEq

structure PolicyRow where
  id : Uuid
  name : String
  currentVersion : Int
  gitCommit : Option String
  deriving DecidableEq

structure PolicyVersionRow where
  policyId : Uuid
  version : Int
  document : AccessPolicyDocument
  gitCommit : Option String
  deriving DecidableEq

structure SessionRow where
  id : Uuid
  userId : Uuid
  deviceId : Uuid
  gatewayId : Uuid
  networkId : Uuid
  policyId : Option Uuid
  policyVersion : Option Int
  assignedIp : IpNetwork
  status : SessionStatus
  createdAt : Timestamp
  expiresAt : Timestamp
  deriving DecidableEq

/-- A row of `wireguard_peers`. -/
structure PeerRow where
  id : Uuid
  sessionId : Uuid
  gatewayId : Uuid
  deviceId : Uuid
  publicKey : String
  allowedIps : List IpNetwork
  expiresAt : Timestamp
  deriving DecidableEq

/-- A row of `ipam_allocations`. -/
structure AllocationRow where
  networkId : Uuid
  address : IpNetwork
  sessionId : Option Uuid
  deriving DecidableEq

inductive ActorType where
  | user
  | service
  | gateway
  | system
  deriving DecidableEq

/-- A field of the free-form part of an audit event. -/
inductive Detail where
  | null
  | text (value : String)
  | uuid (value : Uuid)
  | time (value : Timestamp)
  | flag (value : Bool)
  deriving DecidableEq

structure AuditEntry where
  action : String
  decision : Option String
  actorType : ActorType
  actorId : Option String
  userId : Option Uuid
  deviceId : Option Uuid
  resource : Option String
  policyId : Option Uuid
  policyVersion : Option Int
  gitCommit : Option String
  details : List (String × Detail)
  deriving DecidableEq

structure GitRevisionRow where
  commitSha : String
  path : String
  status : String
  deriving DecidableEq

/-- The database, and the clock that its server and the services share. What a text is as a `cidr`, or that
it is none, is for the server to say.
-/
structure Db where
  cidrIn : String → Option IpNetwork
  now : Timestamp
  users : List UserRow
  accessTokens : List AccessTokenRow
  groups : List GroupRow
  groupMemberships : List MembershipRow
  devices : List DeviceRow
  deviceCertificates : List DeviceCertificateRow
  networks : List NetworkRow
  routes : List RouteRow
  networkServices : List ServiceRow
  gateways : List GatewayRow
  policies : List PolicyRow
  policyVersions : List PolicyVersionRow
  sessions : List SessionRow
  wireguardPeers : List PeerRow
  ipamAllocations : List AllocationRow
  auditEvents : List AuditEntry
  gitRevisions : List GitRevisionRow

/-- The form that a column of type `cidr` is printed in: no host bits behind the prefix, and the prefix length
written out. Every server reads it back.
-/
def printedCidr (text : String) : Option IpNetwork :=
  (parseNetwork text).filter fun network => network.canonical == network && networkText network == text

/-- A database with no rows, which reads networks in the form that it prints them in. -/
def Db.empty (now : Timestamp) : Db where
  cidrIn := printedCidr
  now := now
  users := []
  accessTokens := []
  groups := []
  groupMemberships := []
  devices := []
  deviceCertificates := []
  networks := []
  routes := []
  networkServices := []
  gateways := []
  policies := []
  policyVersions := []
  sessions := []
  wireguardPeers := []
  ipamAllocations := []
  auditEvents := []
  gitRevisions := []

end WslVpn
