import WslVpn.AddressSpace.RoundTrip

/-! Domain and API types shared by the control plane and the gateway. -/

namespace WslVpn

open AddressSpace

abbrev Uuid := Nat

/-- A point in time, in microseconds. -/
abbrev Timestamp := Int

/-- A span of whole seconds, in microseconds. -/
def seconds (count : Int) : Int := count * 1000000

def minutes (count : Int) : Int := seconds (count * 60)

/-- `n.to_string()` of a network or an address. -/
def networkText (network : IpNetwork) : String := String.ofList network.render

def addressText (address : IpAddr) : String := String.ofList address.render

/-- `s.parse::<IpNetwork>()`. -/
def parseNetwork (text : String) : Option IpNetwork := IpNetwork.parse text.toList

inductive SessionStatus where
  | active
  | expired
  | revoked
  deriving DecidableEq

inductive UserRole where
  | admin
  | member
  deriving DecidableEq

def UserRole.asStr : UserRole → String
  | .admin => "admin"
  | .member => "member"

inductive ServiceProtocol where
  | tcp
  | udp
  deriving DecidableEq

def ServiceProtocol.asStr : ServiceProtocol → String
  | .tcp => "tcp"
  | .udp => "udp"

/-- `protocol.parse::<ServiceProtocol>()`: the case of the letters does not matter. -/
def ServiceProtocol.fromStr (text : String) : Option ServiceProtocol :=
  let lower := text.toList.map Char.toLower
  if lower = "tcp".toList then some .tcp
  else if lower = "udp".toList then some .udp
  else none

inductive PostureResult where
  | pass
  | fail
  | unknown
  | unsupported
  deriving DecidableEq

structure PostureSignal where
  name : String
  result : PostureResult
  detail : Option String
  deriving DecidableEq

structure PolicyDecision where
  allow : Bool
  policyId : Option Uuid
  policyName : Option String
  policyVersion : Option Int
  gitCommit : Option String
  reason : String
  resources : List String
  sessionDurationSecs : Option Int
  deriving DecidableEq

structure Session where
  id : Uuid
  userId : Uuid
  deviceId : Uuid
  gatewayId : Uuid
  networkId : Uuid
  policyId : Option Uuid
  policyVersion : Option Int
  assignedIp : String
  status : SessionStatus
  createdAt : Timestamp
  expiresAt : Timestamp
  deriving DecidableEq

structure CreateSessionRequest where
  networkId : Uuid
  deviceId : Uuid
  posture : List PostureSignal

structure ClientWireGuardConfig where
  interfaceAddress : String
  dns : List String
  peerPublicKey : String
  peerEndpoint : String
  allowedIps : List String
  persistentKeepalive : Nat
  deriving DecidableEq

structure CreateSessionResponse where
  session : Session
  decision : PolicyDecision
  wireguard : ClientWireGuardConfig
  deriving DecidableEq

structure SessionIdentity where
  sessionId : Uuid
  userId : Uuid
  email : String
  deviceId : Uuid
  groups : List String
  assignedIp : String
  expiresAt : Timestamp
  deriving DecidableEq

structure Network where
  id : Uuid
  name : String
  cidr : String
  dnsServers : List String
  dnsDomains : List String
  deriving DecidableEq

structure CreateNetworkRequest where
  name : String
  cidr : String
  dnsServers : List String
  dnsDomains : List String

/-- A service as delivered to the gateway. A port is a `u16`. -/
structure GatewayService where
  name : String
  destination : String
  protocol : ServiceProtocol
  ports : List (Fin 65536)
  deriving DecidableEq

structure GatewayPeer where
  peerId : Uuid
  publicKey : String
  allowedIps : List String
  sessionId : Uuid
  expiresAt : Timestamp
  deriving DecidableEq

structure GatewayConfig where
  version : Int
  expiresAt : Timestamp
  listenPort : Nat
  privateNetworkCidr : String
  peers : List GatewayPeer
  routes : List String
  services : List GatewayService
  deriving DecidableEq

structure Gateway where
  id : Uuid
  name : String
  publicKey : String
  endpoint : String
  networkId : Option Uuid
  lastHeartbeatAt : Option Timestamp
  configVersion : Int
  deriving DecidableEq

structure RegisterGatewayRequest where
  name : String
  publicKey : String
  endpoint : String
  networkId : Option Uuid
  token : String

structure RegisterGatewayResponse where
  gateway : Gateway
  authToken : String
  deriving DecidableEq

structure RotateGatewayTokenResponse where
  gatewayId : Uuid
  authToken : String
  rotatedAt : Timestamp
  deriving DecidableEq

structure GatewayHeartbeatRequest where
  configVersion : Int
  peerCount : Int
  healthy : Bool

structure UpdateUserRequest where
  displayName : Option String
  active : Option Bool
  role : Option UserRole

structure User where
  id : Uuid
  email : String
  displayName : Option String
  externalId : Option String
  active : Bool
  role : UserRole
  deriving DecidableEq

/-- What an operation answers instead of a result. -/
inductive AppError where
  | badRequest (message : String)
  | unauthorized
  | forbidden
  | notFound
  | conflict (message : String)
  | unavailable (message : String)
  | internal
  | db
  deriving DecidableEq

@[simp] theorem parseNetwork_networkText (network : IpNetwork)
    : parseNetwork (networkText network) = some network := by
  simp only [parseNetwork, networkText, String.toList_ofList, IpNetwork.parse_render]

/-- The written form of an address with the prefix length 32. -/
theorem networkText_of_new? {address : IpAddr} {network : IpNetwork}
    (made : IpNetwork.new? address 32 = some network)
    : networkText network = addressText address ++ "/32" := by
  have digits : '/' :: Nat.toDigits 10 32 = "/32".toList := by decide
  have written : network.render = address.render ++ "/32".toList := by
    rw [← digits]
    cases address <;> cases made <;> rfl
  rw [networkText, written, String.ofList_append, String.ofList_toList, addressText]

end WslVpn
