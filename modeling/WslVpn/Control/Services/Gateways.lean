import WslVpn.Control.Services.Basic

/-! Gateways: their enrolment and the configuration that is served to them. -/

namespace WslVpn

open AddressSpace

def mapGw (row : GatewayRow) : Gateway where
  id := row.id
  name := row.name
  publicKey := row.publicKey
  endpoint := row.endpoint
  networkId := row.networkId
  lastHeartbeatAt := row.lastHeartbeatAt
  configVersion := row.configVersion

/-- The comparison reads both strings to the end; what it decides is equality. -/
def constantTimeEq (left right : String) : Bool := left == right

/-- `u16::try_from(p).ok()`. -/
def portOf (port : Int) : Option (Fin 65536) :=
  if fits : 0 ≤ port ∧ port < 65536 then some ⟨port.toNat, by omega⟩ else none

/-- A peer as it goes over the wire. -/
def servedPeer (row : PeerRow) : GatewayPeer where
  peerId := row.id
  publicKey := row.publicKey
  allowedIps := row.allowedIps.map networkText
  sessionId := row.sessionId
  expiresAt := row.expiresAt

/-- A row that the gateway cannot render is dropped. -/
def servedService (row : ServiceRow) : Option GatewayService :=
  match ServiceProtocol.fromStr row.protocol with
  | none => none
  | some protocol =>
      let ports := row.ports.filterMap portOf
      if ports.isEmpty then none
      else some {
        name := row.name
        destination := networkText row.destination
        protocol
        ports
      }

namespace GatewayService

/-- The identifier and the credential that one enrolment draws at random. -/
structure Draw where
  gatewayId : Uuid
  authToken : String

def get (id : Uuid) : Call (Option Gateway) := do
  let row : Option GatewayRow ← query (.selectGateway id)
  return row.map mapGw

/-- Whether the caller may enrol under a name that may be taken. -/
def proved (state : AppState) (presentedAuth : Option String)
    : Option (Uuid × Option String) → Bool
  | none => true
  | some (_, existingHash) =>
      match presentedAuth, existingHash with
      | some token, some hash => constantTimeEq (state.hashToken token) hash
      -- A gateway without a stored hash has nothing to prove against.
      | _, none => true
      | none, some _ => false

/-- The network of an enrolment: the one asked for, else the stored one, else `development`. -/
def networkFor (requested : Option Uuid) (existing : Option (Uuid × Option String))
    : Call (Option Uuid) :=
  match requested with
  | some id => return some id
  | none =>
      match existing with
      | some (id, _) => do
          let found : Option (Option Uuid) ← query (.selectGatewayNetwork id)
          let some networkId := found | throw .db
          return networkId
      | none => query (.selectNetworkIdByName "development")

def register (state : AppState) (draw : Draw) (req : RegisterGatewayRequest)
    (presentedAuth : Option String) : Call RegisterGatewayResponse := do
  let expected := state.hashToken state.gatewayRegistrationToken
  if !constantTimeEq (state.hashToken req.token) expected then
    throw .unauthorized
  else
    let existing : Option (Uuid × Option String) ← query (.selectGatewayByName req.name)
    if !proved state presentedAuth existing then
      throw .forbidden
    else
      let networkId ← networkFor req.networkId existing
      let row : GatewayRow ← query (.upsertGateway {
        id := draw.gatewayId
        name := req.name
        publicKey := req.publicKey
        endpoint := req.endpoint
        networkId
        registrationTokenHash := state.hashToken req.token
        authTokenHash := some (state.hashToken draw.authToken)
        lastHeartbeatAt := none
        configVersion := 0
      })
      let gateway := mapGw row
      AuditService.record (((((AuditEntry.new "gateway.enrolled").decided "allow").byGateway
        gateway.id).about gateway.name).withDetails [
          ("endpoint", .text gateway.endpoint),
          ("public_key", .text gateway.publicKey),
          ("re_enrollment", .flag existing.isSome)])
      return { gateway, authToken := draw.authToken }

/-- Replace the credential with the one that the call has drawn. -/
def rotateToken (state : AppState) (id : Uuid) (authToken : String)
    : Call (Option RotateGatewayTokenResponse) := do
  let row : Option (Uuid × Timestamp) ← query (.updateGatewayToken id (state.hashToken authToken))
  match row with
  | none => return none
  | some (gatewayId, rotatedAt) => do
      AuditService.record ((((AuditEntry.new "gateway.token_rotated").decided "allow").byGateway
        gatewayId).withDetails [("rotated_at", .time rotatedAt)])
      return some { gatewayId, authToken, rotatedAt }

/-- The configuration of a gateway that is known to serve `networkId`. -/
def configOf (state : AppState) (id : Uuid) (gw : Gateway) (networkId : Uuid)
    : Call GatewayConfig := do
  let found : Option IpNetwork ← query (.selectNetworkCidr networkId)
  let some cidr := found | throw .db
  let _ ← query (.expireSessions id)
  let _ ← query (.deleteExpiredPeers id)
  let peerRows : List PeerRow ← query (.selectServedPeers id)
  let routes : List IpNetwork ← query (.selectRouteDestinations networkId)
  let serviceRows : List ServiceRow ← query (.selectServices networkId)
  let now : Timestamp ← query .utcNow
  return {
    version := gw.configVersion
    expiresAt := now + minutes 5
    listenPort := state.defaultPort
    privateNetworkCidr := networkText cidr
    peers := peerRows.map servedPeer
    routes := routes.map networkText
    services := serviceRows.filterMap servedService
  }

def config (state : AppState) (id : Uuid) : Call GatewayConfig := do
  let gw ← get id
  let some gw := gw | throw .notFound
  match gw.networkId with
  | none => throw (.badRequest "gateway has no network_id; assign a network")
  | some networkId => configOf state id gw networkId

/-- The numbers that the gateway reports go to the metrics only. -/
def heartbeat (state : AppState) (id : Uuid) (_req : GatewayHeartbeatRequest)
    : Call GatewayConfig := do
  let _ ← query (.updateGatewayHeartbeat id)
  config state id

end GatewayService

end WslVpn
