import WslVpn.Control.Services.Basic

/-! Sessions: their creation against the policies, their revocation and the identity behind an
overlay address.
-/

namespace WslVpn

open AddressSpace

/-- `SELECT ... FROM policies JOIN policy_versions`: the current version of every policy. -/
def loadActivePolicies : Call (List AccessPolicyDocument) := query .selectActivePolicies

def policyMeta (name : String) : Call (Option (Uuid × Int × Option String)) :=
  query (.selectPolicyMeta name)

/-- The decision with the version and the commit that the policy has by now. -/
def attachPolicyMeta (decision : PolicyDecision) : Call PolicyDecision :=
  match decision.policyName with
  | none => return decision
  | some name => do
      let found ← policyMeta name
      match found with
      | none => return decision
      | some (id, version, commit) =>
          return { decision with
            policyId := some id
            policyVersion := some version
            gitCommit := commit }

/-- The audit event of a session request, with the policy that decided it. -/
def sessionAudit (decision : PolicyDecision) (entry : AuditEntry) : AuditEntry :=
  match decision.policyId, decision.policyVersion with
  | some id, some version => entry.policy id version
  | _, _ => entry

/-- `'0.0.0.0'::inet`, the address of a session before one is allocated. -/
def placeholderAddress : IpNetwork := .v4 (.host 0)

namespace SessionService

/-- The identifiers that one call draws at random. -/
structure Draw where
  sessionId : Uuid
  peerId : Uuid

/-- The part after the session row is in place: an address, a peer, the version and the audit
event.
-/
def provision (draw : Draw) (userId : Uuid) (userEmail : String) (req : CreateSessionRequest)
    (network : Network) (gatewayId : Uuid) (gwPub gwEndpoint wgPub : String)
    (decision : PolicyDecision) (expiresAt : Timestamp) : Call CreateSessionResponse := do
  let assigned ← IpamService.allocate req.networkId draw.sessionId
  let some assignedIp := parseNetwork assigned | throw (.badRequest "invalid address")
  let _ ← query (.updateSessionAssignedIp draw.sessionId assignedIp)
  let routes ← NetworkService.routesFor req.networkId
  -- The peer gets the client address whether or not the network has routes.
  let allowedForPeer := [assignedIp]
  let () ← query (.insertPeer {
    id := draw.peerId
    sessionId := draw.sessionId
    gatewayId
    deviceId := req.deviceId
    publicKey := wgPub
    allowedIps := allowedForPeer
    expiresAt
  })
  let _ ← query (.bumpGateway gatewayId)
  AuditService.record (sessionAudit decision
    ((((((AuditEntry.new "session.create").decided "allow").byUser userId userEmail).device
      req.deviceId).about network.name).atCommit decision.gitCommit |>.withDetails [
        ("session_id", .uuid draw.sessionId),
        ("assigned_ip", .text assigned),
        ("expires_at", .time expiresAt)]))
  let createdAt : Timestamp ← query .utcNow
  return {
    session := {
      id := draw.sessionId
      userId
      deviceId := req.deviceId
      gatewayId
      networkId := req.networkId
      policyId := decision.policyId
      policyVersion := decision.policyVersion
      assignedIp := assigned
      status := .active
      createdAt
      expiresAt
    }
    decision
    wireguard := {
      interfaceAddress := assigned
      dns := network.dnsServers
      peerPublicKey := gwPub
      peerEndpoint := gwEndpoint
      allowedIps := if routes.isEmpty then [network.cidr] else routes
      persistentKeepalive := 25
    }
  }

/-- Insert the session with the placeholder address, then provision it. The database sets
`created_at` itself.
-/
def grant (draw : Draw) (userId : Uuid) (userEmail : String) (req : CreateSessionRequest)
    (network : Network) (gatewayId : Uuid) (gwPub gwEndpoint wgPub : String)
    (decision : PolicyDecision) : Call CreateSessionResponse := do
  let durationSecs := decision.sessionDurationSecs.getD (8 * 3600)
  let now : Timestamp ← query .utcNow
  let expiresAt := now + seconds durationSecs
  let () ← query (.insertSession {
    id := draw.sessionId
    userId
    deviceId := req.deviceId
    gatewayId
    networkId := req.networkId
    policyId := decision.policyId
    policyVersion := decision.policyVersion
    assignedIp := placeholderAddress
    status := .active
    createdAt := now
    expiresAt
  })
  provision draw userId userEmail req network gatewayId gwPub gwEndpoint wgPub decision expiresAt

/-- A denied request is recorded before it is answered. -/
def deny (userId : Uuid) (userEmail : String) (req : CreateSessionRequest) (network : Network)
    (decision : PolicyDecision) : Call CreateSessionResponse := do
  AuditService.record (sessionAudit decision
    ((((((AuditEntry.new "session.create").decided "deny").byUser userId userEmail).device
      req.deviceId).about network.name).atCommit decision.gitCommit |>.withDetails [
        ("reason", .text decision.reason)]))
  throw .forbidden

def create (draw : Draw) (userId : Uuid) (userEmail : String) (req : CreateSessionRequest)
    : Call CreateSessionResponse := do
  let device : Option (Uuid × String × Bool) ← query (.selectDeviceOfUser req.deviceId userId)
  let some (_, wgPub, revoked) := device | throw .notFound
  if revoked then
    throw .forbidden
  else
    let network ← NetworkService.get req.networkId
    let some network := network | throw .notFound
    let gateway : Option (Uuid × String × String × Int) ←
      query (.selectGatewayForNetwork req.networkId)
    let some (gatewayId, gwPub, gwEndpoint, _) := gateway
      | throw (.badRequest "no gateway registered for network")
    let groups ← GroupService.userGroupNames userId
    let policies ← loadActivePolicies
    let decision ← attachPolicyMeta (evaluate policies {
      userEmail
      groups
      resource := network.name
      posture := req.posture
      deviceManaged := deviceReportsManaged req.posture
    })
    if decision.allow then
      grant draw userId userEmail req network gatewayId gwPub gwEndpoint wgPub decision
    else
      deny userId userEmail req network decision

/-- The address is matched exactly, as a host of its family. -/
def identityByIp (ip : IpAddr) : Call (Option SessionIdentity) := do
  let some host := IpNetwork.new? ip (if ip.isIpv4 then 32 else 128)
    | throw (.badRequest "invalid prefix")
  let row : Option (SessionRow × String) ← query (.selectIdentityByIp host)
  match row with
  | none => return none
  | some (session, email) =>
      let groups ← GroupService.userGroupNames session.userId
      return some {
        sessionId := session.id
        userId := session.userId
        email
        deviceId := session.deviceId
        groups
        assignedIp := networkText session.assignedIp
        expiresAt := session.expiresAt
      }

/-- The statements that follow the change of status. -/
def dismantle (sessionId : Uuid) : Call Bool := do
  let _ ← query (.deletePeersOfSession sessionId)
  IpamService.releaseSession sessionId
  let _ ← query (.bumpGatewaysOfSession sessionId)
  return true

def revoke (sessionId : Uuid) : Call Bool := do
  let affected : Nat ← query (.updateSessionRevoked sessionId)
  if affected = 0 then return false else dismantle sessionId

/-- Revoke the listed sessions one after another; the first error ends the loop. -/
def revokeEach : List Uuid → Call Unit
  | [] => return ()
  | id :: rest => do
      let _ ← revoke id
      revokeEach rest

def revokeUserSessions (userId : Uuid) : Call Unit := do
  let ids : List Uuid ← query (.selectActiveSessionsOfUser userId)
  revokeEach ids

def revokeDeviceSessions (deviceId : Uuid) : Call Unit := do
  let ids : List Uuid ← query (.selectActiveSessionsOfDevice deviceId)
  revokeEach ids

end SessionService

end WslVpn
