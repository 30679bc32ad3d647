import WslVpn.Control.Services.Sessions

/-! Users and devices, as far as they end sessions. -/

namespace WslVpn

structure RegisterDeviceRequest where
  name : String
  platform : String
  osVersion : Option String
  agentVersion : Option String
  wireguardPublicKey : String

namespace DeviceService

/-- A device row and its certificate. Any key text of at least 40 bytes is accepted. -/
def register (state : AppState) (freshId userId : Uuid) (req : RegisterDeviceRequest)
    : Call DeviceRow := do
  if req.wireguardPublicKey.utf8ByteSize < 40 then
    throw (.badRequest "invalid wireguard public key")
  else
    let device : DeviceRow ← query (.upsertDevice {
      id := freshId
      userId
      name := req.name
      platform := req.platform
      osVersion := req.osVersion
      agentVersion := req.agentVersion
      wireguardPublicKey := req.wireguardPublicKey
      revoked := false
    })
    let now : Timestamp ← query .utcNow
    let expiresAt := now + seconds (30 * 24 * 3600)
    let certificatePem := state.certificatePem device.id userId expiresAt
    let () ← query (.insertDeviceCertificate {
      deviceId := device.id
      certificatePem
      fingerprint := state.hashToken certificatePem
      expiresAt
    })
    AuditService.record (((((AuditEntry.new "device.register").decided "allow").subject
      userId).device device.id).withDetails [
        ("platform", .text device.platform),
        ("name", .text device.name)])
    return device

def revoke (id : Uuid) : Call Bool := do
  let affected : Nat ← query (.updateDeviceRevoked id)
  if affected = 0 then return false
  else
    SessionService.revokeDeviceSessions id
    return true

end DeviceService

namespace UserService

def get (id : Uuid) : Call (Option User) := query (.selectUser id)

/-- Disabling an account also ends its sessions. -/
def update (id : Uuid) (req : UpdateUserRequest) : Call (Option User) := do
  let row : Option User ← query (.updateUser id req)
  if req.active = some false then
    SessionService.revokeUserSessions id
    return row
  else return row

def delete (id : Uuid) : Call Bool := do
  SessionService.revokeUserSessions id
  let affected : Nat ← query (.deleteUser id)
  return decide (0 < affected)

end UserService

end WslVpn
