import WslVpn.Records.Unique
import WslVpn.Control.Requests

/-! What a registration does to devices of others and to revoked ones. It is an upsert on the public
key, whoever owns the row that has the key.
-/

namespace WslVpn

open Interleaving

/-- The database after a registration that nobody disturbs. -/
def registered (state : AppState) (freshId userId : Uuid) (req : RegisterDeviceRequest) (db : Db)
    : Db :=
  ((DeviceService.register state freshId userId req).execute (fun _ db => db) (fun _ => false) 0
    db).2

def Db.certificatesOf (db : Db) (deviceId : Uuid) : List DeviceCertificateRow :=
  db.deviceCertificates.filter (·.deviceId == deviceId)

/-- Nothing that others own has changed, and what was revoked still is. -/
structure OwnershipKept (userId : Uuid) (db after : Db) : Prop where
  foreign
    : ∀ device ∈ db.devices, device.userId ≠ userId →
        device ∈ after.devices
        ∧ after.certificatesOf device.id = db.certificatesOf device.id
  revoked
    : ∀ device ∈ db.devices, device.revoked = true →
        ∀ now ∈ after.devices, now.id = device.id → now.revoked = true

/-- The primary key and the unique public key of the table `devices`. -/
structure Db.DevicesKeyed (db : Db) : Prop where
  ids : Records.Unique (·.id) db.devices
  keys : Records.Unique (·.wireguardPublicKey) db.devices

-----------------------------------------------------------------------------------------
-- The course of a registration
-----------------------------------------------------------------------------------------

/-- The row that a registration asks for. -/
def RegisterDeviceRequest.row (req : RegisterDeviceRequest) (freshId userId : Uuid)
    : DeviceRow where
  id := freshId
  userId := userId
  name := req.name
  platform := req.platform
  osVersion := req.osVersion
  agentVersion := req.agentVersion
  wireguardPublicKey := req.wireguardPublicKey
  revoked := false

section Course

variable {state : AppState} {freshId userId : Uuid} {req : RegisterDeviceRequest} {db : Db}

theorem registered_short (short : req.wireguardPublicKey.utf8ByteSize < 40)
    : registered state freshId userId req db = db := by
  unfold registered DeviceService.register
  rw [if_pos short]
  rfl

/-- A key that is refused leaves everything as it was. -/
theorem registered_refused (long : ¬ req.wireguardPublicKey.utf8ByteSize < 40) {fault : DbError}
    (ran : (Statement.upsertDevice (req.row freshId userId)).exec db = .error fault)
    : registered state freshId userId req db = db := by
  unfold registered DeviceService.register
  rw [if_neg long]
  exact congrArg Prod.snd (execute_query_refused rfl ran)

/-- The audit event at the end of a registration touches neither devices nor certificates. -/
theorem record_tables (entry : AuditEntry) (device : DeviceRow) (n : Nat) (db : Db)
    : let after := ((do AuditService.record entry; return device : Call DeviceRow).execute
        (fun _ db => db) (fun _ => false) n db).2
      after.devices = db.devices ∧ after.deviceCertificates = db.deviceCertificates := by
  cases ran : (Statement.insertAuditEvent entry).exec db with
  | error fault =>
      have course := congrArg Prod.snd (@execute_query_refused DeviceRow (fun _ db => db)
        (fun _ => false) n _ (fun _ => pure device) db fault rfl ran)
      exact ⟨congrArg Db.devices course, congrArg Db.deviceCertificates course⟩
  | ok answer =>
      have course := congrArg Prod.snd (@execute_query_answered DeviceRow (fun _ db => db)
        (fun _ => false) n _ (fun _ => pure device) db answer.1 answer.2 rfl ran)
      have stays : answer.2.devices = db.devices
          ∧ answer.2.deviceCertificates = db.deviceCertificates := by
        simp only [Statement.exec, Db.insertAuditEvent] at ran
        split at ran
        · cases ran
          exact ⟨rfl, rfl⟩
        · cases ran
      exact ⟨(congrArg Db.devices course).trans stays.1,
        (congrArg Db.deviceCertificates course).trans stays.2⟩

/-- A row that is stored gets a certificate as well. -/
theorem registered_stored (long : ¬ req.wireguardPublicKey.utf8ByteSize < 40) {device : DeviceRow}
    {after : Db}
    (ran : (Statement.upsertDevice (req.row freshId userId)).exec db = .ok (device, after))
    (known : after.hasDevice device.id = true)
    : (registered state freshId userId req db).devices = after.devices
      ∧ ∃ certificate : DeviceCertificateRow, certificate.deviceId = device.id
        ∧ (registered state freshId userId req db).deviceCertificates
          = after.deviceCertificates ++ [certificate] := by
  let expiresAt : Timestamp := after.now + seconds (30 * 24 * 3600)
  let certificatePem := state.certificatePem device.id userId expiresAt
  let certificate : DeviceCertificateRow :=
    ⟨device.id, certificatePem, state.hashToken certificatePem, expiresAt⟩
  let entry := ((((AuditEntry.new "device.register").decided "allow").subject userId).device
    device.id).withDetails [("platform", .text device.platform), ("name", .text device.name)]
  let certified : Db :=
    { after with deviceCertificates := after.deviceCertificates ++ [certificate] }
  have course : registered state freshId userId req db
      = ((do AuditService.record entry; return device : Call DeviceRow).execute
          (fun _ db => db) (fun _ => false) 3 certified).2 := by
    unfold registered DeviceService.register
    rw [if_neg long]
    exact congrArg Prod.snd ((execute_query_answered rfl ran).trans
      ((execute_query_answered rfl rfl).trans (execute_query_answered rfl (if_pos known))))
  have tables := record_tables entry device 3 certified
  rw [course]
  exact ⟨tables.1, certificate, rfl, tables.2⟩

end Course

-----------------------------------------------------------------------------------------
-- The devices of others and the revoked ones
-----------------------------------------------------------------------------------------

/-- A registration with a new key adds a row at most. -/
theorem registered_new {state : AppState} {freshId userId : Uuid} {req : RegisterDeviceRequest}
    {db : Db} (new : ∀ device ∈ db.devices, device.wireguardPublicKey ≠ req.wireguardPublicKey)
    : registered state freshId userId req db = db
      ∨ (db.hasDevice freshId = false
        ∧ (registered state freshId userId req db).devices
          = db.devices ++ [req.row freshId userId]
        ∧ ∃ certificate : DeviceCertificateRow, certificate.deviceId = freshId
          ∧ (registered state freshId userId req db).deviceCertificates
            = db.deviceCertificates ++ [certificate]) := by
  have none : db.devices.find? (·.wireguardPublicKey == (req.row freshId userId).wireguardPublicKey)
      = none := by
    refine List.find?_eq_none.mpr ?_
    intro device there same
    exact new device there (by simpa [RegisterDeviceRequest.row] using same)
  by_cases short : req.wireguardPublicKey.utf8ByteSize < 40
  · exact Or.inl (registered_short short)
  · cases ran : (Statement.upsertDevice (req.row freshId userId)).exec db with
    | error fault => exact Or.inl (registered_refused short ran)
    | ok answer =>
        obtain ⟨device, after⟩ := answer
        have stored := ran
        rw [Statement.exec, Db.upsertDevice, none] at stored
        simp only at stored
        split at stored
        · cases stored
        · next free =>
            split at stored
            · cases stored
            · cases stored
              have known : Db.hasDevice
                  { db with devices := db.devices ++ [req.row freshId userId] }
                  freshId = true := by
                simp [Db.hasDevice, RegisterDeviceRequest.row]
              exact Or.inr ⟨Bool.eq_false_iff.mpr free, registered_stored short ran known⟩

/-- A registration with a key that is there changes its row, whoever owns it. -/
theorem registered_again {state : AppState} {freshId userId : Uuid} {req : RegisterDeviceRequest}
    {db : Db} (long : ¬ req.wireguardPublicKey.utf8ByteSize < 40) (keyed : db.DevicesKeyed)
    {device : DeviceRow} (there : device ∈ db.devices)
    (same : device.wireguardPublicKey = req.wireguardPublicKey)
    : (registered state freshId userId req db).devices
        = updateWhere (·.wireguardPublicKey == req.wireguardPublicKey)
            (Db.reregistered (req.row freshId userId)) db.devices
      ∧ ∃ certificate : DeviceCertificateRow, certificate.deviceId = device.id
        ∧ (registered state freshId userId req db).deviceCertificates
          = db.deviceCertificates ++ [certificate] := by
  have found : db.devices.find?
      (·.wireguardPublicKey == (req.row freshId userId).wireguardPublicKey)
      = some device := by
    have found := keyed.keys.find? there
    rwa [same] at found
  have ran : (Statement.upsertDevice (req.row freshId userId)).exec db
      = .ok (Db.reregistered (req.row freshId userId) device, {
          db with
          devices := updateWhere (·.wireguardPublicKey == req.wireguardPublicKey)
            (Db.reregistered (req.row freshId userId)) db.devices }) := by
    rw [Statement.exec, Db.upsertDevice, found]
    rfl
  refine registered_stored long ran ?_
  refine List.any_eq_true.mpr ⟨Db.reregistered (req.row freshId userId) device, ?_, ?_⟩
  · refine mem_updateWhere.mpr ⟨device, there, ?_⟩
    simp [same]
  · exact beq_self_eq_true _

/-- A certificate for one device is none for another. -/
theorem certificatesOf_concat {db after : Db} {certificate : DeviceCertificateRow}
    (stored : after.deviceCertificates = db.deviceCertificates ++ [certificate]) (deviceId : Uuid)
    : after.certificatesOf deviceId = db.certificatesOf deviceId
      ↔ certificate.deviceId ≠ deviceId := by
  rw [Db.certificatesOf, stored, List.filter_append, ← Db.certificatesOf, List.append_right_eq_self,
    List.filter_eq_nil_iff]
  simp

/-- A registration leaves devices of others and revoked devices alone exactly when its key is refused,
or is on no row that somebody else owns or that is revoked.
-/
theorem device_frame_iff {db : Db} (keyed : db.DevicesKeyed) (state : AppState)
    (freshId userId : Uuid) (req : RegisterDeviceRequest)
    : OwnershipKept userId db (registered state freshId userId req db)
      ↔ req.wireguardPublicKey.utf8ByteSize < 40
        ∨ ∀ device ∈ db.devices, device.wireguardPublicKey = req.wireguardPublicKey →
            device.userId = userId ∧ device.revoked = false := by
  constructor
  · intro kept
    by_contra harms
    obtain ⟨long, device, there, same, harmed⟩ :
        ¬ req.wireguardPublicKey.utf8ByteSize < 40
          ∧ ∃ device ∈ db.devices, device.wireguardPublicKey = req.wireguardPublicKey
            ∧ (device.userId = userId → device.revoked = true) := by
      push Not at harms
      simpa using harms
    obtain ⟨devices, certificate, about, certificates⟩ :=
      @registered_again state freshId userId req db long keyed device there same
    by_cases own : device.userId = userId
    · -- The row of a revoked device is usable again.
      have again := kept.revoked device there (harmed own)
        (Db.reregistered (req.row freshId userId) device) ?_ rfl
      · cases again
      · rw [devices]
        refine mem_updateWhere.mpr ⟨device, there, ?_⟩
        simp [same]
    · -- The device of somebody else has a certificate more.
      have unchanged := (kept.foreign device there own).2
      exact (certificatesOf_concat certificates device.id).mp unchanged about
  · intro harmless
    have keptAsIs : OwnershipKept userId db db := by
      refine ⟨fun device there _ => ⟨there, rfl⟩, ?_⟩
      intro device there revoked now nowThere sameId
      rw [keyed.ids.same nowThere there sameId]
      exact revoked
    by_cases short : req.wireguardPublicKey.utf8ByteSize < 40
    · rw [registered_short short]
      exact keptAsIs
    · have harmless := harmless.resolve_left short
      by_cases new : ∀ device ∈ db.devices, device.wireguardPublicKey ≠ req.wireguardPublicKey
      · rcases @registered_new state freshId userId req db new with
          same | ⟨free, devices, certificate, about, certificates⟩
        · rw [same]
          exact keptAsIs
        · have known : ∀ device ∈ db.devices, device.id ≠ freshId := by
            intro device there same
            have present : db.hasDevice freshId = true :=
              List.any_eq_true.mpr ⟨device, there, by simp [same]⟩
            rw [free] at present
            cases present
          refine ⟨?_, ?_⟩
          · intro device there _
            rw [devices, certificatesOf_concat certificates, about]
            exact ⟨List.mem_append_left _ there, (known device there).symm⟩
          · intro device there revoked now nowThere sameId
            rw [devices] at nowThere
            rcases List.mem_append.mp nowThere with old | added
            · exact keptAsIs.revoked device there revoked now old sameId
            · obtain rfl := List.mem_singleton.mp added
              exact absurd sameId.symm (known device there)
      · push Not at new
        obtain ⟨device, there, same⟩ := new
        obtain ⟨own, usable⟩ := harmless device there same
        obtain ⟨devices, certificate, about, certificates⟩ :=
          @registered_again state freshId userId req db short keyed device there same
        refine ⟨?_, ?_⟩
        · intro other otherThere foreign
          have apart : other.wireguardPublicKey ≠ req.wireguardPublicKey :=
            fun sameKey => foreign (harmless other otherThere sameKey).1
          refine ⟨?_, ?_⟩
          · rw [devices]
            refine mem_updateWhere.mpr ⟨other, otherThere, ?_⟩
            simp [apart]
          · rw [certificatesOf_concat certificates, about]
            intro sameId
            rw [keyed.ids.same there otherThere sameId] at own
            exact foreign own
        · intro other otherThere revoked now nowThere sameId
          rw [devices] at nowThere
          obtain ⟨old, oldThere, isNow⟩ := mem_updateWhere.mp nowThere
          have oldId : old.id = other.id := by
            rw [← sameId, isNow]
            split <;> rfl
          obtain rfl := keyed.ids.same oldThere otherThere oldId
          have apart : old.wireguardPublicKey ≠ req.wireguardPublicKey := by
            intro sameKey
            rw [(harmless old oldThere sameKey).2] at revoked
            cases revoked
          rw [isNow]
          simpa [apart] using revoked

/-- The small installation with another user. -/
def twoUsers : Db := {
  smallInstallation with
  users := smallInstallation.users ++ [⟨8, "eve@example.com", none, none, true, .member⟩]
}

/-- A registration of the key that the laptop of the user 1 has. -/
def strangersKey : RegisterDeviceRequest where
  name := "mine now"
  platform := "linux"
  osVersion := none
  agentVersion := none
  wireguardPublicKey := "qqqqqqqqqqqqqqqqqqqqqqqqqqqqqqqqqqqqqqqqqqo="

/-- The two users, a device of the other one, and a device of the first one that has been revoked. -/
def threeDevices : Db := {
  twoUsers with
  devices := twoUsers.devices ++ [
    ⟨10, 8, "phone", "linux", none, none, "ssssssssssssssssssssssssssssssssssssssssssso=", false⟩,
    ⟨11, 1, "old laptop", "linux", none, none, "ttttttttttttttttttttttttttttttttttttttttttto=", true⟩
  ]
}

theorem threeDevices_keyed : threeDevices.DevicesKeyed := by
  refine ⟨?_, ?_⟩
  · change ([2, 10, 11] : List Uuid).Nodup
    decide
  · change (threeDevices.devices.map (·.wireguardPublicKey)).Nodup
    decide

/-- A user who registers a new key changes nobody else's device, and lifts no revocation. -/
theorem new_key_harmless
    : OwnershipKept 1 threeDevices
        (registered smallState 9 1
          { strangersKey with wireguardPublicKey := "rrrrrrrrrrrrrrrrrrrrrrrrrrrrrrrrrrrrrrrrrro=" }
          threeDevices) := by
  refine (device_frame_iff threeDevices_keyed smallState 9 1 _).mpr (Or.inr ?_)
  have apart : ∀ device ∈ threeDevices.devices,
      device.wireguardPublicKey ≠ "rrrrrrrrrrrrrrrrrrrrrrrrrrrrrrrrrrrrrrrrrro=" := by decide
  exact fun device there same => absurd same (apart device there)

/-- The user 8 registers that key: the laptop of the user 1 has another name and a certificate more.
-/
theorem strangers_device_changed
    : ∃ device ∈ twoUsers.devices, device.userId ≠ 8
        ∧ device ∉ (registered smallState 9 8 strangersKey twoUsers).devices
        ∧ (registered smallState 9 8 strangersKey twoUsers).certificatesOf device.id
          ≠ twoUsers.certificatesOf device.id := by
  refine ⟨_, List.mem_singleton_self _, ?_⟩
  decide +kernel

end WslVpn
