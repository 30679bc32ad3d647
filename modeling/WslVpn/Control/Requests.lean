import WslVpn.Control.Services.Accounts
import WslVpn.Control.Services.Gateways
import WslVpn.Control.Services.GitOps

/-! The control plane as a whole: any number of service calls at once on one database, and a
clock that moves forward.
-/

namespace WslVpn

open AddressSpace Interleaving

/-- The version that a gateway is at. -/
def Db.versionOf (db : Db) (gatewayId : Uuid) : Option Int :=
  (db.gateways.find? (·.id == gatewayId)).map (·.configVersion)

/-- A call of one of the services, with the identifiers that it will draw. -/
inductive Request where
  | createSession (draw : SessionService.Draw) (userId : Uuid) (userEmail : String)
    (req : CreateSessionRequest)
  | revokeSession (id : Uuid)
  | identityByIp (ip : IpAddr)
  | registerGateway (draw : GatewayService.Draw) (req : RegisterGatewayRequest)
    (presentedAuth : Option String)
  | rotateGatewayToken (id : Uuid) (authToken : String)
  | gatewayConfig (id : Uuid)
  | gatewayHeartbeat (id : Uuid) (req : GatewayHeartbeatRequest)
  | applyDirectory (directory : GitOpsDirectory) (gitCommit : Option String)
  | applyPolicy (freshId : Uuid) (document : AccessPolicyDocument) (gitCommit : Option String)
  | createNetwork (freshId : Uuid) (req : CreateNetworkRequest)
  | registerDevice (freshId userId : Uuid) (req : RegisterDeviceRequest)
  | revokeDevice (id : Uuid)
  | updateUser (id : Uuid) (req : UpdateUserRequest)
  | deleteUser (id : Uuid)

/-- What a call returns when it returns no error. -/
inductive Answer where
  | session (response : CreateSessionResponse)
  | sessionRevoked (revoked : Bool)
  | identity (identity : Option SessionIdentity)
  | gateway (response : RegisterGatewayResponse)
  | gatewayToken (response : Option RotateGatewayTokenResponse)
  | config (config : GatewayConfig)
  | applied (policies : Nat)
  | policyVersion (version : PolicyVersionRow)
  | network (network : Network)
  | device (device : DeviceRow)
  | deviceRevoked (revoked : Bool)
  | user (user : Option User)
  | userDeleted (deleted : Bool)

/-- The program that a request runs. -/
def Request.call (state : AppState) : Request → Call Answer
  | .createSession draw userId userEmail req => do
      return .session (← SessionService.create draw userId userEmail req)
  | .revokeSession id => do return .sessionRevoked (← SessionService.revoke id)
  | .identityByIp ip => do return .identity (← SessionService.identityByIp ip)
  | .registerGateway draw req presentedAuth => do
      return .gateway (← GatewayService.register state draw req presentedAuth)
  | .rotateGatewayToken id authToken => do
      return .gatewayToken (← GatewayService.rotateToken state id authToken)
  | .gatewayConfig id => do return .config (← GatewayService.config state id)
  | .gatewayHeartbeat id req => do return .config (← GatewayService.heartbeat state id req)
  | .applyDirectory directory gitCommit => do
      return .applied (← GitOpsService.applyDirectory directory gitCommit)
  | .applyPolicy freshId document gitCommit => do
      return .policyVersion (← GitOpsService.applyPolicyYaml freshId document gitCommit)
  | .createNetwork freshId req => do return .network (← NetworkService.create freshId req)
  | .registerDevice freshId userId req => do
      return .device (← DeviceService.register state freshId userId req)
  | .revokeDevice id => do return .deviceRevoked (← DeviceService.revoke id)
  | .updateUser id req => do return .user (← UserService.update id req)
  | .deleteUser id => do return .userDeleted (← UserService.delete id)

/-- Time passes; the clock never goes back. -/
def elapse (passed : Nat) (db : Db) : Db := { db with now := db.now + passed }

/-- The database with the calls in flight. -/
abbrev ControlPlane := System sql AppError Answer

/-- A turn of a call, the loss of one, or the passing of time. -/
abbrev Turn := Event Nat

namespace ControlPlane

/-- All requests have arrived and none has begun. -/
def start (state : AppState) (requests : List Request) (db : Db) : ControlPlane where
  state := db
  calls := requests.map (Request.call state)

theorem start_calls {state : AppState} {requests : List Request} {db : Db} {call : Nat}
    : (start state requests db).calls[call]? = (requests[call]?).map (Request.call state) :=
  List.getElem?_map

/-- The control plane after a schedule. -/
abbrev after (plane : ControlPlane) (turns : List Turn) : ControlPlane :=
  System.run elapse plane turns

/-- Every turn of the schedule meets the condition where it occurs. -/
abbrev Obeys (plane : ControlPlane) (cond : ControlPlane → Turn → Prop) (turns : List Turn)
    : Prop :=
  System.Meets elapse cond plane turns

/-- The call has returned this. -/
def Answered (plane : ControlPlane) (call : Nat) (result : Except AppError Answer) : Prop :=
  plane.calls[call]? = some (.done result)

/-- The call runs this statement next. -/
def Runs (plane : ControlPlane) (call : Nat) (statement : Statement) : Prop :=
  (plane.calls[call]?).bind Program.pending? = some statement

theorem runs_iff {plane : ControlPlane} {call : Nat} {program : Call Answer}
    {statement : Statement} (found : plane.calls[call]? = some program)
    : plane.Runs call statement ↔ program.pending? = some statement := by
  rw [Runs, found, Option.bind_some]

theorem runs_of_issued {plane : ControlPlane} {call : Nat} {statement : Statement}
    {next : Except DbError statement.Reply → Call Answer}
    (issued : plane.calls[call]? = some (.step statement next))
    : plane.Runs call statement :=
  (runs_iff issued).mpr rfl

/-- What runs next after the move of one call: that call's next statement, or another call's. -/
theorem runs_moved {plane : ControlPlane} {call other : Nat} {before program : Call Answer}
    {db : Db}
    {statement : Statement} (found : plane.calls[call]? = some before)
    : Runs ⟨db, plane.calls.set call program⟩ other statement
      ↔ (other = call ∧ program.pending? = some statement)
        ∨ (other ≠ call ∧ plane.Runs other statement) := by
  unfold Runs
  by_cases same : other = call
  · subst same
    rw [System.getElem?_set_moved found]
    simp
  · rw [List.getElem?_set_ne (Ne.symm same)]
    simp [same]

/-- All calls have returned. -/
def AllReturned (plane : ControlPlane) : Prop :=
  ∀ (call : Nat) (program : Call Answer), plane.calls[call]? = some program
    → ∃ result, program = .done result

end ControlPlane

-----------------------------------------------------------------------------------------
-- A small installation
-----------------------------------------------------------------------------------------

/-- A state whose hash is the token itself. -/
def smallState : AppState where
  gatewayRegistrationToken := "enrol"
  defaultPort := 51820
  hashToken := id
  certificatePem := fun _ _ _ => ""

/-- The length of the prefixes of the small networks. -/
theorem slash24 : 24 ≤ 32 := by
  decide

/-- One user with one device, one network with one gateway, and a policy that lets the user
connect for an hour.
-/
def smallInstallation : Db := {
  Db.empty 0 with
  users := [⟨1, "ada@example.com", none, none, true, .member⟩]
  devices := [⟨2, 1, "laptop", "linux", none, none,
    "qqqqqqqqqqqqqqqqqqqqqqqqqqqqqqqqqqqqqqqqqqo=", false⟩]
  networks := [⟨3, "lab", .v4 ⟨BitVec.ofNat 32 0x0A080100, 24, slash24⟩, [], []⟩]
  gateways := [⟨4, "gw", "gateway-key", "vpn:51820", some 3, "", none, none, 0⟩]
  policies := [⟨5, "all", 1, none⟩]
  policyVersions := [⟨5, 1, {
    apiVersion := "wsl.io/v1"
    kind := "AccessPolicy"
    metadata := ⟨"all"⟩
    spec := {
      subjects := ⟨[], ["ada@example.com"]⟩
      resources := ["lab"]
      device := ⟨none, none, []⟩
      session := ⟨3600⟩
      action := ⟨true⟩
    }
  }, none⟩]
}

end WslVpn
