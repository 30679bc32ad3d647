import WslVpn.Control.Requests
import WslVpn.Control.Routes
import WslVpn.Dns.Text
import WslVpn.Gateway.Main

/-! The gateway's own credential: the file that keeps it, the control plane's check of it, and the
process that presents it, discards it and asks for another one.
-/

namespace WslVpn

open Interleaving

-----------------------------------------------------------------------------------------
-- The stored enrollment
-----------------------------------------------------------------------------------------

structure Enrollment where
  gatewayId : Uuid
  authToken : String
  deriving DecidableEq

/-- `enrollment.json` in the state directory. -/
inductive StateFile where
  | absent
  /-- Its text is no enrollment. -/
  | malformed
  | holds (enrollment : Enrollment)
  deriving DecidableEq

/-- What the host makes of a `store`. -/
inductive StoreOutcome where
  /-- The directory or the file cannot be opened. -/
  | unopened
  /-- The file has been truncated, and not all of the text is written. -/
  | unwritten
  /-- Everything is written, and `sync_all` fails. -/
  | unsynced
  | stored

namespace StateFile

/-- A file that is malformed or unreadable is as good as none. -/
def load (readable : Bool) : StateFile → Option Enrollment
  | .holds enrollment => if readable then some enrollment else none
  | _ => none

/-- The file afterwards, and whether the call succeeds. -/
def store (enrollment : Enrollment) (file : StateFile) : StoreOutcome → StateFile × Bool
  | .unopened => (file, false)
  | .unwritten => (.malformed, false)
  | .unsynced => (.holds enrollment, false)
  | .stored => (.holds enrollment, true)

/-- Forget a stored enrollment after the control plane has rejected it. That the file cannot be
removed is only logged.
-/
def clear (removed : Bool) (file : StateFile) : StateFile := if removed then .absent else file

end StateFile

-----------------------------------------------------------------------------------------
-- Presenting a credential
-----------------------------------------------------------------------------------------

/-- A gateway that has proven possession of its own credential. -/
structure GatewayAuth where
  gatewayId : Uuid
  name : String
  deriving DecidableEq

/-- The text may stand in a header. -/
def isHeaderValue (text : String) : Bool :=
  text.toList.all (fun char => char == '\t' || (32 ≤ char.toNat && char.toNat ≠ 127))

/-- `HeaderValue::to_str` takes visible characters only. -/
def isVisible (text : String) : Bool :=
  text.toList.all (fun char => char == '\t' || (32 ≤ char.toNat && char.toNat < 127))

/-- The bearer token of an `Authorization` header. -/
def bearerToken (authorization : Option String) : Option String :=
  (((authorization.filter isVisible).bind (afterStart "Bearer ")).map
    (fun token => String.ofList (Dns.trim token.toList))).filter (fun token => token ≠ "")

/-- The token and the id from the path have to belong to one gateway. -/
def requireGateway (state : AppState) (db : Db) (token : Option String) (pathId : Uuid)
    : Except AppError GatewayAuth :=
  match token with
  | none => .error .unauthorized
  | some token =>
      match db.gateways.find?
        (fun row => row.id == pathId && row.authTokenHash == some (state.hashToken token)) with
      | none => .error .unauthorized
      | some row => .ok ⟨row.id, row.name⟩

/-- The header that a heartbeat carries. -/
def Enrollment.authorization (enrollment : Enrollment) : String := "Bearer " ++ enrollment.authToken

/-- The control plane's answer to a heartbeat with this enrollment, before the handler runs. -/
def Enrollment.verify (state : AppState) (db : Db) (enrollment : Enrollment)
    : Except AppError GatewayAuth :=
  requireGateway state db (bearerToken (some enrollment.authorization)) enrollment.gatewayId

/-- One more request has arrived. -/
def ControlPlane.receive (state : AppState) (request : Request) (plane : ControlPlane)
    : ControlPlane :=
  { plane with calls := plane.calls ++ [request.call state] }

-----------------------------------------------------------------------------------------
-- The process
-----------------------------------------------------------------------------------------

structure ControlSection where
  registrationToken : String

structure GatewaySection where
  name : String
  endpoint : String
  networkId : Option Uuid

/-- The gateway's configuration file, and the settings of the control plane that it talks to. -/
structure GatewayDeployment where
  state : AppState
  control : ControlSection
  gateway : GatewaySection
  cfg : GatewayConfigFile

/-- Where `main` stands. -/
inductive MainPhase where
  /-- The process is not running. -/
  | down
  /-- About to register: at the start, or because the enrollment in hand was rejected. -/
  | enrolling (rejected : Option Enrollment)
  /-- Waiting for what a call of the control plane returns. -/
  | registering (rejected : Option Enrollment) (call : Nat)
  /-- Registered, and about to store what came back. -/
  | storing (rejected : Option Enrollment) (enrolled : Enrollment)
  /-- About to send the next heartbeat. -/
  | beating (enrolled : Enrollment)
  /-- A heartbeat is on its way. -/
  | sent (enrolled : Enrollment)
  /-- The heartbeat has been let in, and its handler runs as this call. -/
  | served (enrolled : Enrollment) (call : Nat)
  /-- The answer is 401. -/
  | unauthorized (enrolled : Enrollment)

/-- The enrollment that the control plane has rejected and that is still in hand. -/
def MainPhase.rejected : MainPhase → Option Enrollment
  | .unauthorized enrolled => some enrolled
  | .enrolling rejected | .registering rejected _ | .storing rejected _ => rejected
  | _ => none

/-- A failed enrollment ends the process at its start, and is tried again in the loop. -/
def MainPhase.unenrolled : Option Enrollment → MainPhase
  | none => .down
  | some enrolled => .beating enrolled

/-- The process with its state directory, and the control plane with all calls in flight. -/
structure GatewayWorld where
  plane : ControlPlane
  file : StateFile
  phase : MainPhase
  /-- The private key, where the process has one, and the public key. -/
  keypair : Option String × String
  loop : LoopState

inductive GatewayEvent where
  /-- A request of somebody else reaches the control plane. -/
  | arrives (request : Request)
  | turn (turn : Turn)
  /-- The operator writes or removes the file. -/
  | operator (file : StateFile)
  | starts (readable : Bool) (generated : String × String)
  /-- The process is stopped, wherever it stands. -/
  | stops
  | sends
  /-- The control plane looks up the credential of the heartbeat. -/
  | checks
  | answered (now : Timestamp) (clock : Nat → Timestamp) (answers : HostAnswers)
  /-- The connection breaks, or the answer is an error of another kind. -/
  | breaks
  | clears (removed : Bool)
  | registers (draw : GatewayService.Draw)
  | registered
  | stores (outcome : StoreOutcome)

namespace GatewayDeployment

variable (deployment : GatewayDeployment)

/-- A configured public key is used without a private one. -/
def keypair (generated : String × String) : Option String × String :=
  match deployment.cfg.wireguard.publicKey with
  | some publicKey => (none, publicKey)
  | none => (some generated.1, generated.2)

def registerRequest (publicKey : String) : RegisterGatewayRequest where
  name := deployment.gateway.name
  publicKey := publicKey
  endpoint := deployment.gateway.endpoint
  networkId := deployment.gateway.networkId
  token := deployment.control.registrationToken

/-- Resume with the stored credential when there is one. -/
def resume : Option Enrollment → MainPhase
  | some enrolled => .beating enrolled
  | none => .enrolling none

/-- What comes back from a heartbeat whose handler has returned. -/
def heartbeatResponse : Except AppError Answer → Option HeartbeatResponse
  | .ok (.config config) => some (.answered config)
  | .error _ => some .failed
  | _ => none

/-- Where `main` goes on when the call of its registration has returned. -/
def afterRegister (rejected : Option Enrollment) : Except AppError Answer → Option MainPhase
  | .ok (.gateway response) => some (.storing rejected ⟨response.gateway.id, response.authToken⟩)
  | .error _ => some (.unenrolled rejected)
  | _ => none

/-- What the call has returned, if it has. -/
def returned (plane : ControlPlane) (call : Nat) : Option (Except AppError Answer) :=
  match plane.calls[call]? with
  | some (.done result) => some result
  | _ => none

/-- One event; there is none where the process does not stand at it. -/
def step (world : GatewayWorld) : GatewayEvent → Option GatewayWorld
  | .arrives request => some { world with plane := world.plane.receive deployment.state request }
  | .turn turn => some { world with plane := world.plane.handle elapse turn }
  | .operator file => some { world with file }
  | .stops => some { world with phase := .down }
  | .starts readable generated =>
      match world.phase with
      | .down =>
          some {
            world with
            phase := resume (world.file.load readable)
            keypair := deployment.keypair generated
            loop := .start world.loop.host
          }
      | _ => none
  | .sends =>
      match world.phase with
      | .beating enrolled =>
          -- A token that no header can carry is an error of the client, which tries again.
          if isHeaderValue enrolled.authorization then some { world with phase := .sent enrolled }
          else some world
      | _ => none
  | .checks =>
      match world.phase with
      | .sent enrolled =>
          match enrolled.verify deployment.state world.plane.state with
          | .ok gw =>
              some {
                world with
                plane := world.plane.receive deployment.state
                  (.gatewayHeartbeat gw.gatewayId world.loop.heartbeatRequest)
                phase := .served enrolled world.plane.calls.length
              }
          | .error _ => some { world with phase := .unauthorized enrolled }
      | _ => none
  | .answered now clock answers =>
      match world.phase with
      | .served enrolled call =>
          ((returned world.plane call).bind heartbeatResponse).map (fun response => {
            world with
            phase := .beating enrolled
            loop := world.loop.iterate deployment.cfg world.keypair.1
              { response, now, clock, answers }
          })
      | _ => none
  | .breaks =>
      match world.phase with
      | .sent enrolled | .served enrolled _ | .unauthorized enrolled =>
          some { world with phase := .beating enrolled }
      | .enrolling rejected | .registering rejected _ =>
          some { world with phase := .unenrolled rejected }
      | _ => none
  | .clears removed =>
      match world.phase with
      | .unauthorized enrolled =>
          some { world with file := world.file.clear removed, phase := .enrolling (some enrolled) }
      | _ => none
  | .registers draw =>
      match world.phase with
      | .enrolling rejected =>
          -- The request carries no `Authorization` header.
          some {
            world with
            plane := world.plane.receive deployment.state
              (.registerGateway draw (deployment.registerRequest world.keypair.2) none)
            phase := .registering rejected world.plane.calls.length
          }
      | _ => none
  | .registered =>
      match world.phase with
      | .registering rejected call =>
          ((returned world.plane call).bind (afterRegister rejected)).map
            (fun phase => { world with phase })
      | _ => none
  | .stores outcome =>
      match world.phase with
      | .storing rejected enrolled =>
          let stored := world.file.store enrolled outcome
          some {
            world with
            file := stored.1
            phase := if stored.2 then .beating enrolled else .unenrolled rejected
          }
      | _ => none

end GatewayDeployment

end WslVpn
