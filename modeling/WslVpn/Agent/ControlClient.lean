import WslVpn.Agent.ManagedConfig
import WslVpn.Agent.Library
import WslVpn.Fallible.Commands

/-! What the commands of `wsl` do to the agent's state, and which sessions they open and end at the
control planes. What others answer, and what the machine does, comes from outside.
-/

namespace WslVpn.Agent

open AddressSpace
open Dns (Text trim)
open Fallible

-----------------------------------------------------------------------------------------
-- The state
-----------------------------------------------------------------------------------------

/-- How this agent connects. -/
inductive Mode where
  | direct
  | managed
  | signedOut
  deriving DecidableEq

def AgentState.mode (state : AgentState) : Mode :=
  if state.profile.isSome then .direct
  else if state.accessToken.isSome then .managed
  else .signedOut

def defaultControlUrl : Text := "http://localhost:8080".toList

/-- `AgentState::load()` before anything is saved. -/
def AgentState.fresh : AgentState := { AgentState.default with controlUrl := defaultControlUrl }

/-- A URL as the URL library reads it. -/
structure Url where
  scheme : Text
  hostStr : Option Text
  username : Text
  query : Option Text
  fragment : Option Text
  asStr : Text

/-- Code of other packages. -/
structure Packages where
  parseUrl : Text → Option Url
  isHeaderValue : Text → Bool
  publicKeyFromPrivate : Text → Option Text

def isLoopback : IpAddr → Bool
  | .v4 address => address.toNat / 2 ^ 24 = 127
  | .v6 address => address.toNat = 1

section Packages

variable (packages : Packages)

/-- Accept a control-plane URL only if a bearer token sent to it stays private. -/
def validateControlUrl (raw : Text) : Except Text Text :=
  match packages.parseUrl (trim raw) with
  | none => .error ('`' :: raw ++ "` is not a URL".toList)
  | some url =>
      match url.hostStr with
      | none => .error ('`' :: raw ++ "` has no host".toList)
      | some host =>
          let host := (host.dropWhile (· == '[')).rdropWhile (· == ']')
          let loopback := host = "localhost".toList ∨ (IpAddr.parse host).any isLoopback
          if url.scheme ≠ "https".toList ∧ ¬ (url.scheme = "http".toList ∧ loopback) then
            if url.scheme = "http".toList then
              .error ("the control plane must use https unless it is on this machine; `".toList ++ raw
                ++ "` would send your sign-in token in the clear".toList)
            else .error ('`' :: url.scheme ++ "` is not a control-plane scheme; use https".toList)
          else if url.query.isSome ∨ url.fragment.isSome ∨ url.username ≠ [] then
            .error ('`' :: raw ++ "` should be just the control plane's base URL".toList)
          else .ok (url.asStr.rdropWhile (· == '/'))

/-- Point the agent at a control plane. Changing it signs out. -/
def AgentState.setControlUrl (state : AgentState) (url : Text) : Except Text AgentState :=
  (validateControlUrl packages url).map (fun url =>
    if url ≠ state.controlUrl then
      { state with
        accessToken := none
        email := none
        userId := none
        deviceId := none
        deviceName := none
        wireguardPublicKey := none
        session := none
        wireguard := none
        networkName := none
        controlUrl := url }
    else state)

def authHeaders (state : AgentState) : Except Text Text :=
  match state.accessToken with
  | none => .error "not logged in; run wsl login".toList
  | some token =>
      let value := "Bearer ".toList ++ token
      if packages.isHeaderValue value then .ok value
      else .error "failed to parse header value".toList

end Packages

-----------------------------------------------------------------------------------------
-- The surroundings of a command
-----------------------------------------------------------------------------------------

/-- The identity that a sign-in gives. -/
structure SignedIn where
  accessToken : Text
  userId : Uuid
  email : Text

structure Device where
  id : Uuid
  name : Text
  wireguardPublicKey : Text

/-- What comes of asking for a session. -/
inductive Creation where
  /-- The session is made, and the answer is read. -/
  | answered (resp : CreateSessionResponse)
  /-- Another status, an answer that does not read, or no answer at all. A session may be made. -/
  | failed (status : Option Nat) (made : Option Uuid)

/-- What a command meets outside of the agent. -/
structure Outside where
  /-- The sign-in, which ends without a token when it has to be finished with a code. -/
  signIn : Except Text (Option SignedIn)
  register : Except Text Device
  networks : Except Text (List Network)
  posture : List PostureSignal
  create : Creation
  /-- The request to end the session is served. -/
  delete : Bool
  privateKey : Option Text
  up : Except Text Unit
  down : Except Text Unit
  tunnelUp : Bool
  /-- The config that is to be imported. -/
  configFile : Except Text Text

/-- A session at the control plane with the URL. -/
structure SessionRef where
  controlUrl : Text
  id : Uuid
  deriving DecidableEq

/-- The agent with its files, and the sessions it has made that are still active. -/
structure World where
  state : AgentState
  data : DataDir
  active : List SessionRef

namespace World

variable (world : World)

/-- The session whose id the agent holds. -/
def held : Option SessionRef := world.state.session.map (fun s => ⟨world.state.controlUrl, s.id⟩)

/-- The control plane makes a session. -/
def opened (id : Uuid) : World :=
  { world with active := ⟨world.state.controlUrl, id⟩ :: world.active }

/-- The session is not active any more. -/
def ended (session : SessionRef) : World :=
  { world with active := world.active.filter (· ≠ session) }

/-- `state.save()` with the changes. -/
def saved (change : AgentState → AgentState) : World := { world with state := change world.state }

end World

abbrev AgentAction (Value : Type) := Command World Text Value

def save (change : AgentState → AgentState) : AgentAction Unit := modify (·.saved change)

-----------------------------------------------------------------------------------------
-- The client
-----------------------------------------------------------------------------------------

namespace ControlClient

variable (packages : Packages) (outside : Outside)

def login : AgentAction Bool := do
  match ← liftExcept outside.signIn with
  | none => return false
  | some token =>
      save (fun state => { state with
        accessToken := some token.accessToken
        userId := some token.userId
        email := some token.email })
      return true

def ensureDevice : AgentAction Uuid := do
  let world ← get
  match world.state.deviceId with
  | some id => return id
  | none =>
      let _ ← liftExcept (authHeaders packages world.state)
      let device ← liftExcept outside.register
      save (fun state => { state with
        deviceId := some device.id
        deviceName := some device.name
        wireguardPublicKey := some device.wireguardPublicKey })
      return device.id

def listNetworks : AgentAction (List Network) := do
  let world ← get
  let _ ← liftExcept (authHeaders packages world.state)
  liftExcept outside.networks

/-- The network of the name, or the first one. -/
def chooseNetwork (networks : List Network) : Option Text → Except Text Network
  | some name =>
      match networks.find? (fun n => n.name.toList = name) with
      | some network => .ok network
      | none => .error "network not found".toList
  | none =>
      match networks.head? with
      | some network => .ok network
      | none => .error "no networks".toList

/-- The request for a session, and the network's name. -/
def sessionRequest (networkName : Option Text) : AgentAction (CreateSessionRequest × String) := do
  let deviceId ← ensureDevice packages outside
  let networks ← listNetworks packages outside
  let network ← liftExcept (chooseNetwork networks networkName)
  let world ← get
  let _ ← liftExcept (authHeaders packages world.state)
  return (⟨network.id, deviceId, outside.posture⟩, network.name)

def creationError : Option Nat → Text
  | none => "error sending request".toList
  | some 403 => ("create session: access was refused. Your account, this device's posture, or the "
      ++ "network's policy does not allow it; if you were recently removed from the directory, "
      ++ "this is why").toList
  | some 503 => ("create session: the control plane could not check your account with the directory "
      ++ "just now; try again shortly").toList
  | some status =>
      if 200 ≤ status ∧ status ≤ 299 then "error decoding response body".toList
      else "create session".toList

/-- `POST /api/v1/sessions` -/
def createSession : AgentAction CreateSessionResponse := do
  match outside.create with
  | .answered resp =>
      modify (·.opened resp.session.id)
      return resp
  | .failed status made =>
      match made with
      | some id => modify (·.opened id)
      | none => pure ()
      throw (creationError status)

def connect (networkName : Option Text) : AgentAction CreateSessionResponse := do
  let (_, network) ← sessionRequest packages outside networkName
  let resp ← createSession outside
  save (fun state => { state with
    session := some resp.session
    wireguard := some resp.wireguard
    networkName := some network.toList })
  let world ← get
  match outside.privateKey with
  | none => throw "missing private key".toList
  | some privateKey =>
      let _ ← liftExcept (world.state.renderWgConfig privateKey)
      return resp

def connectAndBringUp (networkName : Option Text) : AgentAction CreateSessionResponse := do
  let resp ← connect packages outside networkName
  liftExcept outside.up
  return resp

/-- `DELETE /api/v1/sessions/{id}`, whatever comes of it. -/
def deleteSession (session : SessionRef) : AgentAction Unit :=
  if outside.delete then modify (·.ended session) else pure ()

def disconnect : AgentAction Unit := do
  let world ← get
  match world.held with
  | some session =>
      let _ ← liftExcept (authHeaders packages world.state)
      deleteSession outside session
  | none => pure ()
  save (fun state => { state with session := none, wireguard := none, networkName := none })

/-- Tear the interface down, then release the session. -/
def disconnectAndTearDown : AgentAction Unit := do
  liftExcept outside.down
  disconnect packages outside

def logout : AgentAction Unit :=
  save (fun state => { state with
    accessToken := none
    email := none
    userId := none
    session := none
    wireguard := none
    networkName := none })

end ControlClient

end WslVpn.Agent
