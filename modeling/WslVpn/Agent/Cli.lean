import WslVpn.Agent.ControlClient

/-! The commands of `wsl` that sign in and out, connect and disconnect, and change the settings. -/

namespace WslVpn.Agent

open Dns (Text)
open Fallible

inductive ProfileCommand where
  | importConfig (name : Text)
  | list
  | use (name : Text)
  | useNone
  | remove (name : Option Text)

inductive Commands where
  | login
  | logout
  | connect (network profile : Option Text) (noTunnel : Bool)
  | disconnect (noTunnel : Bool)
  | controlUrl (url : Option Text)
  | profile (command : ProfileCommand)

structure Cli where
  controlUrl : Option Text
  command : Commands

section Commands

variable (packages : Packages) (outside : Outside)

/-- `set_control_url` and `save`. -/
def setControlUrl (url : Text) : AgentAction Unit := do
  let world ← get
  let state ← liftExcept (world.state.setControlUrl packages url)
  save (fun _ => state)

def applyControlUrl : Option Text → AgentAction Unit
  | some url => setControlUrl packages url
  | none => pure ()

/-- Make the profile the one that Connect uses. -/
def selectProfile (name : Text) : AgentAction Unit := do
  let world ← get
  let (data, state) := ensureLibraryIn world.data world.state
  modify ({ · with data })
  let (_, state) ← liftExcept (selectIn state name)
  save (fun _ => state)

def chooseProfile : Option Text → AgentAction Unit
  | some name => selectProfile name
  | none => pure ()

def profileCommand : ProfileCommand → AgentAction Unit
  | .importConfig name => do
      let text ← liftExcept outside.configFile
      let world ← get
      let (result, data, state) :=
        importIn packages.publicKeyFromPrivate world.data world.state text name
      modify ({ · with data })
      let _ ← liftExcept result
      save (fun _ => state)
  | .list => do
      let world ← get
      let (data, state) := ensureLibraryIn world.data world.state
      modify ({ · with data })
      save (fun _ => state)
  | .use name => selectProfile name
  | .useNone => save (fun state => { state with profile := none })
  | .remove name => do
      let world ← get
      let (result, data, state) := removeIn world.data world.state name outside.tunnelUp
      modify ({ · with data })
      liftExcept result
      save (fun _ => state)

/-- Bring the tunnel up from the active profile. -/
def connectProfile : AgentAction Unit := do
  let world ← get
  match world.state.profile with
  | none => throw "no WireGuard profile imported; run `wsl profile import <file>`".toList
  | some active =>
      let _ ← liftExcept (configTextIn world.data world.state active.name)
      liftExcept outside.up

def runCommand : Commands → AgentAction Unit
  | .login => do
      let signedIn ← ControlClient.login outside
      if signedIn then
        let _ ← ControlClient.ensureDevice packages outside
  | .logout => ControlClient.logout
  | .connect network profile noTunnel => do
      chooseProfile profile
      let world ← get
      if world.state.mode = .direct then
        if noTunnel then throw "--no-tunnel has nothing to do for an imported profile".toList
        else connectProfile outside
      else if noTunnel then
        let _ ← ControlClient.connect packages outside network
      else
        let _ ← ControlClient.connectAndBringUp packages outside network
  | .disconnect noTunnel => do
      let world ← get
      if world.state.mode = .direct then liftExcept outside.down
      else if noTunnel then ControlClient.disconnect packages outside
      else ControlClient.disconnectAndTearDown packages outside
  | .controlUrl url => applyControlUrl packages url
  | .profile command => profileCommand packages outside command

def main (cli : Cli) : AgentAction Unit := do
  applyControlUrl packages cli.controlUrl
  runCommand packages outside cli.command

end Commands

-----------------------------------------------------------------------------------------
-- Runs
-----------------------------------------------------------------------------------------

/-- What happens to the agent or to its sessions. -/
inductive AgentEvent where
  | command (cli : Cli) (outside : Outside)
  /-- A session expires, or somebody else ends it. -/
  | ends (session : SessionRef)

namespace World

variable (packages : Packages)

def step (world : World) : AgentEvent → World
  | .command cli outside => (exec (main packages outside cli) world).2
  | .ends session => world.ended session

def run (world : World) (events : List AgentEvent) : World := events.foldl (step packages) world

end World

end WslVpn.Agent
