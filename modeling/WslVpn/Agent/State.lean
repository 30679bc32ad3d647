import WslVpn.Dns.Text
import WslVpn.Types

/-! What the agent remembers between commands, and the WireGuard config that it renders from it. -/

namespace WslVpn.Agent

open Dns (Text trim)

/-- One `[Peer]`, for display. -/
structure PeerSummary where
  publicKey : Text
  endpoint : Option Text
  allowedIps : List Text
  persistentKeepalive : Option Text
  deriving DecidableEq

/-- What the UI and `wsl status` show about an imported profile. -/
structure DirectProfile where
  name : Text
  endpoint : Text
  address : List Text
  dns : List Text
  allowedIps : List Text
  publicKey : Option Text
  mtu : Option Text
  listenPort : Option Text
  peers : List PeerSummary
  deriving DecidableEq

structure AgentState where
  controlUrl : Text
  accessToken : Option Text
  email : Option Text
  userId : Option Uuid
  deviceId : Option Uuid
  deviceName : Option Text
  wireguardPublicKey : Option Text
  session : Option Session
  wireguard : Option ClientWireGuardConfig
  networkName : Option Text
  /-- An imported config. While there is one, Connect uses it. -/
  profile : Option DirectProfile
  profiles : List DirectProfile
  deriving DecidableEq

/-- `AgentState::default()`. -/
def AgentState.default : AgentState :=
  ⟨[], none, none, none, none, none, none, none, none, none, none, []⟩

end WslVpn.Agent
