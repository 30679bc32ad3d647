import WslVpn.Gateway.Apply

/-! The main loop of the gateway. Each iteration sends one heartbeat and may apply the configuration
that is answered to it.
-/

namespace WslVpn

/-- What comes back from a heartbeat. -/
inductive HeartbeatResponse where
  | failed
  /-- The gateway enrols again, and the iteration ends. -/
  | unauthorized
  | answered (config : GatewayConfig)

/-- What one iteration meets: the answer to its heartbeat, the clock, and the answers of the host.
-/
structure Cycle where
  response : HeartbeatResponse
  /-- The clock when the expiry of the configuration is checked. -/
  now : Timestamp
  /-- The clock as it is read for one peer after the other. -/
  clock : Nat → Timestamp
  answers : HostAnswers

structure LoopState where
  lastVersion : Int
  /-- An `i32`. -/
  peerCount : Int
  host : Host

namespace LoopState

/-- The gateway has just been started. -/
def start (host : Host) : LoopState where
  lastVersion := -1
  peerCount := 0
  host := host

def heartbeatRequest (state : LoopState) : GatewayHeartbeatRequest where
  configVersion := max state.lastVersion 0
  peerCount := state.peerCount
  healthy := true

/-- One turn of the loop. -/
def iterate (cfg : GatewayConfigFile) (privateKey : Option String) (state : LoopState)
    (cycle : Cycle) : LoopState :=
  match cycle.response with
  | .failed | .unauthorized => state
  | .answered config =>
      if config.version ≠ state.lastVersion then
        -- An expired configuration is refused.
        if config.expiresAt < cycle.now then state
        else
          match applyConfig cfg cycle.clock cycle.answers config privateKey state.host with
          | (.ok applied, host) =>
              ⟨config.version, Int.bmod (applied : Int) (2 ^ 32), host⟩
          -- The version stays, so that the next heartbeat tries again.
          | (.error _, host) => { state with host }
      else state

/-- The turns of the loop one after another. -/
def run (cfg : GatewayConfigFile) (privateKey : Option String) (state : LoopState)
    (cycles : List Cycle) : LoopState :=
  cycles.foldl (iterate cfg privateKey) state

end LoopState

end WslVpn
