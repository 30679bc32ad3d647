import WslVpn.Agent.Cli
import WslVpn.Interleaving.Runs

/-! A session that is still active is the one whose id the agent holds, unless the session was let go. -/

namespace WslVpn.Agent

open Dns (Text)
open Fallible

-----------------------------------------------------------------------------------------
-- Letting go
-----------------------------------------------------------------------------------------

namespace World

variable (packages : Packages) (world : World)

/-- The URL is accepted, and it is another one. -/
def Moves (url : Text) : Prop :=
  ∃ accepted, validateControlUrl packages url = .ok accepted ∧ accepted ≠ world.state.controlUrl

/-- A connect comes to the request for a new session. -/
def Asks (outside : Outside) (network profile : Option Text) : Prop :=
  ∃ chosen asked request, exec (chooseProfile profile) world = (.ok (), chosen)
    ∧ chosen.state.mode ≠ .direct
    ∧ exec (ControlClient.sessionRequest packages outside network) chosen = (.ok request, asked)

/-- The command lets go of the session. -/
inductive Drops (outside : Outside) (session : SessionRef) : Commands → Prop where
  | signedOut (holds : world.held = some session) : Drops outside session .logout
  | moved {url : Text} (holds : world.held = some session) (moves : world.Moves packages url)
    : Drops outside session (.controlUrl (some url))
  /-- A new session takes its place. -/
  | replaced {network profile : Option Text} {noTunnel : Bool} {resp : CreateSessionResponse}
    (holds : world.held = some session) (asks : world.Asks packages outside network profile)
    (answered : outside.create = .answered resp)
    : Drops outside session (.connect network profile noTunnel)
  /-- The agent is not told of it. -/
  | untold {network profile : Option Text} {noTunnel : Bool} {status : Option Nat}
    (asks : world.Asks packages outside network profile)
    (failed : outside.create = .failed status (some session.id))
    (here : world.state.controlUrl = session.controlUrl)
    : Drops outside session (.connect network profile noTunnel)
  /-- Its end is asked for, in vain. -/
  | unserved {noTunnel : Bool} (holds : world.held = some session) (indirect : world.state.mode ≠ .direct)
    (torn : noTunnel = true ∨ outside.down = .ok ())
    (authorised : ∃ value, authHeaders packages world.state = .ok value)
    (unserved : outside.delete = false)
    : Drops outside session (.disconnect noTunnel)

/-- The session is let go at the event. -/
inductive LetsGo (session : SessionRef) : AgentEvent → Prop where
  | moved {url : Text} {command : Commands} {outside : Outside} (holds : world.held = some session)
    (moves : world.Moves packages url)
    : LetsGo session (.command ⟨some url, command⟩ outside)
  | drops {cli : Cli} {outside : Outside} {pointed : World}
    (points : exec (applyControlUrl packages cli.controlUrl) world = (.ok (), pointed))
    (drops : pointed.Drops packages outside session cli.command)
    : LetsGo session (.command cli outside)

/-- At one of the events the session was let go. -/
def LetGo (events : List AgentEvent) (session : SessionRef) : Prop :=
  ∃ before event rest, events = before ++ event :: rest
    ∧ (world.run packages before).LetsGo packages session event

/-- The last of the events is a disconnect that reports success, and not of an imported profile. -/
def EndsReleased (events : List AgentEvent) : Prop :=
  ∃ before controlUrl noTunnel outside, events
    = before ++ [.command ⟨controlUrl, .disconnect noTunnel⟩ outside]
    ∧ (world.run packages before).state.mode ≠ .direct
    ∧ (exec (main packages outside ⟨controlUrl, .disconnect noTunnel⟩) (world.run packages before)).1 = .ok ()

/-- Every session that is active is the one whose id the agent holds. -/
def Remembers : Prop := ∀ session ∈ world.active, world.held = some session

/-- All that matters of the agent and the control planes for the sessions. -/
def sessions : Text × Option Session × List SessionRef :=
  (world.state.controlUrl, world.state.session, world.active)

/-- If the session is active, then the agent holds its id. -/
def Kept (session : SessionRef) : Prop := session ∈ world.active → world.held = some session

end World

-----------------------------------------------------------------------------------------
-- Commands that leave the sessions alone
-----------------------------------------------------------------------------------------

section Leaves

variable {packages : Packages} {outside : Outside}

theorem ensureLibraryIn_session (data : DataDir) (state : AgentState)
    : (ensureLibraryIn data state).2.session = state.session
      ∧ (ensureLibraryIn data state).2.controlUrl = state.controlUrl := by
  unfold ensureLibraryIn
  cases state.profile with
  | none => exact ⟨rfl, rfl⟩
  | some active =>
      dsimp only
      split
      · exact ⟨rfl, rfl⟩
      · exact ⟨rfl, rfl⟩

theorem importIn_session {publicKeyFromPrivate : Text → Option Text} (data : DataDir)
    (state : AgentState)
    (text name : Text)
    : (importIn publicKeyFromPrivate data state text name).2.2.session = state.session
      ∧ (importIn publicKeyFromPrivate data state text name).2.2.controlUrl = state.controlUrl := by
  rcases importIn_cases with ⟨message, refused⟩ | ⟨profile, data', state', accepted, imported⟩
  · rw [refused]
    exact ensureLibraryIn_session data state
  · rw [accepted, imported.listed]
    exact ensureLibraryIn_session data state

theorem removeIn_session (data : DataDir) (state : AgentState) (name : Option Text)
    (tunnelUp : Bool)
    : (removeIn data state name tunnelUp).2.2.session = state.session
      ∧ (removeIn data state name tunnelUp).2.2.controlUrl = state.controlUrl := by
  rcases removeIn_cases with ⟨message, refused⟩ | ⟨target, data', state', accepted, removed⟩
  · rw [refused]
    exact ensureLibraryIn_session data state
  · rw [accepted, removed.listed]
    exact ensureLibraryIn_session data state

/-- The session is part of the agent's state. -/
theorem World.sessions_saved {world : World} {data : DataDir} {state : AgentState}
    (same : state.session = world.state.session ∧ state.controlUrl = world.state.controlUrl)
    : World.sessions ⟨state, data, world.active⟩ = world.sessions := by
  simp only [World.sessions, same.1, same.2]

theorem leaves_login : Leaves World.sessions (ControlClient.login outside) := by
  refine leaves_bind leaves_liftExcept ?_
  intro token
  cases token with
  | none => exact leaves_pure
  | some token => exact leaves_bind (leaves_modify fun _ => rfl) fun _ => leaves_pure

theorem leaves_ensureDevice
    : Leaves World.sessions (ControlClient.ensureDevice packages outside) := by
  refine leaves_bind leaves_get ?_
  intro world
  cases world.state.deviceId with
  | some id => exact leaves_pure
  | none =>
      refine leaves_bind leaves_liftExcept fun _ => leaves_bind leaves_liftExcept fun device => ?_
      exact leaves_bind (leaves_modify fun _ => rfl) fun _ => leaves_pure

theorem leaves_listNetworks : Leaves World.sessions (ControlClient.listNetworks packages outside) :=
  leaves_bind leaves_get fun _ => leaves_bind leaves_liftExcept fun _ => leaves_liftExcept

theorem leaves_sessionRequest {network : Option Text}
    : Leaves World.sessions (ControlClient.sessionRequest packages outside network) := by
  refine leaves_bind leaves_ensureDevice fun _ => leaves_bind leaves_listNetworks fun _ => ?_
  refine leaves_bind leaves_liftExcept fun _ => leaves_bind leaves_get fun _ => ?_
  exact leaves_bind leaves_liftExcept fun _ => leaves_pure

theorem leaves_selectProfile {name : Text} : Leaves World.sessions (selectProfile name) := by
  refine leaves_get_bind ?_
  intro world
  cases chosen : selectIn (ensureLibraryIn world.data world.state).2 name with
  | error message =>
      simp only [exec_bind, exec_modify, exec_liftExcept, chosen]
      rfl
  | ok found =>
      simp only [exec_bind, exec_modify, exec_liftExcept, chosen, save]
      refine World.sessions_saved ?_
      unfold selectIn at chosen
      split at chosen
      · cases chosen
      · cases chosen
        exact ensureLibraryIn_session _ _

theorem leaves_chooseProfile {profile : Option Text}
    : Leaves World.sessions (chooseProfile profile) := by
  cases profile with
  | none => exact leaves_pure
  | some name => exact leaves_selectProfile

theorem leaves_profileCommand {command : ProfileCommand}
    : Leaves World.sessions (profileCommand packages outside command) := by
  cases command with
  | importConfig name =>
      refine leaves_bind leaves_liftExcept fun text => leaves_get_bind ?_
      intro world
      have same :=
        @importIn_session packages.publicKeyFromPrivate world.data world.state text name
      revert same
      generalize importIn packages.publicKeyFromPrivate world.data world.state text name = imported
      obtain ⟨result, data, state⟩ := imported
      intro same
      cases result with
      | error message =>
          simp only [exec_bind, exec_modify, exec_liftExcept]
          rfl
      | ok profile =>
          simp only [exec_bind, exec_modify, exec_liftExcept, save]
          exact World.sessions_saved same
  | list =>
      refine leaves_get_bind ?_
      intro world
      simp only [exec_bind, exec_modify, save]
      exact World.sessions_saved (ensureLibraryIn_session _ _)
  | use name => exact leaves_selectProfile
  | useNone => exact leaves_modify fun _ => rfl
  | remove name =>
      refine leaves_get_bind ?_
      intro world
      have same := removeIn_session world.data world.state name outside.tunnelUp
      revert same
      generalize removeIn world.data world.state name outside.tunnelUp = removed
      obtain ⟨result, data, state⟩ := removed
      intro same
      cases result with
      | error message =>
          simp only [exec_bind, exec_modify, exec_liftExcept]
          rfl
      | ok done =>
          simp only [exec_bind, exec_modify, exec_liftExcept, save]
          exact World.sessions_saved same

theorem leaves_connectProfile : Leaves World.sessions (connectProfile outside) := by
  refine leaves_bind leaves_get ?_
  intro world
  cases world.state.profile with
  | none => exact leaves_throw
  | some active => exact leaves_bind leaves_liftExcept fun _ => leaves_liftExcept

end Leaves

-----------------------------------------------------------------------------------------
-- Commands that do not
-----------------------------------------------------------------------------------------

section Steps

variable {packages : Packages} {outside : Outside} {world after : World} {session : SessionRef}

theorem World.held_of_sessions (same : after.sessions = world.sessions)
    : after.held = world.held := by
  obtain ⟨sameUrl, sameRest⟩ := Prod.mk.inj same
  obtain ⟨sameSession, _⟩ := Prod.mk.inj sameRest
  rw [World.held, World.held, sameUrl, sameSession]

theorem World.active_of_sessions (same : after.sessions = world.sessions)
    : after.active = world.active :=
  congrArg (fun seen => seen.2.2) same

theorem World.controlUrl_of_sessions (same : after.sessions = world.sessions)
    : after.state.controlUrl = world.state.controlUrl :=
  congrArg Prod.fst same

theorem World.kept_of_sessions (same : after.sessions = world.sessions) (kept : world.Kept session)
    : after.Kept session := by
  intro active
  rw [World.active_of_sessions same] at active
  rw [World.held_of_sessions same]
  exact kept active

/-- A session that is not held is not active. -/
theorem World.kept_of_gone (gone : session ∉ after.active) : after.Kept session :=
  fun active => absurd active gone

/-- The URL is refused, or it is the agent's, or the agent is signed out. -/
theorem setControlUrl_cases (packages : Packages) (world : World) (url : Text)
    : (∃ message, exec (setControlUrl packages url) world = (.error message, world))
      ∨ exec (setControlUrl packages url) world = (.ok (), world)
      ∨ ∃ after, exec (setControlUrl packages url) world = (.ok (), after)
        ∧ world.Moves packages url
        ∧ after.held = none ∧ after.active = world.active
        ∧ after.state.profile = world.state.profile := by
  have unfolded : exec (setControlUrl packages url) world
      = match world.state.setControlUrl packages url with
        | .ok state => (.ok (), { world with state })
        | .error message => (.error message, world) := by
    simp only [setControlUrl, exec_bind, exec_get, exec_liftExcept, save]
    cases world.state.setControlUrl packages url with
    | ok state => rfl
    | error message => rfl
  rw [unfolded, AgentState.setControlUrl]
  cases valid : validateControlUrl packages url with
  | error message => exact Or.inl ⟨message, rfl⟩
  | ok accepted =>
      right
      by_cases same : accepted = world.state.controlUrl
      · left
        simp [Except.map, same]
      · right
        simp only [Except.map, ne_eq, same, not_false_eq_true, if_true]
        exact ⟨_, rfl, ⟨accepted, valid, same⟩, rfl, rfl, rfl⟩

theorem kept_applyControlUrl {url : Option Text} (kept : world.Kept session)
    (stays : ∀ url' ∈ url, world.held = some session → ¬ world.Moves packages url')
    : (exec (applyControlUrl packages url) world).2.Kept session := by
  cases url with
  | none => exact kept
  | some url =>
      rcases setControlUrl_cases packages world url with ⟨message, refused⟩ | same | moved
      · rw [applyControlUrl, refused]
        exact kept
      · rw [applyControlUrl, same]
        exact kept
      · obtain ⟨after, ran, moves, _, active, _⟩ := moved
        rw [applyControlUrl, ran]
        refine World.kept_of_gone ?_
        intro still
        exact stays url rfl (kept (active ▸ still)) moves

/-- The URL of the control plane has nothing to do with the profiles. -/
theorem applyControlUrl_profile {url : Option Text} {pointed : World}
    (points : exec (applyControlUrl packages url) world = (.ok (), pointed))
    : pointed.state.profile = world.state.profile := by
  cases url with
  | none =>
      cases points
      rfl
  | some url =>
      rcases setControlUrl_cases packages world url with ⟨message, refused⟩ | same | moved
      · cases refused.symm.trans points
      · cases same.symm.trans points
        rfl
      · obtain ⟨after, ran, _, _, _, profile⟩ := moved
        cases ran.symm.trans points
        exact profile

theorem mode_direct {state : AgentState} : state.mode = .direct ↔ state.profile.isSome = true := by
  unfold AgentState.mode
  cases state.profile with
  | some profile => simp
  | none =>
      simp only [Option.isSome_none, Bool.false_eq_true, if_false, iff_false]
      split
      · simp
      · simp

theorem exec_createSession_answered {resp : CreateSessionResponse}
    (created : outside.create = .answered resp)
    : exec (ControlClient.createSession outside) world
      = (.ok resp, world.opened resp.session.id) := by
  unfold ControlClient.createSession
  rw [created]
  rfl

theorem exec_createSession_failed {status : Option Nat} {made : Option Uuid}
    (created : outside.create = .failed status made)
    : exec (ControlClient.createSession outside) world
      = (.error (ControlClient.creationError status), made.elim world world.opened) := by
  unfold ControlClient.createSession
  rw [created]
  cases made with
  | none => rfl
  | some id => rfl

/-- A connect holds the session that it is answered, whatever comes of the config. -/
theorem connect_answered {network : Option Text} {request : CreateSessionRequest × String}
    {asked : World}
    {resp : CreateSessionResponse} (created : outside.create = .answered resp)
    (ran : exec (ControlClient.sessionRequest packages outside network) world
      = (.ok request, asked))
    : (exec (ControlClient.connect packages outside network) world).2.sessions
      = (asked.state.controlUrl, some resp.session,
          ⟨asked.state.controlUrl, resp.session.id⟩ :: asked.active) := by
  rw [ControlClient.connect, exec_bind_ok ran, exec_bind_ok (exec_createSession_answered created)]
  rw [save, exec_bind_ok exec_modify, exec_bind_ok exec_get]
  cases outside.privateKey with
  | none => rfl
  | some privateKey =>
      refine (leaves_bind leaves_liftExcept fun _ => leaves_pure) _

/-- A connect is refused before it asks for a session, or it has one made. -/
theorem kept_connect {network : Option Text} (kept : world.Kept session)
    (stays : ∀ request asked,
      exec (ControlClient.sessionRequest packages outside network) world = (.ok request, asked) →
        (∀ resp, outside.create = .answered resp → world.held ≠ some session)
        ∧ ∀ status, outside.create = .failed status (some session.id) →
          world.state.controlUrl ≠ session.controlUrl)
    : (exec (ControlClient.connect packages outside network) world).2.Kept session := by
  rcases ran : exec (ControlClient.sessionRequest packages outside network) world
      with ⟨result, asked⟩
  have same : asked.sessions = world.sessions := by
    have same := @leaves_sessionRequest packages outside network world
    rwa [ran] at same
  have kept' := World.kept_of_sessions same kept
  cases result with
  | error message =>
      rw [ControlClient.connect, exec_bind_error ran]
      exact kept'
  | ok request =>
      obtain ⟨replaces, untold⟩ := stays request asked ran
      cases created : outside.create with
      | failed status made =>
          rw [ControlClient.connect, exec_bind_ok ran,
            exec_bind_error (exec_createSession_failed created)]
          cases made with
          | none => exact kept'
          | some id =>
              intro active
              rcases List.mem_cons.mp active with new | old
              · cases new
                exact absurd (World.controlUrl_of_sessions same).symm (untold status created)
              · exact kept' old
      | answered resp =>
          have result := connect_answered created ran
          intro active
          have active' : session
              ∈ (exec (ControlClient.connect packages outside network) world).2.sessions.2.2 :=
            active
          rw [result] at active'
          rcases List.mem_cons.mp active' with new | old
          · obtain ⟨url, rest⟩ := Prod.mk.inj result
            rw [World.held, url, (Prod.mk.inj rest).1, new]
            rfl
          · rw [World.active_of_sessions same] at old
            exact absurd (kept old) (replaces resp created)

theorem kept_disconnect (kept : world.Kept session)
    (serves : world.held = some session → (∃ value, authHeaders packages world.state = .ok value) →
      outside.delete = true)
    : (exec (ControlClient.disconnect packages outside) world).2.Kept session := by
  rw [ControlClient.disconnect, exec_bind_ok exec_get]
  cases holds : world.held with
  | none =>
      refine World.kept_of_gone ?_
      intro active
      cases holds.symm.trans (kept active)
  | some other =>
      dsimp only
      cases authorised : authHeaders packages world.state with
      | error message => exact kept
      | ok value =>
          refine World.kept_of_gone ?_
          intro active
          cases served : outside.delete with
          | false =>
              rw [ControlClient.deleteSession, served] at active
              rw [serves (kept active) ⟨value, authorised⟩] at served
              cases served
          | true =>
              rw [ControlClient.deleteSession, served] at active
              obtain ⟨active, apart⟩ := List.mem_filter.mp active
              have same : other = session := Option.some.inj (holds.symm.trans (kept active))
              exact absurd same.symm (of_decide_eq_true apart)

theorem disconnect_releases
    (reported : (exec (ControlClient.disconnect packages outside) world).1 = .ok ())
    : (exec (ControlClient.disconnect packages outside) world).2.held = none := by
  rw [ControlClient.disconnect, exec_bind_ok exec_get] at reported ⊢
  cases holds : world.held with
  | none => rfl
  | some other =>
      rw [holds] at reported
      dsimp only at reported ⊢
      cases authorised : authHeaders packages world.state with
      | error message =>
          rw [authorised] at reported
          cases reported
      | ok value =>
          unfold ControlClient.deleteSession
          split
          · rfl
          · rfl

/-- Every command but those that let go of the session. -/
theorem kept_runCommand {command : Commands} (kept : world.Kept session)
    (stays : ¬ world.Drops packages outside session command)
    : (exec (runCommand packages outside command) world).2.Kept session := by
  cases command with
  | login =>
      refine World.kept_of_sessions (leaves_bind leaves_login ?_ world) kept
      intro signedIn
      split
      · exact leaves_bind leaves_ensureDevice fun _ => leaves_pure
      · exact leaves_pure
  | logout =>
      refine World.kept_of_gone ?_
      intro active
      exact stays (.signedOut (kept active))
  | controlUrl url =>
      refine kept_applyControlUrl kept ?_
      intro url' given holds moves
      cases given
      exact stays (.moved holds moves)
  | profile command =>
      rw [runCommand]
      exact World.kept_of_sessions (leaves_profileCommand world) kept
  | connect network profile noTunnel =>
      rw [runCommand]
      rcases ran : exec (chooseProfile profile) world with ⟨result, chosen⟩
      have same : chosen.sessions = world.sessions := by
        have same := @leaves_chooseProfile profile world
        rwa [ran] at same
      have kept' := World.kept_of_sessions same kept
      cases result with
      | error message =>
          rw [exec_bind_error ran]
          exact kept'
      | ok done =>
          rw [exec_bind_ok ran, exec_bind_ok exec_get]
          by_cases direct : chosen.state.mode = .direct
          · rw [if_pos direct]
            exact World.kept_of_sessions (leaves_ite leaves_throw leaves_connectProfile chosen)
              kept'
          · rw [if_neg direct]
            have connected : (exec (ControlClient.connect packages outside network) chosen).2.Kept
                session := by
              refine kept_connect kept' ?_
              intro request asked requested
              have asks : world.Asks packages outside network profile :=
                ⟨chosen, asked, request, ran, direct, requested⟩
              refine ⟨?_, ?_⟩
              · intro resp answered holds
                rw [World.held_of_sessions same] at holds
                exact stays (.replaced holds asks answered)
              · intro status failed here
                rw [World.controlUrl_of_sessions same] at here
                exact stays (.untold asks failed here)
            split
            · refine World.kept_of_sessions (leaves_behind ?_) connected
              exact fun _ => leaves_pure
            · refine World.kept_of_sessions (leaves_behind ?_) ?_
              · exact fun _ => leaves_pure
              · unfold ControlClient.connectAndBringUp
                refine World.kept_of_sessions (leaves_behind ?_) connected
                exact fun _ => leaves_bind leaves_liftExcept fun _ => leaves_pure
  | disconnect noTunnel =>
      rw [runCommand, exec_bind_ok exec_get]
      by_cases direct : world.state.mode = .direct
      · rw [if_pos direct, exec_liftExcept]
        exact kept
      · have released (torn : noTunnel = true ∨ outside.down = .ok ())
            : (exec (ControlClient.disconnect packages outside) world).2.Kept session := by
          refine kept_disconnect kept ?_
          intro holds authorised
          by_contra unserved
          exact stays (.unserved holds direct torn authorised (Bool.eq_false_of_not_eq_true unserved))
        rw [if_neg direct]
        split
        · next alone => exact released (Or.inl alone)
        · unfold ControlClient.disconnectAndTearDown
          cases torn : outside.down with
          | error message => exact kept
          | ok done =>
              rw [exec_bind_ok exec_liftExcept]
              exact released (Or.inr torn)

/-- Every event but those at which the session is let go. -/
theorem kept_step {event : AgentEvent} (kept : world.Kept session)
    (stays : ¬ world.LetsGo packages session event)
    : (world.step packages event).Kept session := by
  cases event with
  | ends other =>
      intro active
      exact kept (List.mem_filter.mp active).1
  | command cli outside =>
      rw [World.step, main]
      have kept' : (exec (applyControlUrl packages cli.controlUrl) world).2.Kept session := by
        refine kept_applyControlUrl kept ?_
        intro url given holds moves
        obtain ⟨controlUrl, command⟩ := cli
        cases given
        exact stays (.moved holds moves)
      rcases points : exec (applyControlUrl packages cli.controlUrl) world with ⟨result, pointed⟩
      rw [points] at kept'
      cases result with
      | error message =>
          rw [exec_bind_error points]
          exact kept'
      | ok done =>
          rw [exec_bind_ok points]
          exact kept_runCommand kept' (fun drops => stays (.drops points drops))

/-- Behind a disconnect that reports success the agent holds no session. -/
theorem released_held {events : List AgentEvent} (released : world.EndsReleased packages events)
    : (world.run packages events).held = none := by
  obtain ⟨before, controlUrl, noTunnel, outside, split, indirect, reported⟩ := released
  have last : world.run packages events
      = (exec (main packages outside ⟨controlUrl, .disconnect noTunnel⟩) (world.run packages before)).2 := by
    rw [split, World.run, List.foldl_append]
    rfl
  rw [last]
  rw [main] at reported ⊢
  rcases points : exec (applyControlUrl packages controlUrl) (world.run packages before)
    with ⟨result, pointed⟩
  cases result with
  | error message =>
      rw [exec_bind_error points] at reported
      cases reported
  | ok done =>
      rw [exec_bind_ok points, runCommand, exec_bind_ok exec_get] at reported ⊢
      have indirect' : pointed.state.mode ≠ .direct := by
        rw [ne_eq, mode_direct, applyControlUrl_profile points, ← mode_direct]
        exact indirect
      rw [if_neg indirect'] at reported ⊢
      split at reported
      · next alone =>
          rw [if_pos alone]
          exact disconnect_releases reported
      · next both =>
          rw [if_neg both]
          unfold ControlClient.disconnectAndTearDown at reported ⊢
          cases torn : outside.down with
          | error message =>
              rw [torn] at reported
              cases reported
          | ok done =>
              rw [torn, exec_bind_ok exec_liftExcept] at reported
              rw [exec_bind_ok exec_liftExcept]
              exact disconnect_releases reported

end Steps

-----------------------------------------------------------------------------------------
-- Runs
-----------------------------------------------------------------------------------------

/-- In every run, a session that is still active is the one whose id the agent holds, or it was let go
at one of the events: by a sign-out, by a move to another control plane, or by one of the failures. And
when the last command is a disconnect that reports success, none but those let go is active.
-/
theorem active_held_or_let_go {packages : Packages} {world : World} {events : List AgentEvent}
    {session : SessionRef} (remembers : world.Remembers)
    (active : session ∈ (world.run packages events).active)
    : ((world.run packages events).held = some session ∨ world.LetGo packages events session)
      ∧ (world.EndsReleased packages events → world.LetGo packages events session) := by
  have main : (world.run packages events).held = some session
      ∨ world.LetGo packages events session := by
    by_cases holds : (world.run packages events).held = some session
    · exact Or.inl holds
    · right
      have forgotten : ¬ (world.run packages events).Kept session := fun kept => holds (kept active)
      obtain ⟨before, event, rest, split, kept, gone⟩ :=
        @Runs.lost _ _ world (World.step packages) (World.Kept · session) events (remembers session) forgotten
      exact ⟨before, event, rest, split, by_contra fun stays => gone (kept_step kept stays)⟩
  refine ⟨main, ?_⟩
  intro released
  rcases main with holds | letGo
  · cases (released_held released).symm.trans holds
  · exact letGo

-----------------------------------------------------------------------------------------
-- A sign-out with an open session
-----------------------------------------------------------------------------------------

/-- Packages for which headers are of visible characters. -/
def plainPackages : Packages where
  parseUrl _ := none
  isHeaderValue value := value.all (fun char => 32 ≤ char.toNat && char.toNat < 127)
  publicKeyFromPrivate := quickStartPair

def freshWorld : World := ⟨.fresh, .empty true, []⟩

def officeSession : Session where
  id := 7
  userId := 1
  deviceId := 2
  gatewayId := 3
  networkId := 4
  policyId := none
  policyVersion := none
  assignedIp := "10.80.0.7/32"
  status := .active
  createdAt := 0
  expiresAt := seconds 28800

/-- Everything works. -/
def calm : Outside where
  signIn := .ok (some ⟨['t'], 1, ['a']⟩)
  register := .ok ⟨2, ['d'], quickStartPublicKey⟩
  networks := .ok [⟨4, "office", "10.80.0.0/24", [], []⟩]
  posture := []
  create := .answered ⟨officeSession, ⟨true, none, none, none, none, "", [], none⟩,
    ⟨"10.80.0.7/32", [], "k", "gw.example.com:51820", ["10.80.0.0/24"], 25⟩⟩
  delete := true
  privateKey := some quickStartKey
  up := .ok ()
  down := .ok ()
  tunnelUp := false
  configFile := .error []

def calmly (command : Commands) : AgentEvent := .command ⟨none, command⟩ calm

def connected : List AgentEvent := [calmly .login, calmly (.connect none none false)]

/-- Signed out in between, and disconnected with success. -/
def signedOut : List AgentEvent := connected ++ [calmly .logout]

theorem signed_out_stays
    : (freshWorld.run plainPackages connected).held = some ⟨defaultControlUrl, 7⟩
      ∧ (freshWorld.run plainPackages signedOut).held = none
      ∧ ⟨defaultControlUrl, 7⟩ ∈ (freshWorld.run plainPackages signedOut).active
      ∧ (exec (main plainPackages calm ⟨none, .disconnect false⟩)
          (freshWorld.run plainPackages signedOut)).1.toOption = some ()
      ∧ ⟨defaultControlUrl, 7⟩
        ∈ (freshWorld.run plainPackages (signedOut ++ [calmly (.disconnect false)])).active := by
  decide +kernel

theorem signed_out_let_go
    : freshWorld.LetGo plainPackages (signedOut ++ [calmly (.disconnect false)]) ⟨defaultControlUrl, 7⟩ :=
  (active_held_or_let_go (fun _ active => (List.not_mem_nil active).elim) (by decide +kernel)).2
    ⟨signedOut, none, false, calm, rfl, by decide +kernel, rfl⟩

end WslVpn.Agent
