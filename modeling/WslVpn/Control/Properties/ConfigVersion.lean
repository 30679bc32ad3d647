import WslVpn.Control.Properties.AnnouncedChanges

/-! What a configuration version stands for. The version is read first and the content by later
statements, and no version is drawn from the content: a change that is not followed by a bump, or that
falls between the reads of one call, gives one version two contents.
-/

namespace WslVpn

open AddressSpace Interleaving

/-- The configuration has this version and this content. -/
structure Shows (served : Served) (version : Int) (config : GatewayConfig) : Prop where
  version : config.version = version
  cidr : served.cidr = some config.privateNetworkCidr
  peers : config.peers = served.peers
  routes : config.routes = served.routes
  services : config.services = served.services

/-- The request is answered with the configuration of the gateway. -/
def Request.AsksFor (id : Uuid) : Request → Prop
  | .gatewayConfig gatewayId | .gatewayHeartbeat gatewayId _ => gatewayId = id
  | _ => False

/-- A statement between the version and the answer of a configuration. -/
def Statement.readsContent : Statement → Bool
  | .selectNetworkCidr _ | .expireSessions _ | .deleteExpiredPeers _ | .selectServedPeers _
  | .selectRouteDestinations _ | .selectServices _ => true
  | _ => false

-----------------------------------------------------------------------------------------
-- The condition on runs
-----------------------------------------------------------------------------------------

namespace ControlPlane

section Condition

variable (requests : List Request) (id : Uuid)

/-- The call asks for the gateway's configuration, and its next statement reads this version. -/
structure TakesVersion (plane : ControlPlane) (call : Nat) (version : Int) : Prop where
  asks : ∃ request, requests[call]? = some request ∧ request.AsksFor id
  runs : plane.Runs call (.selectGateway id)
  current : plane.state.versionOf id = some version

/-- The call has its version and goes on to read the content. -/
def MidRead (plane : ControlPlane) (call : Nat) : Prop :=
  ∃ statement, plane.Runs call statement ∧ statement.readsContent = true

variable (start : ControlPlane)

/-- In the course of the turns, after those of `past`, the call has taken the version. -/
def Took (turns past : List Turn) (call : Nat) (version : Int) : Prop :=
  past ++ [.run call] <+: turns ∧ TakesVersion requests id (start.after past) call version

/-- A turn that keeps versions apart. -/
structure Orderly (before : List Turn) (turn : Turn) : Prop where
  /-- What the gateway is served does not change under a call that is still reading, if another call has
  taken the same version.
  -/
  undisturbed
    : (start.after before).Shifts id turn → ∀ call other past earlier version, call ≠ other
        → Took requests id start before past call version
        → Took requests id start before earlier other version
        → ¬ (start.after before).MidRead call
  /-- A version that another call has taken is taken again only if each change since then was made by a
  statement that bumps, and the bump was neither late, nor lost, nor in vain.
  -/
  announced
    : ∀ call version, turn = .run call → TakesVersion requests id (start.after before) call version
        → ∀ other past, Took requests id start before past other version
          → ∀ made change, past <+: made → made ++ [change] <+: before
            → (start.after made).Shifts id change
            → ∃ writer statement bump, Announced id start made change before writer statement bump

/-- From `past` on, what the gateway would be served has stayed the same. -/
def Unchanged (past turns : List Turn) : Prop :=
  ∀ between, past <+: between → between <+: turns
    → (start.after between).state.served id = (start.after past).state.served id

/-- Nothing changes under readings of one version, nor between them. -/
structure Calm (before : List Turn) (turn : Turn) : Prop where
  undisturbed
    : (start.after (before ++ [turn])).state.served id ≠ (start.after before).state.served id
      → ∀ call other past earlier version, call ≠ other
          → Took requests id start before past call version
          → Took requests id start before earlier other version
          → ¬ (start.after before).MidRead call
  unchanged
    : ∀ call version, turn = .run call → TakesVersion requests id (start.after before) call version
        → ∀ other past, Took requests id start before past other version
            → Unchanged id start past before

end Condition

end ControlPlane

-----------------------------------------------------------------------------------------
-- Programs that have read one content
-----------------------------------------------------------------------------------------

/-- The statement asks for a part of this content. -/
def Fits (id : Uuid) (served : Served) : Statement → Prop
  | .selectNetworkCidr networkId | .selectRouteDestinations networkId | .selectServices networkId =>
      served.networkId = some networkId
  | .selectServedPeers gatewayId => gatewayId = id
  | _ => True

/-- The reply is a part of this content. -/
def Tells (served : Served) : (statement : Statement) → Except DbError statement.Reply → Prop
  | .selectNetworkCidr _, .ok cidr => cidr.map networkText = served.cidr
  | .selectServedPeers _, .ok rows => rows.map servedPeer = served.peers
  | .selectRouteDestinations _, .ok destinations => destinations.map networkText = served.routes
  | .selectServices _, .ok rows => rows.filterMap servedService = served.services
  | _, _ => True

/-- All that the program has read belongs to this content and this version: if it reads the rest of the
content as well, that is what it answers.
-/
def Agrees (id : Uuid) (served : Served) (version : Int) : Call Answer → Prop
  | .done result => ∀ config, result = .ok (.config config) → Shows served version config
  | .step statement next =>
      (statement.readsContent = true ∧ Fits id served statement
        ∧ ∀ reply, Tells served statement reply → Agrees id served version (next reply))
      ∨ (statement.readsContent = false ∧ ∀ reply, ∃ result, next reply = .done result
          ∧ ∀ config, result = .ok (.config config) → Shows served version config)

/-- The statement reads the version of a gateway. -/
def Statement.takesVersion : Statement → Bool
  | .selectGateway _ => true
  | _ => false

/-- The program takes no version any more, and its answer has this one. -/
def Going (version : Int) (program : Call Answer) : Prop :=
  program.Along (fun _ _ => True) (fun statement : Statement => statement.takesVersion = false)
    (fun result => ∀ config, result = .ok (.config config) → config.version = version)

section Programs

variable {id : Uuid} {served : Served} {version : Int} {state : AppState}

/-- What a statement reads is what would be served at that moment. -/
theorem tells_of_served {statement : Statement} {db after : Db} {reply : statement.Reply}
    (fits : Fits id served statement) (same : db.served id = served)
    (ran : statement.exec db = .ok (reply, after))
    : Tells served statement (.ok reply) := by
  subst same
  cases statement with
  | selectNetworkCidr networkId =>
      cases ran
      have network : (db.gateways.find? (·.id == id)).bind (·.networkId) = some networkId := fits
      simp only [Tells, Db.served, network, Option.bind_some]
  | selectServedPeers gatewayId =>
      cases ran
      cases fits
      rfl
  | selectRouteDestinations networkId =>
      cases ran
      have network : (db.gateways.find? (·.id == id)).bind (·.networkId) = some networkId := fits
      simp only [Tells, Db.served, network, Option.elim_some]
  | selectServices networkId =>
      cases ran
      have network : (db.gateways.find? (·.id == id)).bind (·.networkId) = some networkId := fits
      simp only [Tells, Db.served, network, Option.elim_some]
  | _ => trivial

/-- One read of a configuration; where it fails, so does the call. -/
theorem Agrees.read {statement : Statement} {rest : statement.Reply → Call Answer}
    (reads : statement.readsContent = true) (fits : Fits id served statement)
    (goesOn : ∀ reply, Tells served statement (.ok reply) → Agrees id served version (rest reply))
    : Agrees id served version (query statement >>= rest) := by
  refine Or.inl ⟨reads, fits, ?_⟩
  intro reply tells
  cases reply with
  | ok reply => exact goesOn reply tells
  | error fault =>
      intro config failed
      cases failed

/-- The rest of a configuration, when the version and the network have been read. -/
theorem configOf_agrees {gw : Gateway} {networkId : Uuid}
    (network : served.networkId = some networkId)
    : Agrees id served gw.configVersion
        (GatewayService.configOf state id gw networkId >>= fun config => pure (Answer.config config)) := by
  simp only [GatewayService.configOf, bind_assoc]
  refine Agrees.read rfl network ?_
  rintro (_ | cidr) cidrTells
  · intro config failed
    cases failed
  simp only [bind_assoc]
  refine Agrees.read rfl trivial fun _ _ => ?_
  refine Agrees.read rfl trivial fun _ _ => ?_
  refine Agrees.read rfl rfl fun peers peersTell => ?_
  refine Agrees.read rfl network fun routes routesTell => ?_
  refine Agrees.read rfl network fun services servicesTell => ?_
  refine Or.inr ⟨rfl, ?_⟩
  intro reply
  cases reply with
  | ok now =>
      refine ⟨_, rfl, ?_⟩
      intro config answered
      cases answered
      exact ⟨rfl, cidrTells.symm, peersTell, routesTell, servicesTell⟩
  | error fault =>
      refine ⟨_, rfl, ?_⟩
      intro config failed
      cases failed

theorem configOf_going {gw : Gateway} {networkId : Uuid}
    : Going gw.configVersion
        (GatewayService.configOf state id gw networkId >>= fun config => pure (Answer.config config)) := by
  have fails : ∀ {error : AppError} (config : GatewayConfig),
      (Except.error error : Except AppError Answer) = .ok (.config config)
        → config.version = gw.configVersion := by
    intro error config failed
    cases failed
  simp only [GatewayService.configOf, bind_assoc]
  refine Program.Along.request rfl ?_ (fun _ _ => fails)
  rintro (_ | cidr) _
  · exact fails
  simp only [bind_assoc]
  refine Program.Along.request rfl (fun _ _ => ?_) (fun _ _ => fails)
  refine Program.Along.request rfl (fun _ _ => ?_) (fun _ _ => fails)
  refine Program.Along.request rfl (fun _ _ => ?_) (fun _ _ => fails)
  refine Program.Along.request rfl (fun _ _ => ?_) (fun _ _ => fails)
  refine Program.Along.request rfl (fun _ _ => ?_) (fun _ _ => fails)
  refine Program.Along.request rfl (fun _ _ => ?_) (fun _ _ => fails)
  intro config answered
  cases answered
  rfl

/-- A call that has not come to its version. -/
inductive Asking (state : AppState) (id : Uuid) : Call Answer → Prop where
  | config : Asking state id (Request.call state (.gatewayConfig id))
  | heartbeat (req : GatewayHeartbeatRequest)
      : Asking state id (Request.call state (.gatewayHeartbeat id req))

/-- What a call goes on with when the row of its gateway has been read. -/
def configAfter (state : AppState) (id : Uuid)
    : Except DbError (Option GatewayRow) → Call Answer
  | .error _ => .done (.error .db)
  | .ok none => .done (.error .notFound)
  | .ok (some row) =>
      match row.networkId with
      | none => .done (.error (.badRequest "gateway has no network_id; assign a network"))
      | some networkId =>
          GatewayService.configOf state id (mapGw row) networkId
            >>= fun config => pure (Answer.config config)

theorem configAfter_none {row : GatewayRow} (network : row.networkId = none)
    : configAfter state id (.ok (some row))
      = .done (.error (.badRequest "gateway has no network_id; assign a network")) := by
  simp only [configAfter, network]

theorem configAfter_some {row : GatewayRow} {networkId : Uuid}
    (network : row.networkId = some networkId)
    : configAfter state id (.ok (some row))
      = (GatewayService.configOf state id (mapGw row) networkId
          >>= fun config => pure (Answer.config config)) := by
  simp only [configAfter, network]

theorem config_call
    : Request.call state (.gatewayConfig id)
      = (.step (.selectGateway id) (configAfter state id) : Call Answer) := by
  refine congrArg (fun next => (.step (Statement.selectGateway id) next : Call Answer))
    (funext fun reply => ?_)
  rcases reply with fault | (_ | row)
  · rfl
  · rfl
  · change ((match (mapGw row).networkId with
      | none => throw (AppError.badRequest "gateway has no network_id; assign a network")
      | some networkId => GatewayService.configOf state id (mapGw row) networkId : Call GatewayConfig)
        >>= fun config => pure (Answer.config config)) = _
    cases network : row.networkId with
    | none => simp [configAfter_none network, mapGw, network]
    | some networkId => simp [configAfter_some network, mapGw, network]

/-- A heartbeat is noted before the configuration is asked for. -/
theorem heartbeat_call {req : GatewayHeartbeatRequest}
    : ∃ next, Request.call state (.gatewayHeartbeat id req)
          = (.step (.updateGatewayHeartbeat id) next : Call Answer)
        ∧ ∀ reply, Asking state id (next reply) ∨ ∃ error, next reply = .done (.error error) := by
  refine ⟨_, rfl, ?_⟩
  intro reply
  cases reply with
  | ok reply => exact Or.inl .config
  | error fault => exact Or.inr ⟨_, rfl⟩

end Programs

-----------------------------------------------------------------------------------------
-- Calls along a run
-----------------------------------------------------------------------------------------

namespace ControlPlane

section Turn

variable {id : Uuid} {served : Served} {version : Int} {plane after : ControlPlane} {turn : Turn}
  {call : Nat} {program moved : Call Answer}

theorem midRead_iff (found : plane.calls[call]? = some program)
    : plane.MidRead call
      ↔ ∃ statement, program.pending? = some statement ∧ statement.readsContent = true := by
  simp only [MidRead, runs_iff found]

theorem tells_error {statement : Statement} {fault : DbError}
    : Tells served statement (.error fault) := by
  cases statement <;> trivial

/-- A call that has read one content goes on reading it, as long as it is served. -/
theorem agrees_moved (found : plane.calls[call]? = some program)
    (agrees : Agrees id served version program)
    (same : plane.MidRead call → plane.state.served id = served)
    (moves : plane.Moves elapse turn after) (now : after.calls[call]? = some moved)
    : Agrees id served version moved ∧ (after.MidRead call → plane.MidRead call) := by
  obtain ⟨_, there, move⟩ := moves.ofCall now
  obtain rfl := Option.some.inj (found.symm.trans there)
  rcases move with ⟨rfl, _⟩ | ⟨statement, next, rfl, replied⟩
  · exact ⟨agrees, fun mid => (midRead_iff found).mpr ((midRead_iff now).mp mid)⟩
  · have tells : ∃ reply, moved = next reply
        ∧ (plane.MidRead call → Fits id served statement → Tells served statement reply) := by
      rcases replied with ⟨_, reply, _, ran, rfl⟩ | ⟨fault, rfl⟩
      · exact ⟨_, rfl, fun mid fits => tells_of_served fits (same mid) ran⟩
      · exact ⟨_, rfl, fun _ _ => tells_error⟩
    obtain ⟨reply, rfl, tells⟩ := tells
    rcases agrees with ⟨reads, fits, goesOn⟩ | ⟨_, ends⟩
    · have mid : plane.MidRead call := (midRead_iff found).mpr ⟨statement, rfl, reads⟩
      exact ⟨goesOn reply (tells mid fits), fun _ => mid⟩
    · obtain ⟨result, ended, shows⟩ := ends reply
      rw [ended] at now ⊢
      refine ⟨shows, ?_⟩
      intro mid
      obtain ⟨_, ⟨⟩, _⟩ := (midRead_iff now).mp mid

end Turn

section Run

variable {state : AppState} {requests : List Request} {id : Uuid} {start : ControlPlane}
  {turns past : List Turn} {turn : Turn} {call : Nat} {version : Int} {program : Call Answer}

/-- A version was taken before the last turn, or in it. -/
theorem took_concat
    : Took requests id start (turns ++ [turn]) past call version
      ↔ Took requests id start turns past call version
        ∨ past = turns ∧ turn = .run call
          ∧ TakesVersion requests id (start.after turns) call version := by
  unfold Took
  rw [List.prefix_concat_iff]
  constructor
  · rintro ⟨whole | earlier, takes⟩
    · obtain ⟨rfl, last⟩ := List.append_inj' whole rfl
      cases last
      exact Or.inr ⟨rfl, rfl, takes⟩
    · exact Or.inl ⟨earlier, takes⟩
  · rintro (⟨earlier, takes⟩ | ⟨rfl, rfl, takes⟩)
    · exact ⟨Or.inr earlier, takes⟩
    · exact ⟨Or.inl rfl, takes⟩

/-- How far a call that asks for the configuration has come. -/
inductive Tracked (state : AppState) (requests : List Request) (id : Uuid) (start : ControlPlane)
    (turns : List Turn) (call : Nat) : Call Answer → Prop where
  | fresh {program : Call Answer} (asking : Asking state id program)
    (none : ∀ past version, ¬ Took requests id start turns past call version)
    : Tracked state requests id start turns call program
  | going {program : Call Answer} {past : List Turn} {version : Int}
    (took : Took requests id start turns past call version) (goes : Going version program)
    : Tracked state requests id start turns call program
  | failed (error : AppError) : Tracked state requests id start turns call (.done (.error error))

/-- What the calls that ask for the configuration have read. -/
structure Consistent (state : AppState) (requests : List Request) (id : Uuid) (start : ControlPlane)
    (turns : List Turn) : Prop where
  tracked
    : ∀ call request program, requests[call]? = some request → request.AsksFor id
        → (start.after turns).calls[call]? = some program
        → Tracked state requests id start turns call program
  /-- Where nothing has changed since it took its version, a call has read what was served then. -/
  alone
    : ∀ call past version, Took requests id start turns past call version
        → Unchanged id start past turns
        → ∀ program, (start.after turns).calls[call]? = some program
          → Agrees id ((start.after past).state.served id) version program
  /-- Two calls that took the same version have both read what was served at either time. -/
  shared
    : ∀ call other past earlier version, call ≠ other
        → Took requests id start turns past call version
        → Took requests id start turns earlier other version
        → (∀ program, (start.after turns).calls[call]? = some program
            → Agrees id ((start.after past).state.served id) version program)
          ∧ ((start.after turns).MidRead call
            → (start.after turns).state.served id = (start.after past).state.served id)
          ∧ (start.after earlier).state.served id = (start.after past).state.served id

/-- A call that takes its version reads what is served then. -/
theorem takes_agrees {moved : Call Answer}
    (tracked : Tracked state requests id start turns call program)
    (found : (start.after turns).calls[call]? = some program)
    (takes : TakesVersion requests id (start.after turns) call version)
    (now : (start.after (turns ++ [.run call])).calls[call]? = some moved)
    : Agrees id ((start.after turns).state.served id) version moved
      ∧ (start.after (turns ++ [.run call])).state = (start.after turns).state := by
  have pending : program.pending? = some (Statement.selectGateway id) :=
    (runs_iff found).mp takes.runs
  have reads : program = .step (Statement.selectGateway id) (configAfter state id) := by
    cases tracked with
    | fresh asking none =>
        cases asking with
        | config => exact config_call
        | heartbeat req =>
            obtain ⟨next, unfolded, _⟩ := @heartbeat_call id state req
            rw [unfolded] at pending
            cases pending
    | going took goes =>
        cases program with
        | done result => cases pending
        | step statement next =>
            cases Option.some.inj pending
            cases goes.1
    | failed error => cases pending
  subst reads
  have current := takes.current
  unfold Db.versionOf at current
  rw [after_concat, System.handle, found] at now
  rw [after_concat, System.handle, found]
  obtain rfl := Option.some.inj ((System.getElem?_set_moved found _).symm.trans now)
  refine ⟨?_, rfl⟩
  cases row : (start.after turns).state.gateways.find? (·.id == id) with
  | none =>
      rw [row] at current
      cases current
  | some gateway =>
      rw [row] at current
      cases current
      have reply : (Program.advance (.step (Statement.selectGateway id) (configAfter state id)
          : Call Answer) (start.after turns).state).1 = configAfter state id (.ok (some gateway)) := by
        rw [← row]
        rfl
      rw [reply]
      have network : ((start.after turns).state.served id).networkId = gateway.networkId := by
        simp only [Db.served, row, Option.bind_some]
      cases known : gateway.networkId with
      | none =>
          rw [configAfter_none known]
          intro config failed
          cases failed
      | some networkId =>
          rw [configAfter_some known]
          exact @configOf_agrees id _ state (mapGw gateway) _ (network.trans known)

/-- By cases on what the turn does to the call. -/
theorem Tracked.step {request : Request} {moved : Call Answer}
    (asked : requests[call]? = some request)
    (asks : request.AsksFor id)
    (tracked : ∀ program, (start.after turns).calls[call]? = some program
      → Tracked state requests id start turns call program)
    (now : (start.after (turns ++ [turn])).calls[call]? = some moved)
    : Tracked state requests id start (turns ++ [turn]) call moved := by
  have moves := System.handle_moves elapse (start.after turns) turn
  rw [← after_concat] at moves
  obtain ⟨program, found, move⟩ := moves.ofCall now
  rcases move with ⟨rfl, idle⟩ | ⟨statement, next, rfl, replied⟩
  · cases tracked _ found with
    | fresh asking none =>
        refine .fresh asking fun past version took => ?_
        rcases took_concat.mp took with earlier | ⟨_, run, takes⟩
        · exact none past version earlier
        · have pending := (runs_iff found).mp takes.runs
          rw [idle run] at pending
          cases pending
    | going took goes => exact .going (took_concat.mpr (Or.inl took)) goes
    | failed error => exact .failed error
  · have runs : (start.after turns).Runs call statement := runs_of_issued found
    generalize unmoved : (Program.step statement next : Call Answer) = program at found
    cases tracked _ found with
    | fresh asking none =>
        cases asking with
        | config =>
            rw [config_call] at unmoved
            cases unmoved
            rcases replied with ⟨rfl, reply, _, ran, rfl⟩ | ⟨fault, rfl⟩
            · cases ran
              cases row : (start.after turns).state.gateways.find? (·.id == id) with
              | none => exact .failed _
              | some gateway =>
                  cases known : gateway.networkId with
                  | none =>
                      rw [configAfter_none known]
                      exact .failed _
                  | some networkId =>
                      rw [configAfter_some known]
                      refine .going
                        (took_concat.mpr (Or.inr ⟨rfl, rfl, ⟨request, asked, asks⟩, runs, ?_⟩))
                        (@configOf_going id state (mapGw gateway) networkId)
                      simp only [Db.versionOf, row, Option.map_some, mapGw]
            · exact .failed _
        | heartbeat req =>
            obtain ⟨next', unfolded, after⟩ := @heartbeat_call id state req
            rw [unfolded] at unmoved
            cases unmoved
            have reply : ∃ reply, moved = next' reply := by
              rcases replied with ⟨_, reply, _, _, rfl⟩ | ⟨fault, rfl⟩
              · exact ⟨_, rfl⟩
              · exact ⟨_, rfl⟩
            obtain ⟨reply, rfl⟩ := reply
            rcases after reply with asking | ⟨error, ended⟩
            · refine .fresh asking fun past version took => ?_
              rcases took_concat.mp took with earlier | ⟨_, _, takes⟩
              · exact none past version earlier
              · have other := Option.some.inj (takes.runs.symm.trans runs)
                cases other
            · rw [ended]
              exact .failed error
    | going took goes =>
        cases unmoved
        refine .going (took_concat.mpr (Or.inl took)) ?_
        rcases replied with ⟨_, reply, _, _, rfl⟩ | ⟨fault, rfl⟩
        · exact goes.2 _ trivial
        · exact goes.2 _ trivial
    | failed error => cases unmoved

theorem Took.prefix (took : Took requests id start turns past call version) : past <+: turns :=
  (List.prefix_append past _).trans took.1

/-- What stays unchanged until later stays so until earlier. -/
theorem Unchanged.earlier (unchanged : Unchanged id start past (turns ++ [turn]))
    : Unchanged id start past turns :=
  fun between after before => unchanged between after (before.trans (List.prefix_append _ _))

/-- By cases on whether the two calls took their version in this turn or before it. -/
theorem Consistent.step (consistent : Consistent state requests id start turns)
    (calm : Calm requests id start turns turn)
    : Consistent state requests id start (turns ++ [turn]) := by
  have moves := System.handle_moves elapse (start.after turns) turn
  rw [← after_concat] at moves
  have takes : ∀ {call : Nat} {version : Int} {moved : Call Answer}, turn = .run call
      → TakesVersion requests id (start.after turns) call version
      → (start.after (turns ++ [turn])).calls[call]? = some moved
      → Agrees id ((start.after turns).state.served id) version moved
        ∧ (start.after (turns ++ [turn])).state = (start.after turns).state := by
    rintro call version moved rfl takes now
    obtain ⟨request, asked, asks⟩ := takes.asks
    obtain ⟨program, found, _⟩ := moves.ofCall now
    exact takes_agrees (consistent.tracked call request program asked asks found) found takes now
  have there : ∀ {call : Nat} {version : Int},
      TakesVersion requests id (start.after turns) call version
      → ∃ moved, (start.after (turns ++ [.run call])).calls[call]? = some moved := by
    intro call version takes
    obtain ⟨program, found, _⟩ := Option.bind_eq_some_iff.mp takes.runs
    rw [after_concat, System.handle, found]
    exact ⟨_, System.getElem?_set_moved found _⟩
  refine ⟨?tracked, ?alone, ?shared⟩
  case tracked =>
    intro call request moved asked asks now
    refine Tracked.step asked asks ?_ now
    exact fun program => consistent.tracked call request program asked asks
  case alone =>
    intro call past version took unchanged moved now
    rcases took_concat.mp took with earlier | ⟨rfl, run, takesNow⟩
    · obtain ⟨program, found, _⟩ := moves.ofCall now
      have agrees := consistent.alone call past version earlier unchanged.earlier program found
      have same := unchanged.earlier turns earlier.prefix List.prefix_rfl
      exact (agrees_moved found agrees (fun _ => same) moves now).1
    · exact (takes run takesNow now).1
  case shared =>
    intro call other past earlier version different took otherTook
    rcases took_concat.mp took with before | ⟨rfl, run, takesNow⟩
    · rcases took_concat.mp otherTook with otherBefore | ⟨rfl, run, takesNow⟩
      · obtain ⟨agrees, mid, same⟩ :=
          consistent.shared call other past earlier version different before otherBefore
        have moved : ∀ moved, (start.after (turns ++ [turn])).calls[call]? = some moved
            → Agrees id ((start.after past).state.served id) version moved
              ∧ ((start.after (turns ++ [turn])).MidRead call → (start.after turns).MidRead call) := by
          intro moved now
          obtain ⟨program, found, _⟩ := moves.ofCall now
          exact agrees_moved found (agrees program found) mid moves now
        refine ⟨fun program now => (moved program now).1, ?_, same⟩
        intro reading
        obtain ⟨statement, runs, reads⟩ := reading
        obtain ⟨program, now, _⟩ := Option.bind_eq_some_iff.mp runs
        have midBefore := (moved program now).2 ⟨statement, runs, reads⟩
        by_contra changed
        refine calm.undisturbed ?_ call other past earlier version different before otherBefore
          midBefore
        rwa [mid midBefore]
      · -- The other call takes the version now, so nothing has changed since this one took it.
        have unchanged := calm.unchanged other version run takesNow call past before
        have same := unchanged earlier before.prefix List.prefix_rfl
        subst run
        obtain ⟨_, otherNow⟩ := there takesNow
        have still := (takes rfl takesNow otherNow).2
        refine ⟨?_, ?_, same⟩
        · intro program now
          obtain ⟨old, found, _⟩ := moves.ofCall now
          have agrees := consistent.alone call past version before unchanged old found
          exact (agrees_moved found agrees (fun _ => same) moves now).1
        · intro _
          rw [still, same]
    · rcases took_concat.mp otherTook with otherBefore | ⟨_, otherRun, _⟩
      · have unchanged := calm.unchanged call version run takesNow other earlier otherBefore
        have same := unchanged past otherBefore.prefix List.prefix_rfl
        subst run
        obtain ⟨_, ownNow⟩ := there takesNow
        refine ⟨fun program now => (takes rfl takesNow now).1, ?_, same.symm⟩
        intro _
        rw [(takes rfl takesNow ownNow).2]
      · rw [run] at otherRun
        exact absurd (Event.run.inj otherRun) different

end Run

section Calm

variable {state : AppState} {requests : List Request} {id : Uuid} {start : ControlPlane}
  {before turns past : List Turn} {turn : Turn} {call : Nat} {version : Int}

/-- Foreign keys that hold at the start hold throughout, by induction on the turns. -/
theorem refers_after (refers : start.state.Refers) (turns : List Turn)
    : (start.after turns).state.Refers := by
  induction turns using List.reverseRecOn with
  | nil => exact refers
  | append_singleton turns turn ih => exact refers_of_moves ih moves_concat

theorem hasGateway_of_versionOf {db : Db} (stored : db.versionOf id = some version)
    : db.hasGateway id = true := by
  obtain ⟨row, found, _⟩ := Option.map_eq_some_iff.mp stored
  have same : row.id = id := by simpa using List.find?_some found
  exact List.any_eq_true.mpr ⟨row, List.mem_of_find?_eq_some found, by simp [same]⟩

/-- A gateway whose version has been taken is there from then on. -/
theorem Took.known (took : Took requests id start turns past call version)
    : (start.after turns).state.hasGateway id = true := by
  obtain ⟨new, current, _⟩ := versionOf_mono took.2.current took.prefix
  exact hasGateway_of_versionOf current

/-- Between two readings of one version nothing changes. A change would have been announced, and the
version would have been raised for it. By induction on the turns since the first reading.
-/
theorem unchanged_of_announced (refers : start.state.Refers)
    (obliged : start.AllObliged (Replies fun _ => True) obliges)
    (stored : (start.after past).state.versionOf id = some version)
    (again : (start.after before).state.versionOf id = some version)
    (announced
      : ∀ made change, past <+: made → made ++ [change] <+: before
          → (start.after made).Shifts id change
          → ∃ writer statement bump, Announced id start made change before writer statement bump)
    : Unchanged id start past before := by
  intro between since within
  obtain ⟨rest, rfl⟩ := since
  induction rest using List.reverseRecOn with
  | nil => rw [List.append_nil]
  | append_singleton rest change ih =>
      rw [← List.append_assoc] at within ⊢
      have shorter := (List.prefix_append (past ++ rest) [change]).trans within
      refine Eq.trans ?_ (ih shorter)
      by_contra changed
      obtain ⟨middle, reached, least⟩ := versionOf_mono stored (List.prefix_append past rest)
      have shifts := shifts_of_changed (refers_after refers _) (hasGateway_of_versionOf reached)
        moves_concat changed
      obtain ⟨writer, statement, bump, told⟩ :=
        announced (past ++ rest) change (List.prefix_append _ _) within shifts
      obtain ⟨new, current, grown⟩ := told.raised obliged shifts within reached
      cases again.symm.trans current
      exact absurd least (Int.not_le.mpr grown)

/-- In an orderly turn nothing does. -/
theorem Orderly.calm (refers : start.state.Refers)
    (obliged : start.AllObliged (Replies fun _ => True) obliges)
    (orderly : Orderly requests id start before turn)
    : Calm requests id start before turn where
  undisturbed := by
    intro changed call other past earlier version different took otherTook
    have shifts := shifts_of_changed (refers_after refers before) took.known moves_concat changed
    exact orderly.undisturbed shifts call other past earlier version different took otherTook
  unchanged := by
    intro call version run takes other past took
    exact unchanged_of_announced refers obliged took.2.current takes.current
      (orderly.announced call version run takes other past took)

end Calm

section Start

variable {state : AppState} {requests : List Request} {db : Db} {id : Uuid}

/-- No call has begun. -/
theorem start_consistent : Consistent state requests id (start state requests db) [] := by
  have none : ∀ past call version, ¬ Took requests id (start state requests db) [] past call
      version := by
    intro past call version took
    simpa using List.prefix_nil.mp took.1
  refine ⟨?_, fun call past version took => absurd took (none past call version),
    fun call other past earlier version _ took => absurd took (none past call version)⟩
  intro call request program asked asks found
  change (start state requests db).calls[call]? = some program at found
  rw [start_calls, asked] at found
  cases found
  refine .fresh ?_ (fun past version => none past call version)
  cases request with
  | gatewayConfig gatewayId =>
      cases asks
      exact .config
  | gatewayHeartbeat gatewayId req =>
      cases asks
      exact .heartbeat req
  | _ => cases asks

/-- By induction on the turns from the last one on. -/
theorem orderly_consistent (refers : db.Refers) {turns : List Turn}
    (orderly
      : ∀ before turn later, turns = before ++ turn :: later
          → Orderly requests id (start state requests db) before turn)
    : Consistent state requests id (start state requests db) turns := by
  induction turns using List.reverseRecOn with
  | nil => exact start_consistent
  | append_singleton turns turn ih =>
      refine Consistent.step (ih ?_) ((orderly turns turn [] rfl).calm refers start_obliged)
      intro before earlier later split
      exact orderly before earlier (later ++ [turn]) (by rw [split]; simp)

/-- A configuration that has been answered carries the version that the call took. -/
theorem answered_took {turns : List Turn} {call : Nat} {request : Request} {config : GatewayConfig}
    (consistent : Consistent state requests id (start state requests db) turns)
    (asked : requests[call]? = some request) (asks : request.AsksFor id)
    (answered : ((start state requests db).after turns).Answered call (.ok (.config config)))
    : ∃ past, Took requests id (start state requests db) turns past call config.version := by
  generalize ended : (Program.done (.ok (.config config)) : Call Answer) = program at answered
  cases consistent.tracked call request program asked asks
    (answered.trans (congrArg some ended)) with
  | fresh asking none =>
      cases asking with
      | config =>
          rw [config_call] at ended
          cases ended
      | heartbeat req =>
          obtain ⟨next, unfolded, _⟩ := @heartbeat_call id state req
          rw [unfolded] at ended
          cases ended
  | going took goes =>
      cases ended
      obtain rfl := goes config rfl
      exact ⟨_, took⟩
  | failed error => cases ended

/-- In every run whose turns keep versions apart, two configurations of one gateway with one version have
one content, whatever other calls are interleaved with them.
-/
theorem one_content_of_version (refers : db.Refers) {turns : List Turn}
    (orderly
      : ∀ before turn later, turns = before ++ turn :: later
          → Orderly requests id (start state requests db) before turn)
    {first second : Nat} {firstRequest secondRequest : Request} {left right : GatewayConfig}
    (firstAsked : requests[first]? = some firstRequest) (firstAsks : firstRequest.AsksFor id)
    (secondAsked : requests[second]? = some secondRequest) (secondAsks : secondRequest.AsksFor id)
    (firstAnswered : ((start state requests db).after turns).Answered first (.ok (.config left)))
    (secondAnswered : ((start state requests db).after turns).Answered second (.ok (.config right)))
    (same : left.version = right.version)
    : left.peers = right.peers ∧ left.routes = right.routes ∧ left.services = right.services
      ∧ left.privateNetworkCidr = right.privateNetworkCidr := by
  by_cases one : first = second
  · subst one
    cases firstAnswered.symm.trans secondAnswered
    exact ⟨rfl, rfl, rfl, rfl⟩
  · have consistent := orderly_consistent refers orderly
    obtain ⟨past, took⟩ := answered_took consistent firstAsked firstAsks firstAnswered
    obtain ⟨earlier, otherTook⟩ := answered_took consistent secondAsked secondAsks secondAnswered
    rw [same] at took
    obtain ⟨leftAgrees, _, content⟩ :=
      consistent.shared first second past earlier right.version one took otherTook
    obtain ⟨rightAgrees, _⟩ :=
      consistent.shared second first earlier past right.version (Ne.symm one) otherTook took
    have leftShows : Shows _ _ left := leftAgrees _ firstAnswered left rfl
    have rightShows : Shows _ _ right := rightAgrees _ secondAnswered right rfl
    rw [content] at rightShows
    have cidr := leftShows.cidr.symm.trans rightShows.cidr
    exact ⟨leftShows.peers.trans rightShows.peers.symm,
      leftShows.routes.trans rightShows.routes.symm,
      leftShows.services.trans rightShows.services.symm, Option.some.inj cidr⟩

end Start

/-- A session is created, and the gateway asks for its configuration and sends a heartbeat. -/
def sessionAndHeartbeat : List Request :=
  [.createSession ⟨6, 7⟩ 1 "ada@example.com" ⟨3, 2, []⟩, .gatewayConfig 4,
    .gatewayHeartbeat 4 ⟨1, 1, true⟩]

/-- With the session in place both calls take their version before either of them reads its peers, and
a minute passes.
-/
def readingTurns : List Turn :=
  List.replicate 17 (.run 0) ++ List.replicate 2 (.run 1) ++ List.replicate 10 (.run 2)
    ++ [.env 60000000] ++ List.replicate 7 (.run 1)

/-- What the first configuration with the session shows. -/
def servedSession (expiresAt : Timestamp) : GatewayConfig where
  version := 1
  expiresAt := expiresAt
  listenPort := 51820
  privateNetworkCidr := "10.8.1.0/24"
  peers := [⟨7, "qqqqqqqqqqqqqqqqqqqqqqqqqqqqqqqqqqqqqqqqqqo=", ["10.8.1.2/32"], 6, seconds 3600⟩]
  routes := []
  services := []

theorem smallInstallation_refers : smallInstallation.Refers where
  gatewayNetworks := by
    intro gateway there id named
    cases List.mem_singleton.mp there
    cases named
    exact ⟨_, rfl⟩
  peerSessions := by
    intro peer there
    cases there

/-- Only the creation has changed anything, and it is over before a version is taken. -/
theorem readings_late {turns : List Turn} (part : turns <+: readingTurns) {past : List Turn}
    {call : Nat} {version : Int}
    (took : Took sessionAndHeartbeat 4 (start smallState sessionAndHeartbeat smallInstallation) turns past
      call version)
    : 17 ≤ past.length := by
  by_contra early
  obtain ⟨request, asked, asks⟩ := took.2.asks
  have here : readingTurns[past.length]? = some (.run call) := by
    obtain ⟨rest, whole⟩ := took.1.trans part
    rw [← whole, List.append_assoc, List.getElem?_append_right le_rfl, Nat.sub_self]
    rfl
  have writes : ∀ count ∈ List.range 17, readingTurns[count]? = some (.run 0) := by decide
  have creation := writes past.length (List.mem_range.mpr (Nat.not_le.mp early))
  cases here.symm.trans creation
  cases asked
  exact asks

theorem readings_unshifted {turns : List Turn} {turn : Turn} (part : turns ++ [turn] <+: readingTurns)
    (late : 17 ≤ turns.length)
    : ¬ ((start smallState sessionAndHeartbeat smallInstallation).after turns).Shifts 4 turn := by
  have all : ∀ count ∈ List.range 37, 17 ≤ count → ∀ turn ∈ readingTurns[count]?,
      ¬ ((start smallState sessionAndHeartbeat smallInstallation).after
        (readingTurns.take count)).Shifts 4 turn := by decide +kernel
  obtain ⟨rest, whole⟩ := part
  have here : readingTurns[turns.length]? = some turn := by
    rw [← whole, List.append_assoc, List.getElem?_append_right le_rfl, Nat.sub_self]
    rfl
  have bound : turns.length < 37 := (List.getElem?_eq_some_iff.mp here).1
  have before : readingTurns.take turns.length = turns := by
    rw [← whole, List.append_assoc, List.take_left]
  have unshifted := all turns.length (List.mem_range.mpr bound) late turn here
  rwa [before] at unshifted

/-- Where nothing changes, both calls show the one session. -/
theorem one_content_of_two_readings
    : let plane := (start smallState sessionAndHeartbeat smallInstallation).after readingTurns
      plane.Answered 1 (.ok (.config (servedSession (minutes 6))))
      ∧ plane.Answered 2 (.ok (.config (servedSession (minutes 5))))
      ∧ (servedSession (minutes 6)).peers = (servedSession (minutes 5)).peers
      ∧ (servedSession (minutes 6)).routes = (servedSession (minutes 5)).routes
      ∧ (servedSession (minutes 6)).services = (servedSession (minutes 5)).services
      ∧ (servedSession (minutes 6)).privateNetworkCidr
        = (servedSession (minutes 5)).privateNetworkCidr := by
  have orderly : ∀ before turn later, readingTurns = before ++ turn :: later
      → Orderly sessionAndHeartbeat 4 (start smallState sessionAndHeartbeat smallInstallation) before
          turn := by
    intro before turn later split
    have part : before ++ [turn] <+: readingTurns := by
      rw [split]
      exact ⟨later, by simp⟩
    have earlier : before <+: readingTurns := (List.prefix_append _ _).trans part
    refine ⟨?_, ?_⟩
    · intro shifts call other past _ version _ took
      exact absurd shifts
        (readings_unshifted part ((readings_late earlier took).trans took.prefix.length_le))
    · intro call version _ _ other past took made change since within shifts
      exact absurd shifts
        (readings_unshifted (within.trans earlier) ((readings_late earlier took).trans since.length_le))
  refine ⟨rfl, rfl, ?_⟩
  exact @one_content_of_version smallState sessionAndHeartbeat smallInstallation 4
    smallInstallation_refers readingTurns orderly 1 2
    (.gatewayConfig 4) (.gatewayHeartbeat 4 ⟨1, 1, true⟩) _ _ rfl rfl rfl rfl rfl rfl rfl

/-- A session is created, and the configuration is asked for twice. -/
def sessionAndReadings : List Request :=
  [.createSession ⟨6, 7⟩ 1 "ada@example.com" ⟨3, 2, []⟩, .gatewayConfig 4, .gatewayConfig 4]

/-- The session expires between the two. -/
def silentExpiry : List Turn :=
  List.replicate 17 (.run 0) ++ List.replicate 9 (.run 1) ++ [.env 3601000000]
    ++ List.replicate 9 (.run 2)

/-- Version 1 is answered with the peer of the session and without it. -/
theorem two_contents_of_version
    : let plane := (start smallState sessionAndReadings smallInstallation).after silentExpiry
      plane.Answered 1 (.ok (.config (servedSession (minutes 5))))
      ∧ plane.Answered 2
          (.ok (.config { servedSession (seconds 3601 + minutes 5) with peers := [] }))
      ∧ (servedSession (minutes 5)).peers ≠ [] :=
  ⟨rfl, rfl, by decide⟩

end ControlPlane

end WslVpn
