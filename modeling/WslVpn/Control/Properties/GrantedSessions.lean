import WslVpn.Interleaving.Log
import WslVpn.Control.Properties.History

/-! No session without a decision. Every session goes back to a request, by the owner of a device
that was not revoked, which the policies in force at some moment before allowed.
-/

namespace WslVpn

open Interleaving Interleaving.System

-----------------------------------------------------------------------------------------
-- What a session rests on
-----------------------------------------------------------------------------------------

/-- At some moment of the run. -/
def ControlPlane.Seen (plane : ControlPlane) (turns : List Turn) (holds : Db → Prop) : Prop :=
  ∃ before, before <+: turns ∧ holds (plane.after before).state

/-- What is decided about a request, in the network of the name and with these groups and policies.
-/
def CreateSessionRequest.decision (req : CreateSessionRequest) (userEmail : String)
    (groups : List String) (resource : String) (policies : List AccessPolicyDocument)
    : PolicyDecision :=
  evaluate policies {
    userEmail
    groups
    resource
    posture := req.posture
    deviceManaged := deviceReportsManaged req.posture
  }

/-- The session was granted to the user on this request, by what the database held until then. -/
structure ControlPlane.Granted (plane : ControlPlane) (turns : List Turn)
    (draw : SessionService.Draw) (user : Uuid) (userEmail : String) (req : CreateSessionRequest)
    (session : SessionRow) : Prop where
  id : session.id = draw.sessionId
  userId : session.userId = user
  deviceId : session.deviceId = req.deviceId
  networkId : session.networkId = req.networkId
  device
    : plane.Seen turns (fun db => ∃ device ∈ db.devices,
        device.id = req.deviceId ∧ device.userId = user ∧ device.revoked = false)
  gateway
    : plane.Seen turns (fun db => ∃ gateway ∈ db.gateways,
        gateway.id = session.gatewayId ∧ gateway.networkId = some req.networkId)
  decided
    : ∃ (network : NetworkRow) (groups : List String) (policies : List AccessPolicyDocument),
        network.id = req.networkId
        ∧ plane.Seen turns (fun db => network ∈ db.networks)
        ∧ plane.Seen turns (fun db => groups = db.userGroupNames user)
        ∧ plane.Seen turns (fun db => policies = db.activePolicies)
        ∧ (req.decision userEmail groups network.name policies).allow = true
        ∧ plane.Seen turns (fun db => session.expiresAt = db.now
            + seconds ((req.decision userEmail groups network.name
              policies).sessionDurationSecs.getD (8 * 3600)))

section Seen

variable {plane : ControlPlane} {turns more : List Turn} {holds : Db → Prop}
  {draw : SessionService.Draw} {userId : Uuid} {userEmail : String} {req : CreateSessionRequest}
  {old new : SessionRow}

theorem ControlPlane.Seen.imp {weaker : Db → Prop} (seen : plane.Seen turns holds)
    (implies : ∀ db, holds db → weaker db)
    : plane.Seen turns weaker := by
  obtain ⟨before, early, held⟩ := seen
  exact ⟨before, early, implies _ held⟩

/-- What a session rests on does not change. -/
theorem ControlPlane.Granted.follows
    (granted : plane.Granted turns draw userId userEmail req old) (follows : old.Follows new)
    : plane.Granted turns draw userId userEmail req new where
  id := follows.id.trans granted.id
  userId := follows.userId.trans granted.userId
  deviceId := follows.deviceId.trans granted.deviceId
  networkId := follows.networkId.trans granted.networkId
  device := granted.device
  gateway := by
    rw [follows.gatewayId]
    exact granted.gateway
  decided := by
    rw [follows.expiresAt]
    exact granted.decided

end Seen

-----------------------------------------------------------------------------------------
-- What a creation has been told when it inserts the session
-----------------------------------------------------------------------------------------

/-- The statement inserts no session. -/
def Statement.grantless : Statement → Prop
  | .insertSession _ => False
  | _ => True

/-- A session that is inserted is the one of the request, and rests on what the call was told. -/
def Grounded (log : List (Entry sql)) (call : Nat) (draw : SessionService.Draw) (userId : Uuid)
    (userEmail : String) (req : CreateSessionRequest) : Statement → Prop
  | .insertSession row =>
      (row.id = draw.sessionId ∧ row.userId = userId ∧ row.deviceId = req.deviceId
        ∧ row.networkId = req.networkId)
      ∧ (∃ id key, Given log call (.selectDeviceOfUser req.deviceId userId)
          (.ok (some (id, key, false))))
      ∧ (∃ key endpoint version, Given log call (.selectGatewayForNetwork req.networkId)
          (.ok (some (row.gatewayId, key, endpoint, version))))
      ∧ ∃ network groups policies now,
          Given log call (.selectNetwork req.networkId) (.ok (some network))
          ∧ Given log call (.selectUserGroupNames userId) (.ok groups)
          ∧ Given log call .selectActivePolicies (.ok policies)
          ∧ (req.decision userEmail groups network.name policies).allow = true
          ∧ Given log call .utcNow (.ok now)
          ∧ row.expiresAt = now
              + seconds ((req.decision userEmail groups network.name
                policies).sessionDurationSecs.getD (8 * 3600))
  | _ => True

section Create

variable {log : List (Entry sql)} {call : Nat} {draw : SessionService.Draw} {userId : Uuid}
  {userEmail : String} {req : CreateSessionRequest}
  {follows : (statement : Statement) → Except DbError statement.Reply → Prop}

theorem grounded_of_grantless {statement : Statement} (none : statement.grantless)
    : Grounded log call draw userId userEmail req statement := by
  cases statement with
  | insertSession row => exact absurd none not_false
  | _ => trivial

theorem allocate_grantless {networkId sessionId : Uuid}
    : (IpamService.allocate networkId sessionId).Along follows Statement.grantless
        (fun _ => True) := by
  unfold IpamService.allocate
  refine Program.Along.request trivial ?_ (fun _ _ => trivial)
  rintro (_ | cidr) _
  · trivial
  refine Program.Along.request trivial ?_ (fun _ _ => trivial)
  intro used _
  split
  · trivial
  · split
    · exact Program.Along.request trivial (fun _ _ => trivial) (fun _ _ => trivial)
    · trivial

theorem provision_grantless {network : Network} {gatewayId : Uuid}
    {gwPub gwEndpoint wgPub : String} {decision : PolicyDecision} {expiresAt : Timestamp}
    : (SessionService.provision draw userId userEmail req network gatewayId gwPub gwEndpoint wgPub
        decision expiresAt).Along follows Statement.grantless (fun _ => True) := by
  unfold SessionService.provision NetworkService.routesFor AuditService.record
  refine Program.Along.seq allocate_grantless ?_
  intro assigned
  split
  · refine Program.Along.request trivial ?_ (fun _ _ => trivial)
    intro _ _
    refine Program.Along.seq (Program.Along.request trivial (fun _ _ => trivial)
      (fun _ _ => trivial)) ?_
    intro routes
    refine Program.Along.request trivial ?_ (fun _ _ => trivial)
    intro _ _
    refine Program.Along.request trivial ?_ (fun _ _ => trivial)
    intro _ _
    refine Program.Along.request trivial ?_ (fun _ _ => trivial)
    intro _ _
    exact Program.Along.request trivial (fun _ _ => trivial) (fun _ _ => trivial)
  · trivial

/-- The version and the commit change neither the verdict nor the length of the session. -/
theorem attachPolicyMeta_verdict (decision : PolicyDecision)
    : (attachPolicyMeta decision).Along follows Statement.grantless
        (fun result => ∀ attached, result = .ok attached →
          attached.allow = decision.allow
          ∧ attached.sessionDurationSecs = decision.sessionDurationSecs) := by
  unfold attachPolicyMeta
  split
  · rintro _ ⟨⟩
    exact ⟨rfl, rfl⟩
  · unfold policyMeta
    refine Program.Along.request trivial ?_ ?_
    · rintro (_ | ⟨id, version, commit⟩) _
      · rintro _ ⟨⟩
        exact ⟨rfl, rfl⟩
      · rintro _ ⟨⟩
        exact ⟨rfl, rfl⟩
    · rintro _ _ _ ⟨⟩

/-- A session is inserted behind an allowed decision only. -/
theorem create_grounded
    : (SessionService.create draw userId userEmail req).Along (Given log call)
        (Grounded log call draw userId userEmail req) (fun _ => True) := by
  unfold SessionService.create NetworkService.get GroupService.userGroupNames loadActivePolicies
  refine Program.Along.request trivial ?_ (fun _ _ => trivial)
  rintro (_ | ⟨id, key, revoked⟩) device
  · trivial
  dsimp only
  split
  · trivial
  rename_i usable
  obtain rfl : revoked = false := by simpa using usable
  rw [Program.bind_assoc]
  refine Program.Along.request trivial ?_ (fun _ _ => trivial)
  rintro (_ | network) inNetwork
  · trivial
  refine Program.Along.request trivial ?_ (fun _ _ => trivial)
  rintro (_ | ⟨gatewayId, gwPub, gwEndpoint, version⟩) gateway
  · trivial
  refine Program.Along.request trivial ?_ (fun _ _ => trivial)
  intro groups inGroups
  refine Program.Along.request trivial ?_ (fun _ _ => trivial)
  intro policies inForce
  refine Program.Along.seq_value ((attachPolicyMeta_verdict _).mono
    (fun _ => grounded_of_grantless)) ?_
  intro decision attached
  obtain ⟨verdict, lasts⟩ := attached
  split
  · rename_i allowed
    unfold SessionService.grant
    refine Program.Along.request trivial ?_ (fun _ _ => trivial)
    intro now read
    refine Program.Along.request ?_ ?_ (fun _ _ => trivial)
    · refine ⟨⟨rfl, rfl, rfl, rfl⟩, ⟨id, key, device⟩, ⟨gwPub, gwEndpoint, version, gateway⟩,
        network, groups, policies, now, inNetwork, inGroups, inForce, verdict.symm.trans allowed,
        read, ?_⟩
      rw [lasts]
      rfl
    · intro _ _
      exact provision_grantless.mono (fun _ => grounded_of_grantless)
  · unfold SessionService.deny AuditService.record
    exact Program.Along.request trivial (fun _ _ => trivial) (fun _ _ => trivial)

end Create

-----------------------------------------------------------------------------------------
-- Runs
-----------------------------------------------------------------------------------------

/-- A session of the new table was in the old one, or the statement has inserted it. By cases on the
statement.
-/
theorem session_origin {statement : Statement} {db after : Db} {reply : statement.Reply}
    (ran : statement.exec db = .ok (reply, after)) {session : SessionRow}
    (there : session ∈ after.sessions)
    : (∃ old ∈ db.sessions, old.Follows session)
      ∨ ∃ row, statement = .insertSession row ∧ session = { row with createdAt := db.now } := by
  rw [(Statement.exec_effect ran).sessions] at there
  have still {kept : SessionRow} (same : kept ∈ db.sessions)
      : (∃ old ∈ db.sessions, old.Follows kept)
        ∨ ∃ row, statement = .insertSession row ∧ kept = { row with createdAt := db.now } :=
    Or.inl ⟨kept, same, .refl kept⟩
  cases statement with
  | insertSession row =>
      rcases List.mem_append.mp there with old | new
      · exact still old
      · exact Or.inr ⟨row, rfl, List.mem_singleton.mp new⟩
  | updateSessionAssignedIp id assignedIp =>
      obtain ⟨old, member, rfl⟩ := mem_updateWhere.mp there
      split
      · exact Or.inl ⟨old, member, .addressed old assignedIp⟩
      · exact still member
  | updateSessionRevoked id =>
      obtain ⟨old, member, rfl⟩ := mem_updateWhere.mp there
      split
      · rename_i active
        exact Or.inl ⟨old, member, .ended (active_of_isActiveSession active) .revoked⟩
      · exact still member
  | expireSessions gatewayId =>
      obtain ⟨old, member, rfl⟩ := mem_updateWhere.mp there
      split
      · rename_i lapsed
        exact Or.inl ⟨old, member, .ended (active_of_lapsed lapsed) .expired⟩
      · exact still member
  | deleteUser id =>
      simp only [Statement.sessionsAfter] at there
      split at there
      · exact still (mem_deleteWhere.mp there).1
      · exact still there
  | _ => exact still there

section Runs

variable {state : AppState} {requests : List Request} {db : Db} {turns : List Turn} {call : Nat}

/-- What a call was told, the database answered at some moment before. -/
theorem seen_of_given {plane : ControlPlane} {statement : Statement} {reply : statement.Reply}
    (given : Given (plane.log elapse turns) call statement (.ok reply))
    : plane.Seen turns (fun db => ∃ after, statement.exec db = .ok (reply, after)) := by
  obtain ⟨past, rest, rfl, _, answered⟩ := executed_of_log given
  exact ⟨past, List.prefix_append past rest, answered⟩

/-- The call that inserts a session is a creation, and the session rests on what it was told. -/
theorem grounded_of_pending {row : SessionRow}
    {next : Except DbError Unit → Call Answer}
    (issued
      : ((ControlPlane.start state requests db).after turns).calls[call]?
          = some (.step (.insertSession row) next))
    : ∃ draw userId userEmail req, .createSession draw userId userEmail req ∈ requests
        ∧ Grounded ((ControlPlane.start state requests db).log elapse turns) call draw userId
            userEmail req (.insertSession row) := by
  have sends : ((ControlPlane.start state requests db).after turns).AllAlong (Sends requests)
      (fun _ _ => True) := ControlPlane.start_sends.run turns
  obtain ⟨request, made, issues⟩ := (sends call _ issued).1
  obtain ⟨draw, userId, userEmail, req, rfl, _⟩ := Request.issues_creation rfl issues
  refine ⟨draw, userId, userEmail, req, List.mem_of_getElem? made, ?_⟩
  have begun : (ControlPlane.start state requests db).calls[call]?
      = some ((Request.createSession draw userId userEmail req).call state) := by
    rw [ControlPlane.start_calls, made]
    rfl
  have grounded : ((Request.createSession draw userId userEmail req).call state).Along
      (Given ((ControlPlane.start state requests db).log elapse turns) call)
      (Grounded ((ControlPlane.start state requests db).log elapse turns) call draw userId userEmail
        req) (fun _ => True) :=
    create_grounded.seq (fun _ => trivial)
  obtain ⟨_, now, reached, along⟩ := along_log (fun _ member => member) begun grounded
  cases reached.symm.trans issued
  exact along.1

theorem selectNetwork_found {db after : Db} {id : Uuid} {network : NetworkRow}
    (ran : (Statement.selectNetwork id).exec db = .ok (some network, after))
    : network ∈ db.networks ∧ network.id = id := by
  simp only [Statement.exec, Except.ok.injEq, Prod.mk.injEq] at ran
  exact ⟨List.mem_of_find?_eq_some ran.1, by simpa using List.find?_some ran.1⟩

theorem selectDeviceOfUser_found {db after : Db} {id userId deviceId : Uuid} {key : String}
    {revoked : Bool}
    (ran
      : (Statement.selectDeviceOfUser id userId).exec db
          = .ok (some (deviceId, key, revoked), after))
    : ∃ device ∈ db.devices,
        device.id = id ∧ device.userId = userId ∧ device.revoked = revoked := by
  simp only [Statement.exec, Except.ok.injEq, Prod.mk.injEq, Option.map_eq_some_iff] at ran
  obtain ⟨device, found, _, _, same⟩ := ran.1
  have owned := List.find?_some found
  simp only [Bool.and_eq_true, beq_iff_eq] at owned
  exact ⟨device, List.mem_of_find?_eq_some found, owned.1, owned.2, same⟩

theorem selectGatewayForNetwork_found {db after : Db} {networkId gatewayId : Uuid}
    {key endpoint : String} {version : Int}
    (ran
      : (Statement.selectGatewayForNetwork networkId).exec db
          = .ok (some (gatewayId, key, endpoint, version), after))
    : ∃ gateway ∈ db.gateways, gateway.id = gatewayId ∧ gateway.networkId = some networkId := by
  simp only [Statement.exec, Except.ok.injEq, Prod.mk.injEq, Option.map_eq_some_iff] at ran
  obtain ⟨gateway, best, same, _⟩ := ran.1
  obtain ⟨there, attached⟩ := List.mem_filter.mp (firstBest_mem best)
  exact ⟨gateway, there, same, by simpa using attached⟩

/-- A session that rests on what a call was told was granted. -/
theorem granted_of_grounded {plane : ControlPlane} {draw : SessionService.Draw} {userId : Uuid}
    {userEmail : String} {req : CreateSessionRequest} {row : SessionRow}
    (grounded
      : Grounded (plane.log elapse turns) call draw userId userEmail req (.insertSession row))
    : plane.Granted turns draw userId userEmail req row := by
  obtain ⟨⟨id, ownUser, ownDevice, ownNetwork⟩, ⟨deviceId, key, device⟩,
    ⟨gwPub, gwEndpoint, version, gateway⟩, network, groups, policies, now, inNetwork, inGroups,
    inForce, allowed, read, lasts⟩ := grounded
  obtain ⟨seen, early, after, found⟩ := seen_of_given inNetwork
  obtain ⟨isNetwork, named⟩ := selectNetwork_found found
  refine ⟨id, ownUser, ownDevice, ownNetwork, ?_, ?_, network, groups, policies, named,
    ⟨seen, early, isNetwork⟩, ?_, ?_, allowed, ?_⟩
  · refine (seen_of_given device).imp ?_
    rintro db ⟨after, ran⟩
    exact selectDeviceOfUser_found ran
  · refine (seen_of_given gateway).imp ?_
    rintro db ⟨after, ran⟩
    exact selectGatewayForNetwork_found ran
  · refine (seen_of_given inGroups).imp ?_
    rintro db ⟨after, ran⟩
    cases ran
    rfl
  · refine (seen_of_given inForce).imp ?_
    rintro db ⟨after, ran⟩
    cases ran
    rfl
  · refine (seen_of_given read).imp ?_
    rintro db ⟨after, ran⟩
    cases ran
    exact lasts

/-- The session was there from the beginning, or it was granted by the time that it was made. -/
def ControlPlane.Accounted (plane : ControlPlane) (requests : List Request) (turns : List Turn)
    (session : SessionRow) : Prop :=
  (∃ old ∈ plane.state.sessions, old.Follows session)
  ∨ ∃ before draw userId userEmail req, before <+: turns
      ∧ .createSession draw userId userEmail req ∈ requests
      ∧ session.createdAt = (plane.after before).state.now
      ∧ plane.Granted before draw userId userEmail req session

theorem ControlPlane.Accounted.follows {plane : ControlPlane} {more : List Turn}
    {old new : SessionRow} (accounted : plane.Accounted requests turns old)
    (follows : old.Follows new) (later : turns <+: more)
    : plane.Accounted requests more new := by
  rcases accounted with ⟨first, there, followed⟩ | granted
  · exact Or.inl ⟨first, there, followed.trans follows⟩
  · obtain ⟨before, draw, userId, userEmail, req, early, requested, created, granted⟩ := granted
    exact Or.inr ⟨before, draw, userId, userEmail, req, early.trans later, requested,
      follows.createdAt.trans created, granted.follows follows⟩

/-- Whatever calls are interleaved, lost or delayed, and whoever else writes policies, groups, devices
and gateways meanwhile: no session exists that was not granted.
-/
theorem session_granted (state : AppState) (requests : List Request) (db : Db) (turns : List Turn)
    : ∀ session ∈ ((ControlPlane.start state requests db).after turns).state.sessions,
        (ControlPlane.start state requests db).Accounted requests turns session := by
  induction turns using List.reverseRecOn with
  | nil => exact fun session there => Or.inl ⟨session, there, .refl session⟩
  | append_singleton turns turn ih =>
      intro session there
      have later : turns <+: turns ++ [turn] := List.prefix_append turns [turn]
      have still (same : session ∈ ((ControlPlane.start state requests db).after turns).state.sessions)
          : (ControlPlane.start state requests db).Accounted requests (turns ++ [turn]) session :=
        (ih session same).follows (.refl session) later
      rw [ControlPlane.after, run_append, run_cons, run_nil] at there
      have moves := handle_moves elapse
        (System.run elapse (ControlPlane.start state requests db) turns) turn
      generalize System.handle elapse
        (System.run elapse (ControlPlane.start state requests db) turns) turn = after at moves there
      cases moves with
      | @replied call statement next reply final issued answer =>
          rcases session_origin answer there with ⟨old, member, follows⟩ | ⟨row, rfl, rfl⟩
          · exact (ih old member).follows follows later
          · obtain ⟨draw, userId, userEmail, req, requested, grounded⟩ := grounded_of_pending issued
            have granted := granted_of_grounded grounded
            exact Or.inr ⟨turns, draw, userId, userEmail, req, later, requested, rfl,
              granted.id, granted.userId, granted.deviceId, granted.networkId, granted.device,
              granted.gateway, granted.decided⟩
      | refused => exact still there
      | lost => exact still there
      | env passed => exact still there
      | idle => exact still there

end Runs

/-- The laptop asks for the lab. -/
def labRequest : Request := .createSession ⟨6, 7⟩ 1 "ada@example.com" ⟨3, 2, []⟩

/-- Up to where the session is inserted. -/
def labTurns : List Turn := List.replicate 8 (.run 0)

theorem session_granted_lab
    : ∃ session
        ∈ ((ControlPlane.start smallState [labRequest] smallInstallation).after labTurns).state.sessions,
        (ControlPlane.start smallState [labRequest] smallInstallation).Accounted [labRequest] labTurns
          session := by
  have inserted
      : ((ControlPlane.start smallState [labRequest] smallInstallation).after
          labTurns).state.sessions ≠ [] := by
    decide +kernel
  obtain ⟨session, there⟩ := List.exists_mem_of_ne_nil _ inserted
  exact ⟨session, there, session_granted _ _ _ _ session there⟩

end WslVpn
