import WslVpn.Control.Traffic

/-! Statements that oblige a call to a later one. None of the writes of a revocation is ever
refused, so only a lost statement keeps a call from what it is obliged to.
-/

namespace WslVpn

open AddressSpace Interleaving

/-- What a call that has got this reply will send later on. -/
def obliges : (statement : Statement) → Except DbError statement.Reply → Statement → Prop
  | .updateSessionRevoked id, .ok count, later =>
      (count : Nat) ≠ 0
      ∧ (later = .deletePeersOfSession id ∨ later = .deleteAllocationsOfSession id
        ∨ later = .bumpGatewaysOfSession id)
  | .deletePeersOfSession id, .ok _, later =>
      later = .deleteAllocationsOfSession id ∨ later = .bumpGatewaysOfSession id
  | .deleteAllocationsOfSession id, .ok _, later => later = .bumpGatewaysOfSession id
  | .selectActiveSessionsOfUser _, .ok ids, later => ∃ id ∈ ids, later = .updateSessionRevoked id
  | .selectActiveSessionsOfDevice _, .ok ids, later => ∃ id ∈ ids, later = .updateSessionRevoked id
  | .insertPeer row, .ok _, later => later = .bumpGateway row.gatewayId
  | _, _, _ => False

/-- The replies of the database in a state of the given kind. -/
abbrev Replies (possible : Db → Prop)
    : (statement : Statement) → Except DbError statement.Reply → Prop :=
  System.Gives sql possible

/-- A statement that always obliges to nothing. -/
def Statement.free : Statement → Bool
  | .updateSessionRevoked _ | .deletePeersOfSession _ | .deleteAllocationsOfSession _
  | .selectActiveSessionsOfUser _ | .selectActiveSessionsOfDevice _ | .insertPeer _ => false
  | _ => true

theorem not_obliges_of_free {statement : Statement} {reply : Except DbError statement.Reply}
    {later : Statement} (free : statement.free = true)
    : ¬ obliges statement reply later := by
  cases statement <;> first | exact False.elim | cases free

theorem not_obliges_error {statement : Statement} {fault : DbError} {later : Statement}
    : ¬ obliges statement (.error fault) later := by
  cases statement <;> exact False.elim

section Calls

variable {possible : Db → Prop} {Value : Type}

/-- A statement that obliges to nothing. -/
theorem query_free_obliged {statement : Statement} {rest : statement.Reply → Call Value}
    (free : statement.free = true)
    (goesOn : ∀ reply, (rest reply).Obliged (Replies possible) obliges)
    : (query statement >>= rest).Obliged (Replies possible) obliges :=
  Program.Obliged.request (fun _ _ => not_obliges_error)
    (fun _ _ owes => absurd owes (not_obliges_of_free free)) goesOn

/-- A call that sends nothing that obliges. -/
theorem Along.obliged_of_free {program : Call Value}
    (along
      : program.Along (fun _ _ => True) (fun statement : Statement => statement.free = true)
          (fun _ => True))
    : program.Obliged (Replies possible) obliges :=
  Program.Along.obliged along (fun _ _ _ free => not_obliges_of_free free)

/-- Answered in every state. -/
def Statement.infallible : Statement → Bool
  | .updateSessionRevoked _ | .deletePeersOfSession _ | .deleteAllocationsOfSession _
  | .bumpGatewaysOfSession _ | .updateDeviceRevoked _ | .updateUser _ _ => true
  | _ => false

theorem not_refused {statement : Statement} {fault : DbError}
    (infallible : statement.infallible = true)
    : ¬ Replies possible statement (.error fault) := by
  rintro (_ | ⟨_, ran⟩)
  change statement.exec _ = _ at ran
  cases statement <;> simp [Statement.infallible, Statement.exec] at infallible ran

/-- After the deletion of its peer, a revocation releases the address and bumps the gateways. -/
theorem dismantle_obliged (sessionId : Uuid)
    : (SessionService.dismantle sessionId).Obliged (Replies possible) obliges := by
  unfold SessionService.dismantle
  rw [IpamService.releaseSession_bind]
  refine Program.Obliged.request (fun _ _ => not_obliges_error) ?_ ?_
  · rintro _ later (rfl | rfl)
    · exact Program.Comes.here rfl
    · exact Program.Comes.request (fun _ => not_refused rfl) (fun _ _ => Program.Comes.here rfl)
  · intro _
    refine Program.Obliged.request (fun _ _ => not_obliges_error) ?_ ?_
    · rintro _ later rfl
      exact Program.Comes.here rfl
    · exact fun _ => query_free_obliged rfl (fun _ => trivial)

/-- The writes of a revocation are answered in every state. -/
theorem revoke_returns (sessionId : Uuid)
    : (SessionService.revoke sessionId).Along (Replies possible) (fun _ => True)
        (fun result => ∃ value, result = .ok value) := by
  unfold SessionService.revoke SessionService.dismantle
  refine Program.Along.request trivial ?_ (fun _ given => absurd given (not_refused rfl))
  intro affected _
  split
  · exact ⟨_, rfl⟩
  · refine Program.Along.request trivial ?_ (fun _ given => absurd given (not_refused rfl))
    intro _ _
    rw [IpamService.releaseSession_bind]
    refine Program.Along.request trivial ?_ (fun _ given => absurd given (not_refused rfl))
    intro _ _
    refine Program.Along.request trivial ?_ (fun _ given => absurd given (not_refused rfl))
    exact fun _ _ => ⟨_, rfl⟩

/-- A revocation that has ended a session goes on to dismantle it. -/
theorem revoke_obliged (sessionId : Uuid)
    : (SessionService.revoke sessionId).Obliged (Replies possible) obliges := by
  unfold SessionService.revoke
  refine Program.Obliged.request (fun _ _ => not_obliges_error) ?_ ?_
  · intro count later given
    obtain ⟨affected, owed⟩ := given
    rw [if_neg affected]
    unfold SessionService.dismantle
    rw [IpamService.releaseSession_bind]
    rcases owed with rfl | rfl | rfl
    · exact Program.Comes.here rfl
    · exact Program.Comes.request (fun _ => not_refused rfl) (fun _ _ => Program.Comes.here rfl)
    · refine Program.Comes.request (fun _ => not_refused rfl) ?_
      intro _ _
      exact Program.Comes.request (fun _ => not_refused rfl) (fun _ _ => Program.Comes.here rfl)
  · intro count
    split
    · trivial
    · exact dismantle_obliged sessionId

/-- The loop comes to every listed session, by induction on the list. -/
theorem revokeEach_comes {sessions : List Uuid} {sessionId : Uuid} (listed : sessionId ∈ sessions)
    : (SessionService.revokeEach sessions).Comes (Replies possible)
        (· = Statement.updateSessionRevoked sessionId) := by
  induction sessions with
  | nil => cases listed
  | cons id rest ih =>
      rcases List.mem_cons.mp listed with rfl | later
      · exact Program.Comes.bind (Program.Comes.here rfl)
      · exact Program.Comes.seq (revoke_returns id) (fun _ => ih later)

theorem revokeEach_obliged (sessions : List Uuid)
    : (SessionService.revokeEach sessions).Obliged (Replies possible) obliges := by
  induction sessions with
  | nil => trivial
  | cons id rest ih => exact Program.Obliged.bind (revoke_obliged id) (fun _ => ih)

/-- What the requests of this kind may send obliges to nothing. -/
def Request.free : Request → Bool
  | .createSession .. | .revokeSession _ | .revokeDevice _ | .updateUser .. | .deleteUser _ => false
  | _ => true

theorem free_of_issues {request : Request} {statement : Statement} (free : request.free = true)
    (issued : request.issues statement)
    : statement.free = true := by
  cases statement <;>
    first
    | rfl
    | cases request <;>
        first
        | simp [Request.issues, Request.writes, Statement.quiet, directoryWrites, sweepWrites] at issued
          done
        | cases free

/-- The enumeration of the sessions of a device, and the loop over it. -/
theorem revokeDeviceSessions_obliged (deviceId : Uuid)
    : (SessionService.revokeDeviceSessions deviceId).Obliged (Replies possible) obliges := by
  unfold SessionService.revokeDeviceSessions
  refine Program.Obliged.request (fun _ _ => not_obliges_error) ?_
    (fun ids => revokeEach_obliged ids)
  intro ids later given
  obtain ⟨id, listed, rfl⟩ := given
  exact revokeEach_comes listed

theorem revokeUserSessions_obliged (userId : Uuid)
    : (SessionService.revokeUserSessions userId).Obliged (Replies possible) obliges := by
  unfold SessionService.revokeUserSessions
  refine Program.Obliged.request (fun _ _ => not_obliges_error) ?_
    (fun ids => revokeEach_obliged ids)
  intro ids later given
  obtain ⟨id, listed, rfl⟩ := given
  exact revokeEach_comes listed

theorem quiet_free {statement : Statement} (quiet : statement.quiet = true)
    : statement.free = true := by
  cases statement <;> first | rfl | cases quiet

/-- A creation is obliged to bump the gateway once its peer is in place. -/
theorem provision_obliged {draw : SessionService.Draw} {userId : Uuid} {userEmail : String}
    {req : CreateSessionRequest} {network : Network} {gatewayId : Uuid}
    {gwPub gwEndpoint wgPub : String} {decision : PolicyDecision} {expiresAt : Timestamp}
    : (SessionService.provision draw userId userEmail req network gatewayId gwPub gwEndpoint wgPub
        decision expiresAt).Obliged (Replies possible) obliges := by
  unfold SessionService.provision
  refine Program.Obliged.bind (Along.obliged_of_free
    (@allocate_along draw _ _ _ (fun _ quiet => quiet_free quiet) (fun _ _ => rfl))) ?_
  intro assigned
  split
  · refine query_free_obliged rfl ?_
    intro _
    refine Program.Obliged.bind
      (Along.obliged_of_free (routesFor_along _ (fun _ quiet => quiet_free quiet))) ?_
    intro routes
    refine Program.Obliged.request (fun _ _ => not_obliges_error) ?_ ?_
    · rintro _ later rfl
      exact Program.Comes.here rfl
    · intro _
      refine query_free_obliged rfl ?_
      intro _
      refine Program.Obliged.bind
        (Along.obliged_of_free (record_along _ (fun _ quiet => quiet_free quiet))) ?_
      exact fun _ => query_free_obliged rfl (fun _ => trivial)
  · trivial

theorem create_obliged {draw : SessionService.Draw} {userId : Uuid} {userEmail : String}
    {req : CreateSessionRequest}
    : (SessionService.create draw userId userEmail req).Obliged (Replies possible) obliges := by
  have quietly : ∀ {Value Result : Type} {program : Call Value} {rest : Value → Call Result},
      program.Along (fun _ _ => True) (fun statement : Statement => statement.free = true)
        (fun _ => True)
      → (∀ value, (rest value).Obliged (Replies possible) obliges)
      → (program >>= rest).Obliged (Replies possible) obliges :=
    fun along goesOn => Program.Obliged.bind (Along.obliged_of_free along) goesOn
  unfold SessionService.create
  refine query_free_obliged rfl ?_
  rintro (_ | ⟨_, wgPub, revoked⟩)
  · trivial
  dsimp only
  split
  · trivial
  refine quietly
    (Program.Along.request rfl (fun _ _ => trivial) (fun _ _ => trivial)) ?_
  rintro (_ | network)
  · trivial
  refine query_free_obliged rfl ?_
  rintro (_ | ⟨gatewayId, gwPub, gwEndpoint, version⟩)
  · trivial
  refine query_free_obliged rfl ?_
  intro groups
  refine query_free_obliged rfl ?_
  intro policies
  refine quietly (attachPolicyMeta_along _ (fun _ quiet => quiet_free quiet)) ?_
  intro decision
  split
  · refine query_free_obliged rfl ?_
    intro now
    exact query_free_obliged rfl (fun _ => provision_obliged)
  · exact quietly (record_along _ (fun _ quiet => quiet_free quiet)) (fun _ => trivial)

end Calls

/-- Every call keeps its obligations, by cases on the request. -/
theorem Request.call_obliged {possible : Db → Prop} {state : AppState} (request : Request)
    : (request.call state).Obliged (Replies possible) obliges := by
  have others : request.free = true → (request.call state).Obliged (Replies possible) obliges :=
    fun free => Program.Along.obliged request.call_along
      (fun _ _ _ issued => not_obliges_of_free (free_of_issues free issued))
  cases request with
  | createSession draw userId userEmail req =>
      exact Program.Obliged.bind create_obliged (fun _ => trivial)
  | revokeSession id => exact Program.Obliged.bind (revoke_obliged id) (fun _ => trivial)
  | revokeDevice id =>
      refine Program.Obliged.bind ?_ (fun _ => trivial)
      unfold DeviceService.revoke
      refine query_free_obliged rfl ?_
      intro affected
      split
      · trivial
      · exact Program.Obliged.bind (revokeDeviceSessions_obliged id) (fun _ => trivial)
  | updateUser id req =>
      refine Program.Obliged.bind ?_ (fun _ => trivial)
      unfold UserService.update
      refine query_free_obliged rfl ?_
      intro row
      split
      · exact Program.Obliged.bind (revokeUserSessions_obliged id) (fun _ => trivial)
      · trivial
  | deleteUser id =>
      refine Program.Obliged.bind ?_ (fun _ => trivial)
      unfold UserService.delete
      refine Program.Obliged.bind (revokeUserSessions_obliged id) ?_
      exact fun _ => query_free_obliged rfl (fun _ => trivial)
  | _ => exact others rfl

theorem ControlPlane.start_obliged {possible : Db → Prop} {state : AppState}
    {requests : List Request} {db : Db}
    : (start state requests db).AllObliged (Replies possible) obliges := by
  intro call program found
  rw [start_calls] at found
  obtain ⟨request, _, rfl⟩ := Option.map_eq_some_iff.mp found
  exact request.call_obliged

end WslVpn
