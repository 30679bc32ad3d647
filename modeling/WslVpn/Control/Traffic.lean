import WslVpn.Interleaving.Paths
import WslVpn.Control.Effects

/-! What each request may send to the database, whatever it is answered on the way. -/

namespace WslVpn

open AddressSpace Interleaving

/-- A statement that writes to the audit log at most, and is not about which sessions to end. -/
def Statement.quiet : Statement → Bool
  | .utcNow | .selectBearer _ | .selectUserGroupNames _ | .selectDeviceOfUser _ _
  | .selectNetwork _ | .selectNetworkByName _ | .selectNetworkCidr _ | .selectNetworkIdByName _
  | .selectRouteDestinations _ | .selectServices _ | .selectGateway _ | .selectGatewayByName _
  | .selectGatewayNetwork _ | .selectGatewayForNetwork _ | .selectActivePolicies
  | .selectPolicyMeta _ | .selectNextPolicyVersion _ | .selectSessionOwner _
  | .selectIdentityByIp _ | .selectServedPeers _ | .selectAllocatedAddresses _
  | .insertAuditEvent _ => true
  | _ => false

/-- What `create` may send besides quiet statements: rows that carry the drawn session. -/
def createWrites (draw : SessionService.Draw) (req : CreateSessionRequest) : Statement → Prop
  | .insertSession row =>
      row.id = draw.sessionId ∧ row.deviceId = req.deviceId ∧ row.networkId = req.networkId
  | .insertAllocation row =>
      row.sessionId = some draw.sessionId ∧ row.networkId = req.networkId
  | .updateSessionAssignedIp id _ => id = draw.sessionId
  | .insertPeer row => row.sessionId = draw.sessionId
  | .bumpGateway _ => True
  | _ => False

/-- The statements of `create`. -/
def createIssues (draw : SessionService.Draw) (req : CreateSessionRequest) (statement : Statement)
    : Prop :=
  statement.quiet = true ∨ createWrites draw req statement

section Paths

variable {draw : SessionService.Draw} {userId : Uuid} {userEmail : String}
  {req : CreateSessionRequest}
  {follows : (statement : Statement) → Except DbError statement.Reply → Prop}
  {check : Statement → Prop}

theorem attachPolicyMeta_along (decision : PolicyDecision)
    (quiet : ∀ statement : Statement, statement.quiet = true → check statement)
    : (attachPolicyMeta decision).Along follows check (fun _ => True) := by
  unfold attachPolicyMeta
  split
  · trivial
  · unfold policyMeta
    refine Program.Along.request (quiet _ rfl) ?_ (fun _ _ => trivial)
    rintro (_ | ⟨id, version, commit⟩) _
    · trivial
    · trivial

theorem allocate_along (quiet : ∀ statement : Statement, statement.quiet = true → check statement)
    (writes
      : ∀ row, createWrites draw req (.insertAllocation row) → check (.insertAllocation row))
    : (IpamService.allocate req.networkId draw.sessionId).Along follows check (fun _ => True) := by
  unfold IpamService.allocate
  refine Program.Along.request (quiet _ rfl) ?_ (fun _ _ => trivial)
  rintro (_ | cidr) _
  · trivial
  refine Program.Along.request (quiet _ rfl) ?_ (fun _ _ => trivial)
  intro used _
  split
  · trivial
  · split
    · refine Program.Along.request (writes _ ⟨rfl, rfl⟩) ?_ (fun _ _ => trivial)
      intro _ _
      trivial
    · trivial

theorem routesFor_along (networkId : Uuid)
    (quiet : ∀ statement : Statement, statement.quiet = true → check statement)
    : (NetworkService.routesFor networkId).Along follows check (fun _ => True) :=
  Program.Along.request (quiet _ rfl) (fun _ _ => trivial) (fun _ _ => trivial)

theorem record_along (entry : AuditEntry)
    (quiet : ∀ statement : Statement, statement.quiet = true → check statement)
    : (AuditService.record entry).Along follows check (fun _ => True) :=
  ⟨quiet _ rfl, fun reply _ => by cases reply <;> trivial⟩

/-- After the session row is in place, each write carries the drawn session. -/
theorem provision_along {network : Network} {gatewayId : Uuid} {gwPub gwEndpoint wgPub : String}
    {decision : PolicyDecision} {expiresAt : Timestamp}
    (quiet : ∀ statement : Statement, statement.quiet = true → check statement)
    (writes : ∀ statement, createWrites draw req statement → check statement)
    : (SessionService.provision draw userId userEmail req network gatewayId gwPub gwEndpoint wgPub
        decision expiresAt).Along follows check (fun _ => True) := by
  unfold SessionService.provision
  refine Program.Along.seq (allocate_along quiet (fun _ own => writes _ own)) ?_
  intro assigned
  split
  · refine Program.Along.request (writes _ rfl) ?_ (fun _ _ => trivial)
    intro _ _
    refine Program.Along.seq (routesFor_along _ quiet) ?_
    intro routes
    refine Program.Along.request (writes _ rfl) ?_ (fun _ _ => trivial)
    intro _ _
    refine Program.Along.request (writes _ trivial) ?_ (fun _ _ => trivial)
    intro _ _
    refine Program.Along.seq (record_along _ quiet) ?_
    intro _
    exact Program.Along.request (quiet _ rfl) (fun _ _ => trivial) (fun _ _ => trivial)
  · trivial

/-- The statements of `create`: quiet ones, the session row, and once that is in place the other
writes.
-/
theorem create_along
    (quiet : ∀ statement : Statement, statement.quiet = true → check statement)
    (inserts
      : ∀ row, createWrites draw req (.insertSession row)
          → check (.insertSession row)
            ∧ (follows (.insertSession row) (.ok ())
              → ∀ statement, createWrites draw req statement → check statement))
    : (SessionService.create draw userId userEmail req).Along follows check (fun _ => True) := by
  unfold SessionService.create
  refine Program.Along.request (quiet _ rfl) ?_ (fun _ _ => trivial)
  rintro (_ | ⟨_, wgPub, revoked⟩) _
  · trivial
  dsimp only
  split
  · trivial
  refine Program.Along.seq
    (Program.Along.request (quiet _ rfl) (fun _ _ => trivial) (fun _ _ => trivial)) ?_
  rintro (_ | network)
  · trivial
  refine Program.Along.request (quiet _ rfl) ?_ (fun _ _ => trivial)
  rintro (_ | ⟨gatewayId, gwPub, gwEndpoint, version⟩) _
  · trivial
  refine Program.Along.request (quiet _ rfl) ?_ (fun _ _ => trivial)
  intro groups _
  refine Program.Along.request (quiet _ rfl) ?_ (fun _ _ => trivial)
  intro policies _
  refine Program.Along.seq (attachPolicyMeta_along _ quiet) ?_
  intro decision
  split
  · refine Program.Along.request (quiet _ rfl) ?_ (fun _ _ => trivial)
    intro now _
    refine Program.Along.request (inserts _ ⟨rfl, rfl, rfl⟩).1 ?_ (fun _ _ => trivial)
    intro _ inserted
    exact provision_along quiet ((inserts _ ⟨rfl, rfl, rfl⟩).2 inserted)
  · refine Program.Along.seq (record_along _ quiet) ?_
    intro _
    trivial

end Paths

-----------------------------------------------------------------------------------------
-- The other requests
-----------------------------------------------------------------------------------------

/-- The four writes of a revocation, of whatever session, and the lists of sessions to revoke. -/
def revocationWrites : Statement → Prop
  | .selectActiveSessionsOfUser _ | .selectActiveSessionsOfDevice _ | .updateSessionRevoked _
  | .deletePeersOfSession _ | .deleteAllocationsOfSession _ | .bumpGatewaysOfSession _ => True
  | _ => False

/-- The sweep of lapsed sessions that a configuration begins with. -/
def sweepWrites (gatewayId : Uuid) : Statement → Prop
  | .expireSessions id | .deleteExpiredPeers id => id = gatewayId
  | _ => False

/-- What applying a directory writes. -/
def directoryWrites : Statement → Prop
  | .upsertGroup .. | .insertNetwork .. | .upsertService .. | .insertRoute ..
  | .upsertPolicy .. | .insertPolicyVersion _ | .updatePolicyVersion .. | .insertGitRevision _ => True
  | _ => False

/-- What declaring groups and networks writes. -/
def declarationWrites : Statement → Prop
  | .upsertGroup .. | .insertNetwork .. | .upsertService .. | .insertRoute .. => True
  | _ => False

theorem directoryWrites_of_declaration {statement : Statement} (own : declarationWrites statement)
    : directoryWrites statement := by
  cases statement <;> trivial

/-- What a request may send besides quiet statements. -/
def Request.writes : Request → Statement → Prop
  | .createSession draw _ _ req, statement => createWrites draw req statement
  | .revokeSession _, statement => revocationWrites statement
  | .identityByIp _, _ => False
  | .registerGateway _ req _, statement => ∃ row, statement = .upsertGateway row ∧ row.name = req.name
  | .rotateGatewayToken id _, statement => ∃ hash, statement = .updateGatewayToken id hash
  | .gatewayConfig id, statement => sweepWrites id statement
  | .gatewayHeartbeat id _, statement =>
      statement = .updateGatewayHeartbeat id ∨ sweepWrites id statement
  | .applyDirectory _ _, statement => directoryWrites statement
  | .applyPolicy .., statement => directoryWrites statement
  | .createNetwork _ _, statement => directoryWrites statement
  | .registerDevice _ _ _, statement =>
      (∃ row, statement = .upsertDevice row) ∨ ∃ row, statement = .insertDeviceCertificate row
  | .revokeDevice id, statement => statement = .updateDeviceRevoked id ∨ revocationWrites statement
  | .updateUser id req, statement => statement = .updateUser id req ∨ revocationWrites statement
  | .deleteUser id, statement => statement = .deleteUser id ∨ revocationWrites statement

/-- What a request may send. -/
def Request.issues (request : Request) (statement : Statement) : Prop :=
  statement.quiet = true ∨ request.writes statement

section Paths

variable {follows : (statement : Statement) → Except DbError statement.Reply → Prop}
  {check : Statement → Prop}

/-- A single statement. -/
theorem query_along {statement : Statement} (checked : check statement)
    : (query statement).Along follows check (fun _ => True) :=
  ⟨checked, fun reply _ => by cases reply <;> trivial⟩

theorem revoke_along (sessionId : Uuid)
    (writes : ∀ statement, revocationWrites statement → check statement)
    : (SessionService.revoke sessionId).Along follows check (fun _ => True) := by
  unfold SessionService.revoke SessionService.dismantle
  refine Program.Along.seq (query_along (writes _ trivial)) ?_
  intro affected
  split
  · trivial
  · refine Program.Along.seq (query_along (writes _ trivial)) ?_
    intro _
    refine Program.Along.seq
      (Program.Along.seq (query_along (writes _ trivial)) (fun _ => trivial)) ?_
    intro _
    exact Program.Along.seq (query_along (writes _ trivial)) (fun _ => trivial)

/-- The loop over the listed sessions, by induction on the list. -/
theorem revokeEach_along (sessions : List Uuid)
    (writes : ∀ statement, revocationWrites statement → check statement)
    : (SessionService.revokeEach sessions).Along follows check (fun _ => True) := by
  induction sessions with
  | nil => trivial
  | cons id rest ih => exact Program.Along.seq (revoke_along id writes) (fun _ => ih)

/-- The withdrawal of a device lists its sessions first. -/
theorem revokeDeviceSessions_along (deviceId : Uuid)
    (writes : ∀ statement, revocationWrites statement → check statement)
    : (SessionService.revokeDeviceSessions deviceId).Along follows check (fun _ => True) := by
  unfold SessionService.revokeDeviceSessions
  refine Program.Along.seq (query_along (writes _ trivial)) ?_
  intro affected
  exact revokeEach_along affected writes

/-- So does the withdrawal of a user. -/
theorem revokeUserSessions_along (userId : Uuid)
    (writes : ∀ statement, revocationWrites statement → check statement)
    : (SessionService.revokeUserSessions userId).Along follows check (fun _ => True) := by
  unfold SessionService.revokeUserSessions
  refine Program.Along.seq (query_along (writes _ trivial)) ?_
  intro affected
  exact revokeEach_along affected writes

theorem configOf_along {state : AppState} {id : Uuid} {gw : Gateway} {networkId : Uuid}
    (quiet : ∀ statement : Statement, statement.quiet = true → check statement)
    (writes : ∀ statement, sweepWrites id statement → check statement)
    : (GatewayService.configOf state id gw networkId).Along follows check (fun _ => True) := by
  unfold GatewayService.configOf
  refine Program.Along.seq (query_along (quiet _ rfl)) ?_
  rintro (_ | cidr)
  · trivial
  refine Program.Along.seq (query_along (writes _ rfl)) ?_
  intro _
  refine Program.Along.seq (query_along (writes _ rfl)) ?_
  intro _
  refine Program.Along.seq (query_along (quiet _ rfl)) ?_
  intro peerRows
  refine Program.Along.seq (query_along (quiet _ rfl)) ?_
  intro routes
  refine Program.Along.seq (query_along (quiet _ rfl)) ?_
  intro serviceRows
  exact Program.Along.seq (query_along (quiet _ rfl)) (fun _ => trivial)

theorem config_along {state : AppState} {id : Uuid}
    (quiet : ∀ statement : Statement, statement.quiet = true → check statement)
    (writes : ∀ statement, sweepWrites id statement → check statement)
    : (GatewayService.config state id).Along follows check (fun _ => True) := by
  unfold GatewayService.config GatewayService.get
  refine Program.Along.seq (Program.Along.seq (query_along (quiet _ rfl)) (fun _ => trivial)) ?_
  rintro (_ | gw)
  · trivial
  · dsimp only
    split
    · trivial
    · exact configOf_along quiet writes

theorem identityByIp_along {ip : IpAddr}
    (quiet : ∀ statement : Statement, statement.quiet = true → check statement)
    : (SessionService.identityByIp ip).Along follows check (fun _ => True) := by
  unfold SessionService.identityByIp
  split
  · refine Program.Along.seq (query_along (quiet _ rfl)) ?_
    rintro (_ | ⟨session, email⟩)
    · trivial
    · exact Program.Along.seq (query_along (quiet _ rfl)) (fun _ => trivial)
  · trivial

theorem register_along {state : AppState} {draw : GatewayService.Draw}
    {req : RegisterGatewayRequest} {presentedAuth : Option String}
    (quiet : ∀ statement : Statement, statement.quiet = true → check statement)
    (writes : ∀ row : GatewayRow, row.name = req.name → check (.upsertGateway row))
    : (GatewayService.register state draw req presentedAuth).Along follows check
        (fun _ => True) := by
  have network : ∀ existing, (GatewayService.networkFor req.networkId existing).Along follows check
      (fun _ => True) := by
    intro existing
    unfold GatewayService.networkFor
    split
    · trivial
    · split
      · refine Program.Along.seq (query_along (quiet _ rfl)) ?_
        rintro (_ | networkId) <;> trivial
      · exact query_along (quiet _ rfl)
  unfold GatewayService.register
  dsimp only
  split
  · trivial
  · refine Program.Along.seq (query_along (quiet _ rfl)) ?_
    intro existing
    split
    · trivial
    · refine Program.Along.seq (network existing) ?_
      intro networkId
      refine Program.Along.seq (query_along (writes _ rfl)) ?_
      intro row
      exact Program.Along.seq (record_along _ quiet) (fun _ => trivial)

theorem rotateToken_along {state : AppState} {id : Uuid} {authToken : String}
    (quiet : ∀ statement : Statement, statement.quiet = true → check statement)
    (writes : ∀ hash, check (.updateGatewayToken id hash))
    : (GatewayService.rotateToken state id authToken).Along follows check (fun _ => True) := by
  unfold GatewayService.rotateToken
  refine Program.Along.seq (query_along (writes _)) ?_
  rintro (_ | ⟨gatewayId, rotatedAt⟩)
  · trivial
  · exact Program.Along.seq (record_along _ quiet) (fun _ => trivial)

/-- The loop over a directory, by induction on its entries. -/
theorem forYaml_along {Document : Type} {describe : String → String}
    {body : DirEntry Document → Document → Call Unit}
    (each : ∀ entry document, (body entry document).Along follows check (fun _ => True))
    (entries : List (Option (DirEntry Document)))
    : (forYaml describe body entries).Along follows check (fun _ => True) := by
  induction entries with
  | nil => trivial
  | cons entry rest ih =>
      cases entry with
      | none => trivial
      | some entry =>
          unfold forYaml
          split
          · exact ih
          · split
            · trivial
            · trivial
            · refine Program.Along.seq (each _ _) ?_
              intro _
              exact Program.Along.seq ih (fun _ => trivial)

theorem forDirectory_along {Document : Type} {describe : String → String}
    {body : DirEntry Document → Document → Call Unit}
    (each : ∀ entry document, (body entry document).Along follows check (fun _ => True))
    (listing : Option (Listing Document))
    : (forDirectory describe body listing).Along follows check (fun _ => True) := by
  rcases listing with _ | _ | entries
  · trivial
  · trivial
  · exact forYaml_along each entries

/-- The services of a network, by induction on the list. -/
theorem applyServices_along (networkId : Uuid) (services : List Yaml)
    (writes : ∀ statement, declarationWrites statement → check statement)
    : (GitOpsService.applyServices networkId services).Along follows check (fun _ => True) := by
  induction services with
  | nil => trivial
  | cons service rest ih =>
      unfold GitOpsService.applyServices
      split
      · dsimp only
        split
        · trivial
        · exact Program.Along.seq (query_along (writes _ trivial)) (fun _ => ih)
      · trivial

theorem applyRoutes_along (networkId : Uuid) (routes : List Yaml)
    (writes : ∀ statement, declarationWrites statement → check statement)
    : (GitOpsService.applyRoutes networkId routes).Along follows check (fun _ => True) := by
  induction routes with
  | nil => trivial
  | cons route rest ih =>
      unfold GitOpsService.applyRoutes
      split
      · exact ih
      · exact Program.Along.seq (query_along (writes _ trivial)) (fun _ => ih)

theorem applyNetwork_along (entry : DirEntry Yaml) (v : Yaml)
    (quiet : ∀ statement : Statement, statement.quiet = true → check statement)
    (writes : ∀ statement, declarationWrites statement → check statement)
    : (GitOpsService.applyNetwork entry v).Along follows check (fun _ => True) := by
  have ensured : ∀ name cidr, (GitOpsService.ensureNetwork entry v name cidr).Along follows check
      (fun _ => True) := by
    intro name cidr
    unfold GitOpsService.ensureNetwork NetworkService.getByName NetworkService.create
    refine Program.Along.seq (Program.Along.seq (query_along (quiet _ rfl)) (fun _ => trivial)) ?_
    rintro (_ | network)
    · exact Program.Along.seq
        (Program.Along.seq (query_along (writes _ trivial)) (fun _ => trivial)) (fun _ => trivial)
    · trivial
  unfold GitOpsService.applyNetwork
  split
  · trivial
  · split
    · trivial
    · refine Program.Along.seq (ensured _ _) ?_
      intro networkId
      refine Program.Along.seq (applyServices_along _ _ writes) ?_
      intro _
      exact applyRoutes_along _ _ writes

theorem applyGroup_along (entry : DirEntry Yaml) (v : Yaml)
    (writes : ∀ statement, declarationWrites statement → check statement)
    : (GitOpsService.applyGroup entry v).Along follows check (fun _ => True) := by
  unfold GitOpsService.applyGroup GroupService.create
  split
  · trivial
  · exact Program.Along.seq (query_along (writes _ trivial)) (fun _ => trivial)

theorem applyPolicyYaml_along (freshId : Uuid) (document : AccessPolicyDocument)
    (gitCommit : Option String)
    (quiet : ∀ statement : Statement, statement.quiet = true → check statement)
    (writes : ∀ statement, directoryWrites statement → check statement)
    : (GitOpsService.applyPolicyYaml freshId document gitCommit).Along follows check
        (fun _ => True) := by
  unfold GitOpsService.applyPolicyYaml
  split
  · trivial
  · refine Program.Along.seq (query_along (writes _ trivial)) ?_
    intro policyId
    refine Program.Along.seq (query_along (quiet _ rfl)) ?_
    intro version
    refine Program.Along.seq (query_along (writes _ trivial)) ?_
    intro row
    exact Program.Along.seq (query_along (writes _ trivial)) (fun _ => trivial)

theorem applyPolicyFile_along (gitCommit : Option String) (entry : DirEntry AccessPolicyDocument)
    (document : AccessPolicyDocument)
    (quiet : ∀ statement : Statement, statement.quiet = true → check statement)
    (writes : ∀ statement, directoryWrites statement → check statement)
    : (GitOpsService.applyPolicyFile gitCommit entry document).Along follows check
        (fun _ => True) := by
  unfold GitOpsService.applyPolicyFile
  exact Program.Along.seq (applyPolicyYaml_along entry.freshId document gitCommit quiet writes)
    (fun _ => query_along (writes _ trivial))

theorem applyDirectory_along (directory : GitOpsDirectory) (gitCommit : Option String)
    (quiet : ∀ statement : Statement, statement.quiet = true → check statement)
    (writes : ∀ statement, directoryWrites statement → check statement)
    : (GitOpsService.applyDirectory directory gitCommit).Along follows check
        (fun _ => True) := by
  have declares : ∀ statement, declarationWrites statement → check statement :=
    fun statement own => writes statement (directoryWrites_of_declaration own)
  unfold GitOpsService.applyDirectory
  split
  · trivial
  · refine Program.Along.seq
      (forDirectory_along (fun entry v => applyGroup_along entry v declares) _) ?_
    intro _
    refine Program.Along.seq
      (forDirectory_along (fun entry v => applyNetwork_along entry v quiet declares) _) ?_
    intro _
    exact forDirectory_along
      (fun entry document => applyPolicyFile_along gitCommit entry document quiet writes) _

theorem registerDevice_along {state : AppState} {freshId userId : Uuid}
    {req : RegisterDeviceRequest}
    (quiet : ∀ statement : Statement, statement.quiet = true → check statement)
    (device : ∀ row, check (.upsertDevice row))
    (certificate : ∀ row, check (.insertDeviceCertificate row))
    : (DeviceService.register state freshId userId req).Along follows check (fun _ => True) := by
  unfold DeviceService.register
  split
  · trivial
  · refine Program.Along.seq (query_along (device _)) ?_
    intro row
    refine Program.Along.seq (query_along (quiet _ rfl)) ?_
    intro now
    refine Program.Along.seq (query_along (certificate _)) ?_
    intro _
    exact Program.Along.seq (record_along _ quiet) (fun _ => trivial)

end Paths

/-- Every request sends quiet statements and its own writes only, by cases on the request. -/
theorem Request.call_along
    {follows : (statement : Statement) → Except DbError statement.Reply → Prop}
    {state : AppState} (request : Request)
    : (request.call state).Along follows request.issues (fun _ => True) := by
  have quiet : ∀ statement : Statement, statement.quiet = true → request.issues statement :=
    fun _ quiet => Or.inl quiet
  have writes : ∀ statement, request.writes statement → request.issues statement :=
    fun _ writes => Or.inr writes
  cases request with
  | createSession draw userId userEmail req =>
      refine Program.Along.seq (create_along quiet ?_) (fun _ => trivial)
      exact fun row own => ⟨writes _ own, fun _ => writes⟩
  | revokeSession id => exact Program.Along.seq (revoke_along id writes) (fun _ => trivial)
  | identityByIp ip => exact Program.Along.seq (identityByIp_along quiet) (fun _ => trivial)
  | registerGateway draw req presentedAuth =>
      refine Program.Along.seq (register_along quiet ?_) (fun _ => trivial)
      exact fun row named => writes _ ⟨row, rfl, named⟩
  | rotateGatewayToken id authToken =>
      refine Program.Along.seq (rotateToken_along quiet ?_) (fun _ => trivial)
      exact fun hash => writes _ ⟨hash, rfl⟩
  | gatewayConfig id => exact Program.Along.seq (config_along quiet writes) (fun _ => trivial)
  | gatewayHeartbeat id req =>
      refine Program.Along.seq ?_ (fun _ => trivial)
      refine Program.Along.seq (query_along (writes _ (Or.inl rfl))) ?_
      exact fun _ => config_along quiet (fun statement own => writes statement (Or.inr own))
  | applyDirectory directory gitCommit =>
      exact Program.Along.seq (applyDirectory_along directory gitCommit quiet writes)
        (fun _ => trivial)
  | applyPolicy freshId document gitCommit =>
      exact Program.Along.seq (applyPolicyYaml_along freshId document gitCommit quiet writes)
        (fun _ => trivial)
  | createNetwork freshId req =>
      refine Program.Along.seq ?_ (fun _ => trivial)
      exact Program.Along.seq (query_along (writes _ trivial)) (fun _ => trivial)
  | registerDevice freshId userId req =>
      refine Program.Along.seq (registerDevice_along quiet ?_ ?_) (fun _ => trivial)
      · exact fun row => writes _ (Or.inl ⟨row, rfl⟩)
      · exact fun row => writes _ (Or.inr ⟨row, rfl⟩)
  | revokeDevice id =>
      refine Program.Along.seq ?_ (fun _ => trivial)
      unfold DeviceService.revoke
      refine Program.Along.seq (query_along (writes _ (Or.inl rfl))) ?_
      intro affected
      split
      · trivial
      · refine Program.Along.seq ?_ (fun _ => trivial)
        exact revokeDeviceSessions_along id (fun statement own => writes statement (Or.inr own))
  | updateUser id req =>
      refine Program.Along.seq ?_ (fun _ => trivial)
      unfold UserService.update
      refine Program.Along.seq (query_along (writes _ (Or.inl rfl))) ?_
      intro row
      split
      · refine Program.Along.seq ?_ (fun _ => trivial)
        exact revokeUserSessions_along id (fun statement own => writes statement (Or.inr own))
      · trivial
  | deleteUser id =>
      refine Program.Along.seq ?_ (fun _ => trivial)
      unfold UserService.delete
      refine Program.Along.seq ?_ ?_
      · exact revokeUserSessions_along id (fun statement own => writes statement (Or.inr own))
      · intro _
        exact Program.Along.seq (query_along (writes _ (Or.inl rfl))) (fun _ => trivial)

/-- The statement is one that the request of the call may send. -/
def Sends (requests : List Request) (call : Nat) (statement : Statement) : Prop :=
  ∃ request, requests[call]? = some request ∧ request.issues statement

/-- From the start on, each call sends only what its request may send. -/
theorem ControlPlane.start_sends {state : AppState} {requests : List Request} {db : Db}
    : (start state requests db).AllAlong (Sends requests) (fun _ _ => True) := by
  intro call program found
  rw [start_calls] at found
  obtain ⟨request, made, rfl⟩ := Option.map_eq_some_iff.mp found
  exact request.call_along.mono (fun statement issued => ⟨request, made, issued⟩)

-----------------------------------------------------------------------------------------
-- Who sends what
-----------------------------------------------------------------------------------------

section Issues

variable {request : Request}

/-- What creations alone send. -/
def Statement.creates : Statement → Bool
  | .insertSession _ | .insertAllocation _ | .updateSessionAssignedIp _ _ | .insertPeer _
  | .bumpGateway _ => true
  | _ => false

theorem Request.issues_creation {statement : Statement} (creates : statement.creates = true)
    (issued : request.issues statement)
    : ∃ draw userId userEmail req, request = .createSession draw userId userEmail req
        ∧ createWrites draw req statement := by
  cases statement with
  | insertSession | insertAllocation | updateSessionAssignedIp | insertPeer | bumpGateway =>
      cases request with
      | createSession draw userId userEmail req =>
          rcases issued with quiet | own
          · cases quiet
          · exact ⟨draw, userId, userEmail, req, rfl, own⟩
      | _ =>
          simp [Request.issues, Request.writes, Statement.quiet, revocationWrites, directoryWrites,
            sweepWrites] at issued
  | _ => cases creates

/-- Users are deleted by the deletion of a user only. -/
theorem Request.issues_deleteUser {id : Uuid} (issued : request.issues (.deleteUser id))
    : request = .deleteUser id := by
  cases request with
  | deleteUser other =>
      rcases issued with ⟨⟨⟩⟩ | ⟨⟨⟩⟩ | ⟨⟨⟩⟩
      rfl
  | _ =>
      simp [Request.issues, Request.writes, Statement.quiet, revocationWrites, directoryWrites,
        sweepWrites, createWrites] at issued

/-- Without such a request no user is deleted. -/
theorem Sends.kept {requests : List Request} {call : Nat} {statement : Statement}
    (sends : Sends requests call statement) (deletes : ∀ id, .deleteUser id ∉ requests)
    (user : Uuid)
    : statement ≠ .deleteUser user := by
  rintro rfl
  obtain ⟨request, made, issued⟩ := sends
  obtain rfl := Request.issues_deleteUser issued
  exact deletes user (List.mem_of_getElem? made)

end Issues

end WslVpn
