import WslVpn.Interleaving.Contracts
import WslVpn.Control.Traffic

/-! Creating a session, stage by stage. Its statements depend on what the earlier ones have put in
place, so whoever reasons about it says what holds after each stage, and that the other calls
leave it so.
-/

namespace WslVpn

open AddressSpace Interleaving

/-- The session row that a creation inserts. -/
structure NewSession (draw : SessionService.Draw) (userId : Uuid) (req : CreateSessionRequest)
    (row : SessionRow) : Prop where
  id : row.id = draw.sessionId
  userId : row.userId = userId
  deviceId : row.deviceId = req.deviceId
  networkId : row.networkId = req.networkId
  assignedIp : row.assignedIp = placeholderAddress
  status : row.status = .active

/-- The peer row that a creation inserts for the session with the given address. -/
structure NewPeer (session : SessionRow) (host : IpNetwork) (row : PeerRow) : Prop where
  sessionId : row.sessionId = session.id
  gatewayId : row.gatewayId = session.gatewayId
  deviceId : row.deviceId = session.deviceId
  allowedIps : row.allowedIps = [host]
  expiresAt : row.expiresAt = session.expiresAt

/-- The host may be handed out in the network. -/
def HostOf (networkId : Uuid) (host : IpNetwork) (db : Db) : Prop :=
  ∃ network addr, db.networkAt networkId = some network
    ∧ network.cidr.contains addr = true ∧ IpamService.skipped addr = false
    ∧ IpNetwork.new? addr 32 = some host

/-- What holds between the statements of a creation, and that they are as the contract asks. -/
structure Stages (contract : Contract sql) (call : Nat) (draw : SessionService.Draw) (userId : Uuid)
    (req : CreateSessionRequest) where
  inserted : SessionRow → Db → Prop
  allocated : SessionRow → IpNetwork → Db → Prop
  addressed : SessionRow → IpNetwork → Db → Prop
  inserted_later
    : ∀ {row db now}, contract.later call db now → inserted row db → inserted row now
  allocated_later
    : ∀ {row host db now},
        contract.later call db now → allocated row host db → allocated row host now
  addressed_later
    : ∀ {row host db now},
        contract.later call db now → addressed row host db → addressed row host now
  network_later
    : ∀ {db now id network},
        contract.later call db now → db.networkAt id = some network
          → now.networkAt id = some network
  quiet
    : ∀ {statement db},
        Statement.quiet statement = true → contract.possible db
          → contract.asserts call statement db
            ∧ ∀ reply after, statement.exec db = .ok (reply, after) → contract.later call db after
  insertSession
    : ∀ {row db},
        NewSession draw userId req row → contract.possible db
          → contract.may (.insertSession row) db
          → contract.asserts call (.insertSession row) db
            ∧ ∀ reply after, (Statement.insertSession row).exec db = .ok (reply, after)
                → inserted row after
  insertAllocation
    : ∀ {session host db},
        NewSession draw userId req session → contract.possible db → inserted session db
          → HostOf req.networkId host db
          → contract.may (.insertAllocation ⟨req.networkId, host, some draw.sessionId⟩) db
          → contract.asserts call (.insertAllocation ⟨req.networkId, host, some draw.sessionId⟩) db
            ∧ ∀ reply after,
                (Statement.insertAllocation ⟨req.networkId, host, some draw.sessionId⟩).exec db
                  = .ok (reply, after) → allocated session host after
  updateAddress
    : ∀ {session host db},
        NewSession draw userId req session → contract.possible db → allocated session host db
          → contract.may (.updateSessionAssignedIp draw.sessionId host) db
          → contract.asserts call (.updateSessionAssignedIp draw.sessionId host) db
            ∧ ∀ reply after,
                (Statement.updateSessionAssignedIp draw.sessionId host).exec db = .ok (reply, after)
                  → addressed session host after
  insertPeer
    : ∀ {session host row db},
        NewSession draw userId req session → NewPeer session host row → contract.possible db
          → addressed session host db → contract.may (.insertPeer row) db
          → contract.asserts call (.insertPeer row) db
            ∧ ∀ reply after, (Statement.insertPeer row).exec db = .ok (reply, after)
                → addressed session host after
  bumpGateway
    : ∀ {session host db},
        NewSession draw userId req session → contract.possible db → addressed session host db
          → contract.may (.bumpGateway session.gatewayId) db
          → contract.asserts call (.bumpGateway session.gatewayId) db
            ∧ ∀ reply after, (Statement.bumpGateway session.gatewayId).exec db = .ok (reply, after)
                → addressed session host after

/-- What a creation that returns no error has done. -/
def Stages.Provisioned {contract : Contract sql} {call : Nat} {draw : SessionService.Draw}
    {userId : Uuid} {req : CreateSessionRequest} (stages : Stages contract call draw userId req)
    (response : CreateSessionResponse) (db : Db) : Prop :=
  ∃ row host, NewSession draw userId req row ∧ response.session.id = row.id
    ∧ response.wireguard.interfaceAddress = networkText host ∧ stages.addressed row host db

namespace Stages

variable {contract : Contract sql} {call : Nat} {draw : SessionService.Draw} {userId : Uuid}
  {userEmail : String} {req : CreateSessionRequest} {row : SessionRow} {host : IpNetwork} {db : Db}

/-- A statement that writes to the audit log at most, in the middle of a creation. -/
theorem quietly (stages : Stages contract call draw userId req) {Value : Type}
    {statement : Statement} {rest : statement.Reply → Call Value} {post : Value → Db → Prop}
    (quiet : statement.quiet = true)
    (goesOn
      : ∀ reply now after, contract.later call db now → contract.possible now
          → statement.exec now = .ok (reply, after) → contract.later call db after
          → contract.possible after → (rest reply).Keeps contract call post after)
    : (query statement >>= rest).Keeps contract call post db := by
  refine Program.Keeps.request ?_
  intro now passed possible _
  obtain ⟨asserted, later⟩ := stages.quiet quiet possible
  refine ⟨asserted, ?_⟩
  intro reply after ran fine
  exact goesOn reply now after passed possible ran
    (contract.later_trans passed (later reply after ran)) fine

/-- A whole quiet call in the middle of a creation, by what it sends. -/
theorem quietCall (stages : Stages contract call draw userId req) {Value Result : Type}
    {program : Call Value} {rest : Value → Call Result} {post : Result → Db → Prop}
    (quiet
      : program.Along (fun _ _ => True) (fun statement : Statement => statement.quiet = true)
          (fun _ => True))
    (possible : contract.possible db)
    (goesOn
      : ∀ value now, contract.later call db now → contract.possible now
          → (rest value).Keeps contract call post now)
    : (program >>= rest).Keeps contract call post db := by
  have first : program.Keeps contract call (fun _ now => contract.later call db now) db := by
    refine quiet.keeps (fun _ _ passed from_ => contract.later_trans from_ passed) ?_
      (contract.later_refl call db)
    intro statement now isQuiet possible _ from_
    obtain ⟨asserted, later⟩ := stages.quiet isQuiet possible
    exact ⟨asserted, fun reply after ran => contract.later_trans from_ (later reply after ran)⟩
  exact Program.Keeps.bind possible first (fun value now fine later => goesOn value now later fine)

/-- The network's free address, and the insert that takes it. -/
theorem allocate_keeps (stages : Stages contract call draw userId req)
    (new : NewSession draw userId req row) (inserted : stages.inserted row db)
    : (IpamService.allocate req.networkId draw.sessionId).Keeps contract call
        (fun text now => ∃ host, text = networkText host ∧ stages.allocated row host now) db := by
  unfold IpamService.allocate
  refine stages.quietly rfl ?_
  rintro (_ | cidr) now after _ _ ran passed _
  · trivial
  obtain ⟨network, stored, rfl⟩ := Option.map_eq_some_iff.mp (congrArg Prod.fst (Except.ok.inj ran))
  obtain rfl : now = after := congrArg Prod.snd (Except.ok.inj ran)
  refine stages.quietly rfl ?_
  rintro used next after _ _ ran passed' _
  obtain rfl : next = after := congrArg Prod.snd (Except.ok.inj ran)
  split
  · trivial
  · rename_i addr chosen
    split
    · rename_i host made
      refine Program.Keeps.request ?_
      intro last later possible may
      have known := stages.network_later later (stages.network_later passed' stored)
      have inserted := stages.inserted_later later
        (stages.inserted_later passed' (stages.inserted_later passed inserted))
      have usable : IpamService.skipped addr = false := by
        have := List.find?_some chosen
        simp only [Bool.and_eq_true, Bool.not_eq_true'] at this
        exact this.1
      have member : network.cidr.contains addr = true :=
        IpNetwork.mem_iter.mp (List.mem_of_find?_eq_some chosen)
      have handed : HostOf req.networkId host last :=
        ⟨network, addr, known, member, usable, made⟩
      obtain ⟨asserted, allocated⟩ := stages.insertAllocation new possible inserted handed may
      refine ⟨asserted, ?_⟩
      intro reply after ran _ now later _
      exact ⟨host, (networkText_of_new? made).symm,
        stages.allocated_later later (allocated reply after ran)⟩
    · trivial

/-- The statements that follow the session row. -/
theorem provision_keeps (stages : Stages contract call draw userId req)
    (new : NewSession draw userId req row) (possible : contract.possible db)
    (inserted : stages.inserted row db) {network : Network} {gwPub gwEndpoint wgPub : String}
    {decision : PolicyDecision}
    : (SessionService.provision draw userId userEmail req network row.gatewayId gwPub gwEndpoint wgPub
        decision row.expiresAt).Keeps contract call stages.Provisioned db := by
  unfold SessionService.provision
  refine Program.Keeps.bind possible (stages.allocate_keeps new inserted) ?_
  intro _ now possible given
  obtain ⟨host, rfl, allocated⟩ := given
  simp only [parseNetwork_networkText]
  refine Program.Keeps.request ?_
  intro now later possible may
  obtain ⟨asserted, addressed⟩ :=
    stages.updateAddress new possible (stages.allocated_later later allocated) may
  refine ⟨asserted, ?_⟩
  intro count after ran possible
  have addressed := addressed count after ran
  refine stages.quietCall (routesFor_along _ (fun _ quiet => quiet)) possible ?_
  intro routes now later possible
  have addressed := stages.addressed_later later addressed
  refine Program.Keeps.request ?_
  intro now later possible may
  have peer : NewPeer row host {
      id := draw.peerId
      sessionId := draw.sessionId
      gatewayId := row.gatewayId
      deviceId := req.deviceId
      publicKey := wgPub
      allowedIps := [host]
      expiresAt := row.expiresAt
    } := ⟨new.id.symm, rfl, new.deviceId.symm, rfl, rfl⟩
  obtain ⟨asserted, connected⟩ :=
    stages.insertPeer new peer possible (stages.addressed_later later addressed) may
  refine ⟨asserted, ?_⟩
  intro _ after ran possible
  have addressed := connected () after ran
  refine Program.Keeps.request ?_
  intro now later possible may
  obtain ⟨asserted, bumped⟩ :=
    stages.bumpGateway new possible (stages.addressed_later later addressed) may
  refine ⟨asserted, ?_⟩
  intro count after ran possible
  have addressed := bumped count after ran
  refine stages.quietCall (record_along _ (fun _ quiet => quiet)) possible ?_
  intro _ now later possible
  have addressed := stages.addressed_later later addressed
  refine stages.quietly rfl ?_
  intro createdAt now after _ _ _ later _ last later' _
  have addressed := stages.addressed_later later' (stages.addressed_later later addressed)
  exact ⟨row, host, new, new.id.symm, rfl, addressed⟩

/-- A creation is as the contract asks when its stages are. -/
theorem create_keeps (stages : Stages contract call draw userId req)
    : (SessionService.create draw userId userEmail req).Keeps contract call stages.Provisioned db := by
  unfold SessionService.create
  refine stages.quietly rfl ?_
  rintro (_ | ⟨_, wgPub, revoked⟩) _ db _ _ _ _ possible
  · trivial
  dsimp only
  split
  · trivial
  refine stages.quietCall ?_ possible ?_
  · exact Program.Along.request rfl (fun _ _ => trivial) (fun _ _ => trivial)
  rintro (_ | network) db _ possible
  · trivial
  refine stages.quietly rfl ?_
  rintro (_ | ⟨gatewayId, gwPub, gwEndpoint, version⟩) _ db _ _ _ _ possible
  · trivial
  refine stages.quietly rfl ?_
  intro groups _ db _ _ _ _ possible
  refine stages.quietly rfl ?_
  intro policies _ db _ _ _ _ possible
  refine stages.quietCall (attachPolicyMeta_along _ (fun _ quiet => quiet)) possible ?_
  intro decision db _ possible
  split
  · refine stages.quietly rfl ?_
    intro now _ db _ _ _ _ possible
    refine Program.Keeps.request ?_
    intro db _ possible may
    have new : NewSession draw userId req {
        id := draw.sessionId
        userId
        deviceId := req.deviceId
        gatewayId
        networkId := req.networkId
        policyId := decision.policyId
        policyVersion := decision.policyVersion
        assignedIp := placeholderAddress
        status := .active
        createdAt := now
        expiresAt := now + seconds (decision.sessionDurationSecs.getD (8 * 3600))
      } := ⟨rfl, rfl, rfl, rfl, rfl, rfl⟩
    obtain ⟨asserted, inserted⟩ := stages.insertSession new possible may
    refine ⟨asserted, ?_⟩
    intro _ after ran possible
    exact stages.provision_keeps new possible (inserted () after ran)
  · refine stages.quietCall (record_along _ (fun _ quiet => quiet)) possible ?_
    intro _ _ _ _
    trivial

end Stages

end WslVpn
