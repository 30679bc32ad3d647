import WslVpn.Control.Creation

/-! Peers inside the network that they are served with. A peer belongs to the network of its
session for ever, while the gateway that serves it may be enrolled on another network.
-/

namespace WslVpn

open AddressSpace Interleaving

/-- Every session of that identifier is of a network inside the given one. -/
def Db.Covers (db : Db) (sessionId : Uuid) (networkId : Option Uuid) : Prop :=
  ∀ session ∈ db.sessions, session.id = sessionId → ∀ id own current,
    networkId = some id → db.networkAt session.networkId = some own
      → db.networkAt id = some current → own.cidr.Subset current.cidr

/-- The network of the session gives room for blocks of 32 bits. -/
def Db.RoomFor (db : Db) (sessionId : Uuid) : Prop :=
  ∀ session ∈ db.sessions, session.id = sessionId → ∀ own,
    db.networkAt session.networkId = some own → own.cidr.Roomy

/-- The statement moves no peer out of the network that it is served with. A peer that will be
served has a block of 32 bits of its session's network, and goes to a gateway that is still on that
network, or on a wider one; and a gateway with served peers moves to such a network only.
-/
def staysInside : Statement → Db → Prop
  | .insertPeer row, db =>
      db.sessionActive row.sessionId = true → db.now < row.expiresAt →
        db.RoomFor row.sessionId
        ∧ ∀ gateway ∈ db.gateways, gateway.id = row.gatewayId
            → db.Covers row.sessionId gateway.networkId
  | .upsertGateway row, db =>
      ∀ stored ∈ db.gateways, stored.name = row.name →
        (Db.reenrolled row stored).networkId ≠ stored.networkId →
          ∀ peer ∈ db.servedPeers stored.id,
            db.Covers peer.sessionId (Db.reenrolled row stored).networkId
  | _, _ => True

/-- The peer has addresses of its session's network. -/
def Db.Houses (db : Db) (peer : PeerRow) : Prop :=
  ∃ session ∈ db.sessions, session.id = peer.sessionId
    ∧ ∃ network, db.networkAt session.networkId = some network
      ∧ ∀ block ∈ peer.allowedIps, block.Subset network.cidr

/-- Served peers belong to the network of their session, and to that of their gateway. -/
structure Contained (db : Db) : Prop where
  gatewayNetworks
    : ∀ gateway ∈ db.gateways, ∀ id, gateway.networkId = some id
        → ∃ network, db.networkAt id = some network
  sessionNetworks
    : ∀ session ∈ db.sessions, ∃ network, db.networkAt session.networkId = some network
  peerGateways : ∀ peer ∈ db.wireguardPeers, db.hasGateway peer.gatewayId = true
  peerSessions : ∀ peer ∈ db.wireguardPeers, db.hasSession peer.sessionId = true
  served
    : ∀ gateway ∈ db.gateways, ∀ peer ∈ db.servedPeers gateway.id,
        db.Houses peer ∧ db.Covers peer.sessionId gateway.networkId

/-- What the others leave in place: sessions keep their networks, and networks their rows. -/
structure KeepsNetworks (before after : Db) : Prop where
  sessions
    : ∀ session ∈ before.sessions, ∃ new ∈ after.sessions,
        new.id = session.id ∧ new.networkId = session.networkId
  networks
    : ∀ id network, before.networkAt id = some network → after.networkAt id = some network

/-- A peer goes with hosts of its session's network. No user is deleted in these runs. -/
def ownNetwork : Statement → Db → Prop
  | .insertPeer row, db =>
      ∃ session ∈ db.sessions, session.id = row.sessionId
        ∧ ∀ block ∈ row.allowedIps, HostOf session.networkId block db
  | .deleteUser _, _ => False
  | _, _ => True

section Step

variable {statement : Statement} {db after : Db} {reply : statement.Reply}

theorem ownNetwork.kept (own : ownNetwork statement db) (user : Uuid)
    : statement ≠ .deleteUser user := by
  rintro rfl
  exact own

theorem exec_keepsNetworks (ran : statement.exec db = .ok (reply, after))
    (kept : ∀ user, statement ≠ .deleteUser user)
    : KeepsNetworks db after where
  sessions := by
    intro session there
    obtain ⟨new, member, ages⟩ := Statement.session_after ran kept there
    exact ⟨new, member, ages.id, ages.networkId⟩
  networks := fun _ _ stored => Statement.network_after ran stored

/-- Inclusion of networks outlasts a statement, for a session and a network that exist. -/
theorem Db.Covers.outlasts {sessionId : Uuid} {networkId : Option Uuid}
    (covers : db.Covers sessionId networkId) (ran : statement.exec db = .ok (reply, after))
    (kept : ∀ user, statement ≠ .deleteUser user) (contained : Contained db)
    (known : db.hasSession sessionId = true)
    (network : ∀ id, networkId = some id → ∃ network, db.networkAt id = some network)
    : after.Covers sessionId networkId := by
  intro session there same id own current isCurrent ownRow currentRow
  rcases Statement.session_before ran kept there with ⟨old, member, ages⟩ | ⟨row, rfl, rfl⟩
  · obtain ⟨own', ownBefore⟩ := contained.sessionNetworks old member
    obtain ⟨current', currentBefore⟩ := network id isCurrent
    rw [ages.networkId, Statement.network_after ran ownBefore] at ownRow
    rw [Statement.network_after ran currentBefore] at currentRow
    cases ownRow
    cases currentRow
    exact covers old member (ages.id.symm.trans same) id own current isCurrent ownBefore
      currentBefore
  · have unused := (Statement.insertSession_ok ran).1
    rw [← same] at known
    rw [unused] at known
    cases known

/-- Networks are where they were, for a peer and its session. -/
theorem Db.Houses.outlasts {peer : PeerRow} (houses : db.Houses peer)
    (keeps : KeepsNetworks db after)
    : after.Houses peer := by
  obtain ⟨session, member, same, network, stored, blocks⟩ := houses
  obtain ⟨new, newMember, newId, newNetwork⟩ := keeps.sessions session member
  refine ⟨new, newMember, newId.trans same, network, ?_, blocks⟩
  rw [newNetwork]
  exact keeps.networks _ _ stored

/-- A peer that is served after a statement was served before it, or has been inserted. -/
theorem served_before {gatewayId : Uuid} {peer : PeerRow}
    (ran : statement.exec db = .ok (reply, after))
    (known : ∀ peer ∈ db.wireguardPeers, db.hasSession peer.sessionId = true)
    (there : peer ∈ after.servedPeers gatewayId)
    : peer ∈ db.servedPeers gatewayId
      ∨ ∃ row, statement = .insertPeer row ∧ row.gatewayId = gatewayId
          ∧ peer = { row with allowedIps := row.allowedIps.map IpNetwork.canonical }
          ∧ db.sessionActive row.sessionId = true ∧ db.now < row.expiresAt := by
  simp only [Db.servedPeers, List.mem_filter, Bool.and_eq_true, beq_iff_eq,
    decide_eq_true_eq] at there
  obtain ⟨member, ⟨onGateway, active⟩, lasting⟩ := there
  rw [(Statement.exec_effect ran).now] at lasting
  rcases Statement.peer_before ran member with old | ⟨row, rfl, rfl⟩
  · refine Or.inl ?_
    simp only [Db.servedPeers, List.mem_filter, Bool.and_eq_true, beq_iff_eq, decide_eq_true_eq]
    exact ⟨old, ⟨onGateway, Statement.active_before ran (known peer old) active⟩, lasting⟩
  · have guards := (Statement.insertPeer_ok ran).1
    exact Or.inr
      ⟨row, rfl, onGateway, rfl, Statement.active_before ran guards.1 active, lasting⟩

/-- The network that a gateway names after an enrolment exists. -/
theorem Contained.reenrolledNetwork (contained : Contained db) {row stored : GatewayRow}
    (known : Db.optionally db.hasNetwork row.networkId = true) (there : stored ∈ db.gateways)
    (id : Uuid) (named : (Db.reenrolled row stored).networkId = some id)
    : ∃ network, db.networkAt id = some network := by
  rcases Option.or_eq_some_iff.mp named with asked | ⟨_, kept⟩
  · exact optionally_networkAt known id asked
  · exact contained.gatewayNetworks stored there id kept

/-- A peer served by a gateway that keeps its network, before a statement and after it. -/
theorem Contained.stillServed (contained : Contained db) (inside : staysInside statement db)
    (own : ownNetwork statement db) (ran : statement.exec db = .ok (reply, after))
    {gateway : GatewayRow} (there : gateway ∈ db.gateways) {peer : PeerRow}
    (served : peer ∈ after.servedPeers gateway.id)
    : after.Houses peer ∧ after.Covers peer.sessionId gateway.networkId := by
  have keeps := exec_keepsNetworks ran own.kept
  have networks := contained.gatewayNetworks gateway there
  rcases served_before ran contained.peerSessions served with
    before | ⟨row, rfl, onGateway, rfl, active, lasting⟩
  · have known := contained.peerSessions peer (List.mem_filter.mp before).1
    obtain ⟨houses, covers⟩ := contained.served gateway there peer before
    exact ⟨houses.outlasts keeps, covers.outlasts ran own.kept contained known networks⟩
  · have known := (Statement.insertPeer_ok ran).1.1
    obtain ⟨room, covers⟩ := inside active lasting
    refine ⟨?_, (covers gateway there onGateway.symm).outlasts ran own.kept contained known networks⟩
    obtain ⟨session, member, same, hosts⟩ := own
    obtain ⟨network, stored⟩ := contained.sessionNetworks session member
    refine Db.Houses.outlasts ⟨session, member, same, network, stored, ?_⟩ keeps
    intro block listed
    obtain ⟨block, written, rfl⟩ := List.mem_map.mp listed
    obtain ⟨network', addr, stored', inNetwork, _, made⟩ := hosts block written
    cases stored.symm.trans stored'
    exact block.canonical_subset.trans
      (IpNetwork.subset_of_roomy (room session member same network stored) inNetwork made)

/-- Each statement keeps the peers inside, by what it does to each table. -/
theorem Contained.step (contained : Contained db) (inside : staysInside statement db)
    (own : ownNetwork statement db) (ran : statement.exec db = .ok (reply, after))
    : Contained after := by
  have keeps := exec_keepsNetworks ran own.kept
  have stays : ∀ {id}, (∃ network, db.networkAt id = some network)
      → ∃ network, after.networkAt id = some network := by
    intro id given
    obtain ⟨network, stored⟩ := given
    exact ⟨network, keeps.networks id network stored⟩
  have known : ∀ sessionId, db.hasSession sessionId = true → after.hasSession sessionId = true :=
    fun sessionId there => (Statement.hasSession_exec ran own.kept sessionId).mpr (Or.inl there)
  refine ⟨?gatewayNetworks, ?sessionNetworks, ?peerGateways, ?peerSessions, ?served⟩
  case gatewayNetworks =>
    intro gateway there id named
    rcases Statement.gateway_before ran there with
      ⟨old, member, _, same⟩ | ⟨row, old, member, rfl, _, rfl⟩ | ⟨row, rfl, rfl, _⟩
    · exact stays (contained.gatewayNetworks old member id (same.symm.trans named))
    · have known := (Statement.upsertGateway_ok ran).1
      exact stays (contained.reenrolledNetwork known member id named)
    · exact stays (optionally_networkAt (Statement.upsertGateway_ok ran).1 id named)
  case sessionNetworks =>
    intro session there
    rcases Statement.session_before ran own.kept there with ⟨old, member, ages⟩ | ⟨row, rfl, rfl⟩
    · rw [ages.networkId]
      exact stays (contained.sessionNetworks old member)
    · have known := (Statement.insertSession_ok ran).2.1.2.2.2
      exact stays (@optionally_networkAt db (some row.networkId) known _ rfl)
  case peerGateways =>
    intro peer there
    rcases Statement.peer_before ran there with old | ⟨row, rfl, rfl⟩
    · exact Statement.hasGateway_after ran (contained.peerGateways peer old)
    · exact Statement.hasGateway_after ran (Statement.insertPeer_ok ran).1.2
  case peerSessions =>
    intro peer there
    rcases Statement.peer_before ran there with old | ⟨row, rfl, rfl⟩
    · exact known _ (contained.peerSessions peer old)
    · exact known _ (Statement.insertPeer_ok ran).1.1
  case served =>
    intro gateway there peer served
    rcases Statement.gateway_before ran there with
      ⟨old, member, same, network⟩ | ⟨row, old, member, rfl, named, rfl⟩ | ⟨row, rfl, rfl, unused⟩
    · rw [same] at served
      rw [network]
      exact contained.stillServed inside own ran member served
    · by_cases moved : (Db.reenrolled row old).networkId = old.networkId
      · rw [moved]
        exact contained.stillServed inside own ran member served
      · rcases served_before ran contained.peerSessions served with
          before | ⟨_, ⟨⟩, _⟩
        have known := contained.peerSessions peer (List.mem_filter.mp before).1
        have networks := contained.reenrolledNetwork (Statement.upsertGateway_ok ran).1 member
        exact ⟨(contained.served old member peer before).1.outlasts keeps,
          (inside old member named moved peer before).outlasts ran own.kept contained known networks⟩
    · rcases served_before ran contained.peerSessions served with before | ⟨_, ⟨⟩, _⟩
      simp only [Db.servedPeers, List.mem_filter, Bool.and_eq_true, beq_iff_eq] at before
      have known := contained.peerGateways peer before.1
      rw [before.2.1.1, unused] at known
      cases known

end Step

-----------------------------------------------------------------------------------------
-- The requests keep to their own network
-----------------------------------------------------------------------------------------

theorem KeepsNetworks.refl (db : Db) : KeepsNetworks db db where
  sessions := fun session there => ⟨session, there, rfl, rfl⟩
  networks := fun _ _ stored => stored

theorem KeepsNetworks.trans {first second third : Db} (left : KeepsNetworks first second)
    (right : KeepsNetworks second third)
    : KeepsNetworks first third where
  sessions := by
    intro session there
    obtain ⟨middle, between, id, network⟩ := left.sessions session there
    obtain ⟨new, member, id', network'⟩ := right.sessions middle between
    exact ⟨new, member, id'.trans id, network'.trans network⟩
  networks := fun id network stored => right.networks id network (left.networks id network stored)

/-- Every call adds peers with addresses of their session's network only. -/
def containment : Contract sql where
  possible := Contained
  later := fun _ => KeepsNetworks
  may := staysInside
  mayLose := fun _ _ => True
  asserts := fun _ => ownNetwork
  later_refl := fun _ => KeepsNetworks.refl
  later_trans := KeepsNetworks.trans
  exec_sound := by
    intro call op state reply after contained inside own ran
    exact ⟨contained.step inside own ran, fun _ _ => exec_keepsNetworks ran own.kept⟩

/-- The session is in place, on that network. -/
def OnNetwork (sessionId networkId : Uuid) (db : Db) : Prop :=
  ∃ session ∈ db.sessions, session.id = sessionId ∧ session.networkId = networkId

/-- The session is in place, on a network that may hand out the host. -/
def AtHost (sessionId networkId : Uuid) (host : IpNetwork) (db : Db) : Prop :=
  OnNetwork sessionId networkId db ∧ HostOf networkId host db

section Creation

variable {call : Nat} {sessionId networkId : Uuid} {host : IpNetwork} {db now : Db}

theorem OnNetwork.later (keeps : KeepsNetworks db now) (on : OnNetwork sessionId networkId db)
    : OnNetwork sessionId networkId now := by
  obtain ⟨session, there, same, network⟩ := on
  obtain ⟨new, member, newId, newNetwork⟩ := keeps.sessions session there
  exact ⟨new, member, newId.trans same, newNetwork.trans network⟩

theorem AtHost.later (keeps : KeepsNetworks db now) (atHost : AtHost sessionId networkId host db)
    : AtHost sessionId networkId host now := by
  obtain ⟨on, network, addr, stored, handed⟩ := atHost
  exact ⟨on.later keeps, network, addr, keeps.networks networkId network stored, handed⟩

/-- A peer with the host address of its session. -/
theorem AtHost.own {session : SessionRow} {row : PeerRow}
    (atHost : AtHost session.id session.networkId host db) (peer : NewPeer session host row)
    : ownNetwork (.insertPeer row) db := by
  obtain ⟨⟨stored, there, same, onNetwork⟩, handed⟩ := atHost
  refine ⟨stored, there, same.trans peer.sessionId.symm, ?_⟩
  intro block listed
  rw [peer.allowedIps] at listed
  cases List.mem_singleton.mp listed
  rw [onNetwork]
  exact handed

/-- The stages of a creation: its session stays on the network, whose address it gets. -/
def creationStages (call : Nat) (draw : SessionService.Draw) (userId : Uuid)
    (req : CreateSessionRequest) : Stages containment call draw userId req where
  inserted := fun session => OnNetwork session.id session.networkId
  allocated := fun session host => AtHost session.id session.networkId host
  addressed := fun session host => AtHost session.id session.networkId host
  inserted_later := OnNetwork.later
  allocated_later := AtHost.later
  addressed_later := AtHost.later
  network_later := fun keeps stored => keeps.networks _ _ stored
  quiet := by
    intro statement db quiet _
    have own : ownNetwork statement db := by
      cases statement <;> trivial
    exact ⟨own, fun _ _ ran => exec_keepsNetworks ran own.kept⟩
  insertSession := by
    intro session db _ _ _
    refine ⟨trivial, ?_⟩
    intro _ after ran
    obtain ⟨_, _, rfl⟩ := Statement.insertSession_ok ran
    exact ⟨_, List.mem_append_right _ List.mem_cons_self, rfl, rfl⟩
  insertAllocation := by
    intro session host db new contained on handed _
    refine ⟨trivial, fun _ after ran => AtHost.later (exec_keepsNetworks ran (by rintro _ ⟨⟩)) ?_⟩
    rw [← new.networkId] at handed
    exact ⟨on, handed⟩
  updateAddress := fun _ _ atHost _ =>
    ⟨trivial, fun _ _ ran => atHost.later (exec_keepsNetworks ran (by rintro _ ⟨⟩))⟩
  insertPeer := fun _ peer _ atHost _ =>
    ⟨atHost.own peer, fun _ _ ran => atHost.later (exec_keepsNetworks ran (by rintro _ ⟨⟩))⟩
  bumpGateway := fun _ _ atHost _ =>
    ⟨trivial, fun _ _ ran => atHost.later (exec_keepsNetworks ran (by rintro _ ⟨⟩))⟩

end Creation

/-- Only a creation inserts peers, and only the deletion of a user deletes one. -/
theorem ownNetwork_of_issues {request : Request} {statement : Statement} {db : Db}
    (creates : ∀ draw userId userEmail req, request ≠ .createSession draw userId userEmail req)
    (deletes : ∀ id, request ≠ .deleteUser id) (issued : request.issues statement)
    : ownNetwork statement db := by
  cases statement with
  | insertPeer row =>
      obtain ⟨draw, userId, userEmail, req, same, _⟩ := Request.issues_creation rfl issued
      exact absurd same (creates draw userId userEmail req)
  | deleteUser id => exact absurd (Request.issues_deleteUser issued) (deletes id)
  | _ => trivial

/-- Every request but the deletion of a user keeps to the contract, by cases on the request. -/
theorem call_keeps {state : AppState} {request : Request} {call : Nat} {db : Db}
    (deletes : ∀ id, request ≠ .deleteUser id) (contained : Contained db)
    : (request.call state).Keeps containment call (fun _ _ => True) db := by
  have others
      : (∀ draw userId userEmail req, request ≠ .createSession draw userId userEmail req)
        → (request.call state).Keeps containment call (fun _ _ => True) db := by
    intro creates
    refine request.call_along.keeps (fun _ _ _ _ => trivial) ?_ trivial
    intro statement now issued _ _ _
    exact ⟨ownNetwork_of_issues creates deletes issued, fun _ _ _ => trivial⟩
  cases request with
  | createSession draw userId userEmail req =>
      refine Program.Keeps.bind contained ((creationStages call draw userId req).create_keeps) ?_
      exact fun _ _ _ _ _ _ _ => trivial
  | _ => exact others (by rintro _ _ _ _ ⟨⟩)

/-- The clock only ends leases. -/
theorem Contained.elapse {db : Db} (contained : Contained db) (passed : Nat)
    : Contained (elapse passed db) where
  gatewayNetworks := contained.gatewayNetworks
  sessionNetworks := contained.sessionNetworks
  peerGateways := contained.peerGateways
  peerSessions := contained.peerSessions
  served := by
    intro gateway there peer served
    refine contained.served gateway there peer ?_
    simp only [Db.servedPeers, List.mem_filter, Bool.and_eq_true, beq_iff_eq,
      decide_eq_true_eq] at served ⊢
    obtain ⟨member, onGateway, lasting⟩ := served
    have passes : db.now ≤ db.now + passed := Int.le_add_of_nonneg_right (Int.natCast_nonneg passed)
    exact ⟨member, onGateway, lt_of_le_of_lt passes lasting⟩

-----------------------------------------------------------------------------------------
-- The configuration that is served
-----------------------------------------------------------------------------------------

/-- What a gateway is served in this state. -/
def servedConfig (state : AppState) (id : Uuid) (db : Db) : Except AppError GatewayConfig :=
  ((GatewayService.config state id).execute (fun _ db => db) (fun _ => false) 0 db).1

/-- The database after the sweep that a configuration begins with. -/
def Db.swept (db : Db) (id : Uuid) : Db := {
  db.expireSessions id with
  wireguardPeers := deleteWhere (db.expiredPeer id) db.wireguardPeers
}

/-- The peers are those that are left after the sweep, and the range is the gateway's network. -/
theorem servedConfig_ok {state : AppState} {id : Uuid} {db : Db} {config : GatewayConfig}
    (served : servedConfig state id db = .ok config)
    : ∃ gateway ∈ db.gateways, gateway.id = id
        ∧ ∃ networkId network, gateway.networkId = some networkId
          ∧ db.networkAt networkId = some network
          ∧ config.privateNetworkCidr = networkText network.cidr
          ∧ config.peers = ((db.swept id).servedPeers id).map servedPeer := by
  unfold servedConfig GatewayService.config GatewayService.get at served
  rw [Program.bind_assoc, execute_query_answered rfl rfl] at served
  cases found : db.gateways.find? (·.id == id) with
  | none =>
      rw [found] at served
      cases served
  | some gateway =>
      have there := List.mem_of_find?_eq_some found
      have same : gateway.id = id := by simpa using List.find?_some found
      rw [found] at served
      cases assigned : gateway.networkId with
      | none =>
          simp only [Option.map_some, Program.pure_eq, Program.bind_done_ok, mapGw,
            assigned] at served
          cases served
      | some networkId =>
          simp only [Option.map_some, Program.pure_eq, Program.bind_done_ok, mapGw,
            assigned] at served
          unfold GatewayService.configOf at served
          rw [execute_query_answered rfl rfl] at served
          cases stored : db.networkAt networkId with
          | none =>
              rw [Db.networkAt] at stored
              rw [stored] at served
              cases served
          | some network =>
              refine ⟨gateway, there, same, networkId, network, assigned, stored, ?_⟩
              rw [Db.networkAt] at stored
              rw [stored] at served
              cases served
              exact ⟨rfl, rfl⟩

/-- Peers inside the range of the configuration that they are served with. -/
def InsideRange (config : GatewayConfig) : Prop :=
  ∀ peer ∈ config.peers, ∀ text ∈ peer.allowedIps,
    ∃ block cidr, parseNetwork text = some block
      ∧ parseNetwork config.privateNetworkCidr = some cidr ∧ block.Subset cidr

/-- The sweep is two statements of a kind that moves nothing out. -/
theorem Contained.swept {id : Uuid} {db : Db} (contained : Contained db)
    : Contained (db.swept id) := by
  have expired : Contained (db.expireSessions id) :=
    @Contained.step (.expireSessions id) _ _ _ contained trivial trivial rfl
  exact @Contained.step (.deleteExpiredPeers id) _ _ _ expired trivial trivial rfl

theorem Contained.insideRange {state : AppState} {id : Uuid} {db : Db} {config : GatewayConfig}
    (contained : Contained db) (served : servedConfig state id db = .ok config)
    : InsideRange config := by
  obtain ⟨gateway, there, same, networkId, network, assigned, stored, range, peers⟩ :=
    servedConfig_ok served
  intro peer listed text written
  rw [peers] at listed
  obtain ⟨row, served, rfl⟩ := List.mem_map.mp listed
  obtain ⟨block, allowed, rfl⟩ := List.mem_map.mp written
  rw [← same] at served
  obtain ⟨houses, covers⟩ := contained.swept.served gateway there row served
  obtain ⟨session, member, ofPeer, own, ownStored, blocks⟩ := houses
  refine ⟨block, network.cidr, parseNetwork_networkText block, ?_, ?_⟩
  · rw [range, parseNetwork_networkText]
  · have wider := covers session member ofPeer networkId own network assigned ownStored stored
    exact (blocks block allowed).trans wider

/-- An installation before its first session, in which the references to networks hold. -/
structure BeforeSessions (db : Db) : Prop where
  sessions : db.sessions = []
  peers : db.wireguardPeers = []
  gatewayNetworks
    : ∀ gateway ∈ db.gateways, Db.optionally db.hasNetwork gateway.networkId = true

theorem BeforeSessions.contained {db : Db} (before : BeforeSessions db) : Contained db where
  gatewayNetworks := fun gateway there id named =>
    optionally_networkAt (before.gatewayNetworks gateway there) id named
  sessionNetworks := by simp [before.sessions]
  peerGateways := by simp [before.peers]
  peerSessions := by simp [before.peers]
  served := by simp [Db.servedPeers, before.peers]

/-- The turn runs no statement that moves a peer out of the network that it is served with. -/
def StaysInside (plane : ControlPlane) (turn : Turn) : Prop :=
  ∀ call statement, turn = .run call → plane.Runs call statement → staysInside statement plane.state

/-- In every run whose statements stay inside, every configuration that can be served lists only
peers inside its range.
-/
theorem served_inside_range {state : AppState} {requests : List Request} {db : Db}
    {turns : List Turn} {id : Uuid} {config : GatewayConfig} (before : BeforeSessions db)
    (deletes : ∀ id, .deleteUser id ∉ requests)
    (inside : (ControlPlane.start state requests db).Obeys StaysInside turns)
    (served
      : servedConfig state id ((ControlPlane.start state requests db).after turns).state
        = .ok config)
    : InsideRange config := by
  have start : (ControlPlane.start state requests db).Kept containment (fun _ _ _ => True) := by
    refine ⟨before.contained, ?_⟩
    intro call program found
    rw [ControlPlane.start_calls] at found
    obtain ⟨request, made, rfl⟩ := Option.map_eq_some_iff.mp found
    refine call_keeps ?_ before.contained
    rintro id rfl
    exact deletes id (List.mem_of_getElem? made)
  have admits : (ControlPlane.start state requests db).Meets elapse
      (System.Admits containment) turns := by
    refine System.Meets.weaken elapse ?_ inside
    rintro plane (call | call | change) meets
    · intro statement next issued
      exact meets call statement rfl (ControlPlane.runs_of_issued issued)
    · exact fun _ _ _ => trivial
    · trivial
  have surroundings : ∀ passed db, Contained db
      → Contained (elapse passed db) ∧ ∀ _ : Nat, KeepsNetworks db (elapse passed db) := by
    intro passed db contained
    refine ⟨contained.elapse passed, fun _ => ⟨?_, fun _ _ stored => stored⟩⟩
    exact fun session there => ⟨session, there, rfl, rfl⟩
  exact (start.run surroundings admits).possible.insideRange served

/-- The small installation with a second network. -/
def twoNetworks : Db := {
  smallInstallation with
  networks := smallInstallation.networks
    ++ [⟨8, "annex", .v4 ⟨BitVec.ofNat 32 0x0A090000, 24, slash24⟩, [], []⟩]
}

/-- One session and one enrolment of the gateway that has it. -/
def sessionAndEnrolment (networkId : Uuid) : List Request :=
  [.createSession ⟨6, 7⟩ 1 "ada@example.com" ⟨3, 2, []⟩,
    .registerGateway ⟨9, "credential"⟩ ⟨"gw", "gateway-key", "vpn:51820", some networkId, "enrol"⟩
      none]

/-- A session on a gateway that stays on its network: its peer is served and inside. -/
theorem served_inside_range_staying
    : ∃ config, servedConfig smallState 4
        ((ControlPlane.start smallState (sessionAndEnrolment 3) twoNetworks).after
          (List.replicate 17 (.run 0))).state = .ok config
        ∧ config.peers ≠ [] ∧ InsideRange config := by
  have before : BeforeSessions twoNetworks := by
    refine ⟨rfl, rfl, ?_⟩
    intro gateway there
    obtain rfl := List.mem_singleton.mp there
    rfl
  have deletes : ∀ id, .deleteUser id ∉ sessionAndEnrolment 3 := by simp [sessionAndEnrolment]
  have inside : (ControlPlane.start smallState (sessionAndEnrolment 3) twoNetworks).Obeys
      StaysInside
      (List.replicate 17 (.run 0)) := by
    -- Only the insert of the peer has anything to check.
    refine ⟨?_, ?_, ?_, ?_, ?_, ?_, ?_, ?_, ?_, ?_, ?_, ?_, ?_, ?peer, ?_, ?_, ?_, trivial⟩
    case peer =>
      rintro call statement ⟨⟩ runs
      cases runs
      intro _ _
      refine ⟨?_, ?_⟩
      · intro session there _ own stored
        obtain rfl := List.mem_singleton.mp there
        cases stored
        trivial
      · intro gateway there _ session here _ id own current named ownRow currentRow
        obtain rfl := List.mem_singleton.mp there
        obtain rfl := List.mem_singleton.mp here
        cases named
        cases ownRow
        cases currentRow
        exact fun _ member => member
    all_goals
      rintro call statement ⟨⟩ runs
      cases runs
      trivial
  obtain ⟨config, served, peers⟩ : ∃ config, servedConfig smallState 4
      ((ControlPlane.start smallState (sessionAndEnrolment 3) twoNetworks).after
        (List.replicate 17 (.run 0))).state = .ok config ∧ config.peers ≠ [] :=
    ⟨_, rfl, List.cons_ne_nil _ _⟩
  exact ⟨config, served, peers, served_inside_range before deletes inside served⟩

/-- A gateway with a session is enrolled on another network, and serves the session's peer with the
range of that network.
-/
theorem served_outside_range
    : ∃ config, servedConfig smallState 4
        ((ControlPlane.start smallState (sessionAndEnrolment 8) twoNetworks).after
          (List.replicate 17 (.run 0) ++ List.replicate 4 (.run 1))).state = .ok config
        ∧ ¬ InsideRange config := by
  refine ⟨_, rfl, ?_⟩
  intro inside
  obtain ⟨block, cidr, parsed, range, subset⟩ := inside _ List.mem_cons_self _ List.mem_cons_self
  have address : block = .v4 (.host (BitVec.ofNat 32 0x0A080102)) :=
    Option.some.inj (parsed.symm.trans (by decide))
  have annex : cidr = .v4 ⟨BitVec.ofNat 32 0x0A090000, 24, by decide⟩ :=
    Option.some.inj (range.symm.trans (by decide))
  subst address annex
  exact absurd (IpNetwork.host_v4_subset.mp subset) (by decide)

end WslVpn
