import WslVpn.Control.Declarations
import WslVpn.Control.Effects

/-! What a gateway is served, and the statements that change it. Some of them are followed by a bump of
the gateway's version in the source; the others change the content of a version silently.
-/

namespace WslVpn

open AddressSpace Interleaving

/-- What a gateway is served, and the network that it is served for. -/
structure Served where
  networkId : Option Uuid
  cidr : Option String
  peers : List GatewayPeer
  routes : List String
  services : List GatewayService
  deriving DecidableEq

/-- What the gateway would be served at this moment. -/
def Db.served (db : Db) (gatewayId : Uuid) : Served :=
  let networkId := (db.gateways.find? (·.id == gatewayId)).bind (·.networkId)
  {
    networkId
    cidr := networkId.bind fun id =>
      ((db.networks.find? (·.id == id)).map (·.cidr)).map networkText
    peers := (db.servedPeers gatewayId).map servedPeer
    routes := networkId.elim [] fun id =>
      ((db.routes.filter (·.networkId == id)).map (·.destination)).map networkText
    services := networkId.elim [] fun id => (db.services id).filterMap servedService
  }

/-- The network that a gateway is on. -/
def Db.networkOf (db : Db) (gatewayId : Uuid) : Option Uuid :=
  (db.gateways.find? (·.id == gatewayId)).bind (·.networkId)

-----------------------------------------------------------------------------------------
-- Statements that change it
-----------------------------------------------------------------------------------------

/-- The table has the service, and has it like this. -/
def Db.HasService (db : Db) (networkId : Uuid) (name : String) (destination : IpNetwork)
    (protocol : String) (ports : List Int) : Prop :=
  (∃ row ∈ db.networkServices, row.networkId = networkId ∧ row.name = name)
  ∧ ∀ row ∈ db.networkServices, row.networkId = networkId → row.name = name
    → row.destination = destination ∧ row.protocol = protocol ∧ row.ports = ports

/-- The statement ends the lease of a peer that has one, or deletes the peer. -/
def Statement.Drops : Statement → Db → PeerRow → Prop
  | .updateSessionRevoked sessionId, _, peer | .deletePeersOfSession sessionId, _, peer =>
      peer.sessionId = sessionId
  | .expireSessions gatewayId, db, peer =>
      ∃ session ∈ db.sessions, session.id = peer.sessionId ∧ db.lapsed gatewayId session = true
  | .deleteUser userId, db, peer =>
      db.hasUser userId = true
      ∧ (goesWithUser db userId peer.sessionId = true ∨ db.ownsDevice userId peer.deviceId = true)
  | _, _, _ => False

/-- The statement, when it is not refused, changes what the gateway is served: the gateway enrols on
another network; its network gets a route or a service that it did not have like this; an active
session gets a peer that has not expired; or such a peer is dropped.
-/
def Statement.Shifts (gatewayId : Uuid) (db : Db) : Statement → Prop
  | .upsertGateway row =>
      ∃ stored ∈ db.gateways.find? (·.id == gatewayId), stored.name = row.name
        ∧ (Db.reenrolled row stored).networkId ≠ stored.networkId
  | .insertRoute networkId destination _ =>
      db.networkOf gatewayId = some networkId
      ∧ ∃ net ∈ db.cidrIn destination,
          ∀ row ∈ db.routes, row.networkId = networkId → row.destination ≠ net
  | .upsertService networkId name destination protocol ports _ =>
      db.networkOf gatewayId = some networkId
      ∧ ∃ net ∈ db.cidrIn destination, ¬ db.HasService networkId name net protocol ports
  | .insertPeer row =>
      row.gatewayId = gatewayId ∧ db.sessionActive row.sessionId = true ∧ db.now < row.expiresAt
  | statement => ∃ peer ∈ db.servedPeers gatewayId, statement.Drops db peer

instance (statement : Statement) (db : Db) (peer : PeerRow) : Decidable (statement.Drops db peer) := by
  cases statement with
  | updateSessionRevoked sessionId | deletePeersOfSession sessionId =>
      exact inferInstanceAs (Decidable (peer.sessionId = sessionId))
  | expireSessions gatewayId =>
      exact inferInstanceAs (Decidable
        (∃ session ∈ db.sessions, session.id = peer.sessionId ∧ db.lapsed gatewayId session = true))
  | deleteUser userId =>
      exact inferInstanceAs (Decidable
        (_ ∧ (_ = true ∨ db.ownsDevice userId peer.deviceId = true)))
  | _ => exact inferInstanceAs (Decidable False)

instance (db : Db) (networkId : Uuid) (name : String) (destination : IpNetwork) (protocol : String)
    (ports : List Int) : Decidable (db.HasService networkId name destination protocol ports) :=
  inferInstanceAs (Decidable (_ ∧ _))

instance (gatewayId : Uuid) (db : Db) (statement : Statement)
    : Decidable (statement.Shifts gatewayId db) := by
  cases statement with
  | upsertGateway row => exact inferInstanceAs (Decidable (∃ stored ∈ _, _ ∧ _ ≠ _))
  | insertRoute | upsertService =>
      exact inferInstanceAs (Decidable (_ = _ ∧ ∃ net ∈ _, _))
  | insertPeer row => exact inferInstanceAs (Decidable (_ = _ ∧ _ = true ∧ db.now < row.expiresAt))
  | _ => exact inferInstanceAs (Decidable (∃ peer ∈ db.servedPeers gatewayId, _))

/-- The bump that the source sends after the statement. -/
def Statement.bump : Statement → Option Statement
  | .insertPeer row => some (.bumpGateway row.gatewayId)
  | .updateSessionRevoked sessionId | .deletePeersOfSession sessionId =>
      some (.bumpGatewaysOfSession sessionId)
  | _ => none

/-- The bump finds the gateway. -/
def Statement.Raises (gatewayId : Uuid) (db : Db) : Statement → Prop
  | .bumpGateway id => id = gatewayId
  | .bumpGatewaysOfSession sessionId =>
      ∃ session ∈ db.sessions, session.id = sessionId ∧ session.gatewayId = gatewayId
  | _ => False

/-- Gateways are on networks that exist, and peers belong to sessions that exist. -/
structure Db.Refers (db : Db) : Prop where
  gatewayNetworks
    : ∀ gateway ∈ db.gateways, ∀ id, gateway.networkId = some id
        → ∃ network, db.networkAt id = some network
  peerSessions : ∀ peer ∈ db.wireguardPeers, db.hasSession peer.sessionId = true

section Statements

variable {statement : Statement} {db after : Db} {reply : statement.Reply} {gatewayId : Uuid}

/-- The foreign keys are kept by every statement. -/
theorem Db.Refers.step (refers : db.Refers) (ran : statement.exec db = .ok (reply, after))
    : after.Refers where
  gatewayNetworks := by
    have stays : ∀ {id}, (∃ network, db.networkAt id = some network)
        → ∃ network, after.networkAt id = some network := by
      intro id given
      obtain ⟨network, stored⟩ := given
      exact ⟨network, Statement.network_after ran stored⟩
    intro gateway there id named
    rcases Statement.gateway_before ran there with
      ⟨old, member, _, same⟩ | ⟨row, old, member, rfl, _, rfl⟩ | ⟨row, rfl, rfl, _⟩
    · exact stays (refers.gatewayNetworks old member id (same.symm.trans named))
    · have known := (Statement.upsertGateway_ok ran).1
      rcases Option.or_eq_some_iff.mp named with asked | ⟨_, kept⟩
      · exact stays (optionally_networkAt known id asked)
      · exact stays (refers.gatewayNetworks old member id kept)
    · exact stays (optionally_networkAt (Statement.upsertGateway_ok ran).1 id named)
  peerSessions := by
    intro peer there
    by_cases deletes : ∃ user, statement = .deleteUser user
    · -- Peers of the deleted sessions are deleted with them.
      obtain ⟨user, rfl⟩ := deletes
      rw [(Statement.exec_effect ran).peers] at there
      rw [Db.hasSession, (Statement.exec_effect ran).sessions]
      simp only [Statement.peersAfter, Statement.sessionsAfter] at there ⊢
      split at there
      · rename_i known
        obtain ⟨member, stays⟩ := mem_deleteWhere.mp there
        obtain ⟨session, stored, same⟩ := List.any_eq_true.mp (refers.peerSessions peer member)
        rw [if_pos known]
        refine List.any_eq_true.mpr ⟨session, mem_deleteWhere.mpr ⟨stored, ?_⟩, same⟩
        by_contra goes
        have goesWith : Statement.goesWithUser db user peer.sessionId = true :=
          List.any_eq_true.mpr ⟨session, stored, by simpa [same] using goes⟩
        simp [goesWith] at stays
      · rename_i unknown
        rw [if_neg unknown]
        exact refers.peerSessions peer there
    · refine (Statement.hasSession_exec ran (fun user same => deletes ⟨user, same⟩) _).mpr
        (Or.inl ?_)
      rcases Statement.peer_before ran there with old | ⟨row, rfl, rfl⟩
      · exact refers.peerSessions peer old
      · exact (Statement.insertPeer_ok ran).1.1

/-- A gateway after a statement: on its network, unless it has enrolled on another one, and at its
version or a later one.
-/
structure GatewayAges (statement : Statement) (gatewayId : Uuid) (db : Db) (old new : GatewayRow)
    : Prop where
  network
    : new.networkId = old.networkId
      ∨ ∃ row, statement = .upsertGateway row ∧ old.name = row.name
          ∧ new.networkId = (Db.reenrolled row old).networkId
  version : old.configVersion ≤ new.configVersion
  raised : statement.Raises gatewayId db → old.configVersion < new.configVersion

/-- A gateway of the same version that the statement does not raise. -/
theorem GatewayAges.level {old new : GatewayRow}
    (network
      : new.networkId = old.networkId
        ∨ ∃ row, statement = .upsertGateway row ∧ old.name = row.name
            ∧ new.networkId = (Db.reenrolled row old).networkId)
    (version : new.configVersion = old.configVersion) (level : ¬ statement.Raises gatewayId db)
    : GatewayAges statement gatewayId db old new :=
  ⟨network, version.ge, fun raises => absurd raises level⟩

/-- A bump matches the gateway when it finds it. -/
theorem GatewayAges.bumped {matching : GatewayRow → Bool} {row : GatewayRow}
    (found : row.id = gatewayId)
    (matches_ : statement.Raises gatewayId db → ∀ row : GatewayRow, row.id = gatewayId
      → matching row = true)
    : GatewayAges statement gatewayId db row
        (if matching row then { row with configVersion := row.configVersion + 1 } else row) := by
  split
  · exact ⟨Or.inl rfl, by simp, fun _ => by simp⟩
  · rename_i other
    exact GatewayAges.level (Or.inl rfl) rfl (fun raises => other (matches_ raises row found))

theorem gateway_after (ran : statement.exec db = .ok (reply, after)) {row : GatewayRow}
    (stored : db.gateways.find? (·.id == gatewayId) = some row)
    : ∃ new, after.gateways.find? (·.id == gatewayId) = some new
        ∧ GatewayAges statement gatewayId db row new := by
  rw [(Statement.exec_effect ran).gateways]
  have found : row.id = gatewayId := by simpa using List.find?_some stored
  -- The updates keep the identifiers, by which the row is sought.
  have updated : ∀ {matching : GatewayRow → Bool} {change : GatewayRow → GatewayRow},
      (∀ row, (change row).id = row.id)
        → (updateWhere matching change db.gateways).find? (·.id == gatewayId)
          = some (if matching row then change row else row) := by
    intro matching change kept
    rw [find?_updateWhere (fun row => by rw [kept]), stored]
    rfl
  cases statement with
  | upsertGateway enrolled =>
      have level : ¬ (Statement.upsertGateway enrolled).Raises gatewayId db := id
      simp only [Statement.gatewaysAfter]
      split
      · refine ⟨_, updated (fun _ => rfl), ?_⟩
        split
        · rename_i same
          exact .level (Or.inr ⟨enrolled, rfl, by simpa using same, rfl⟩) rfl level
        · exact .level (Or.inl rfl) rfl level
      · refine ⟨row, ?_, .level (Or.inl rfl) rfl level⟩
        rw [List.find?_append, stored]
        rfl
  | bumpGateway id =>
      refine ⟨_, updated (fun _ => rfl), ?_⟩
      refine @GatewayAges.bumped _ _ _ (fun row => row.id == id) row found ?_
      rintro rfl row same
      simp [same]
  | bumpGatewaysOfSession sessionId =>
      refine ⟨_, updated (fun _ => rfl), .bumped found ?_⟩
      intro raises row same
      obtain ⟨session, there, named, on⟩ := raises
      exact List.any_eq_true.mpr ⟨session, there, by simp [named, on, same]⟩
  | updateGatewayToken | updateGatewayHeartbeat =>
      refine ⟨_, updated (fun _ => rfl), ?_⟩
      split <;> exact .level (Or.inl rfl) rfl id
  | _ => exact ⟨row, stored, .level (Or.inl rfl) rfl id⟩

/-- Versions do not go down, and the bump that finds the gateway raises its own. -/
theorem versionOf_after (ran : statement.exec db = .ok (reply, after)) {old : Int}
    (stored : db.versionOf gatewayId = some old)
    : ∃ new, after.versionOf gatewayId = some new ∧ old ≤ new
        ∧ (statement.Raises gatewayId db → old < new) := by
  obtain ⟨row, found, rfl⟩ := Option.map_eq_some_iff.mp stored
  obtain ⟨new, there, ages⟩ := gateway_after ran found
  exact ⟨new.configVersion, by rw [Db.versionOf, there]; rfl, ages.version, ages.raised⟩

/-- A gateway that is not moved stays on its network. -/
theorem networkOf_after (ran : statement.exec db = .ok (reply, after))
    (known : db.hasGateway gatewayId = true) (unshifted : ¬ statement.Shifts gatewayId db)
    : after.networkOf gatewayId = db.networkOf gatewayId := by
  cases stored : db.gateways.find? (·.id == gatewayId) with
  | none =>
      obtain ⟨row, there, same⟩ := List.any_eq_true.mp known
      exact absurd same (by simpa using List.find?_eq_none.mp stored row there)
  | some row =>
      obtain ⟨new, found, ages⟩ := gateway_after ran stored
      rw [Db.networkOf, Db.networkOf, found, stored]
      rcases ages.network with same | ⟨enrolled, rfl, named, moved⟩
      · exact same
      · by_contra other
        refine unshifted ⟨row, stored, named, fun same => other ?_⟩
        exact moved.trans same

/-- What a statement leaves of the peers: those that it does not drop are still there, and the ones that
it adds are its own.
-/
theorem peers_after (ran : statement.exec db = .ok (reply, after))
    : ∃ (keeps : PeerRow → Bool) (added : List PeerRow),
        after.wireguardPeers = db.wireguardPeers.filter keeps ++ added
        ∧ (∀ peer, keeps peer = false
            → statement.Drops db peer
              ∨ peer.expiresAt < db.now)
        ∧ ∀ peer ∈ added, ∃ row, statement = .insertPeer row
            ∧ peer = { row with allowedIps := row.allowedIps.map IpNetwork.canonical } := by
  rw [(Statement.exec_effect ran).peers]
  have whole : ∃ (keeps : PeerRow → Bool) (added : List PeerRow),
      db.wireguardPeers = db.wireguardPeers.filter keeps ++ added
        ∧ (∀ peer, keeps peer = false → statement.Drops db peer ∨ peer.expiresAt < db.now)
        ∧ ∀ peer ∈ added, ∃ row, statement = .insertPeer row
            ∧ peer = { row with allowedIps := row.allowedIps.map IpNetwork.canonical } :=
    ⟨fun _ => true, [], by simp, by simp, by simp⟩
  cases statement with
  | insertPeer row =>
      refine ⟨fun _ => true, [_], by rw [List.filter_true]; rfl, by simp, ?_⟩
      intro peer added
      exact ⟨row, rfl, List.mem_singleton.mp added⟩
  | deletePeersOfSession sessionId =>
      refine ⟨_, [], (List.append_nil _).symm, ?_, by simp⟩
      intro peer goes
      rw [Bool.not_eq_false', beq_iff_eq] at goes
      exact Or.inl goes
  | deleteExpiredPeers id =>
      refine ⟨_, [], (List.append_nil _).symm, ?_, by simp⟩
      intro peer goes
      simp only [Db.expiredPeer, Bool.not_eq_false', Bool.and_eq_true, decide_eq_true_eq] at goes
      exact Or.inr goes.2
  | deleteUser user =>
      simp only [Statement.peersAfter]
      split
      · rename_i known
        refine ⟨_, [], (List.append_nil _).symm, ?_, by simp⟩
        intro peer goes
        rw [Bool.not_eq_false', Bool.or_eq_true] at goes
        exact Or.inl ⟨known, goes⟩
      · exact whole
  | _ => exact whole

/-- A served peer is not dropped by a statement that shifts nothing. -/
theorem not_drops_of_unshifted {peer : PeerRow} (unshifted : ¬ statement.Shifts gatewayId db)
    (served : peer ∈ db.servedPeers gatewayId)
    : ¬ statement.Drops db peer := by
  intro drops
  cases statement with
  | updateSessionRevoked | deletePeersOfSession | expireSessions | deleteUser =>
      exact unshifted ⟨peer, served, drops⟩
  | _ => exact drops

/-- The end of a session drops its peer. -/
theorem drops_of_ends {peer : PeerRow} {session : SessionRow} (there : session ∈ db.sessions)
    (same : session.id = peer.sessionId) (ended : statement.Ends db session)
    : statement.Drops db peer := by
  rcases ended with rfl | ⟨gatewayId, rfl, lapsed⟩
  · exact same.symm
  · exact ⟨session, there, same, lapsed⟩

/-- Peers are served until they are dropped, and others are served only when they are inserted. -/
theorem servedPeers_after (refers : db.Refers) (ran : statement.exec db = .ok (reply, after))
    (unshifted : ¬ statement.Shifts gatewayId db)
    : after.servedPeers gatewayId = db.servedPeers gatewayId := by
  obtain ⟨keeps, added, peers, dropped, new⟩ := peers_after ran
  have now := (Statement.exec_effect ran).now
  rw [Db.servedPeers, peers, List.filter_append, List.filter_filter]
  have none : added.filter
      (fun peer => peer.gatewayId == gatewayId && after.sessionActive peer.sessionId
        && decide (after.now < peer.expiresAt)) = [] := by
    refine List.filter_eq_nil_iff.mpr ?_
    intro peer there served
    obtain ⟨row, rfl, rfl⟩ := new peer there
    simp only [Bool.and_eq_true, beq_iff_eq, decide_eq_true_eq, now] at served
    obtain ⟨⟨on, active⟩, lasting⟩ := served
    have known := (Statement.insertPeer_ok ran).1.1
    exact unshifted ⟨on, Statement.active_before ran known active, lasting⟩
  rw [none, List.append_nil]
  refine List.filter_congr ?_
  intro peer there
  rw [Bool.eq_iff_iff]
  simp only [Bool.and_eq_true, beq_iff_eq, decide_eq_true_eq, now]
  constructor
  · rintro ⟨⟨⟨on, active⟩, lasting⟩, _⟩
    exact ⟨⟨on, Statement.active_before ran (refers.peerSessions peer there) active⟩, lasting⟩
  · rintro ⟨⟨on, active⟩, lasting⟩
    have served : peer ∈ db.servedPeers gatewayId := by
      refine List.mem_filter.mpr ⟨there, ?_⟩
      simp [on, active, lasting]
    have stays := not_drops_of_unshifted unshifted served
    refine ⟨⟨⟨on, ?_⟩, lasting⟩, ?_⟩
    · rcases Statement.active_after ran active with
        still | ⟨session, member, same, _, ended⟩ | ⟨user, rfl, known, goes⟩
      · exact still
      · exact absurd (drops_of_ends member same ended) stays
      · exact absurd ⟨known, Or.inl goes⟩ stays
    · by_contra gone
      rcases dropped peer (by simpa using gone) with drops | expired
      · exact stays drops
      · exact absurd lasting (Int.lt_asymm expired)

/-- Routes of the gateway's network are added only. -/
theorem routes_after (ran : statement.exec db = .ok (reply, after))
    (unshifted : ¬ statement.Shifts gatewayId db) {networkId : Uuid}
    (on : db.networkOf gatewayId = some networkId)
    : after.routes.filter (·.networkId == networkId)
      = db.routes.filter (·.networkId == networkId) := by
  cases statement with
  | insertRoute ofNetwork destination description =>
      simp only [Statement.exec, Db.insertRoute] at ran
      split at ran
      · cases ran
      · rename_i net parsed
        split at ran
        · cases ran
          rfl
        · rename_i fresh
          split at ran
          · cases ran
          · cases ran
            rw [List.filter_append, List.filter_cons_of_neg, List.filter_nil, List.append_nil]
            intro same
            rw [beq_iff_eq] at same
            subst same
            refine unshifted ⟨on, net, parsed, ?_⟩
            intro row there ofSame twice
            exact fresh (List.any_eq_true.mpr ⟨row, there, by simp [ofSame, twice]⟩)
  | insertNetwork =>
      obtain ⟨_, _, _, _, rfl⟩ := Statement.insertNetwork_ok ran
      rfl
  | upsertService =>
      simp only [Statement.exec, Db.upsertService] at ran
      repeat' split at ran
      all_goals cases ran <;> rfl
  | _ => rw [(exec_undeclared rfl ran).routes]

/-- A row that takes the place of those with its key, and that is served like them, changes nothing of
the services of a network. Sorting by name does not see the difference.
-/
theorem services_replaced {row : ServiceRow} {networkId : Uuid}
    (alike
      : ∀ old ∈ db.networkServices, old.networkId = networkId → old.networkId = row.networkId
          → old.name = row.name → servedService old = servedService row)
    (services
      : after.networkServices
        = updateWhere (fun other => other.networkId == row.networkId && other.name == row.name)
            (fun _ => row) db.networkServices)
    : (after.services networkId).filterMap servedService
      = (db.services networkId).filterMap servedService := by
  let put (other : ServiceRow) : ServiceRow :=
    if other.networkId == row.networkId && other.name == row.name then row else other
  have key : ∀ other, (put other).networkId = other.networkId ∧ (put other).name = other.name := by
    intro other
    by_cases same : (other.networkId == row.networkId && other.name == row.name) = true
    · simp only [put, same, if_true]
      simp only [Bool.and_eq_true, beq_iff_eq] at same
      exact ⟨same.1.symm, same.2.symm⟩
    · simp only [put, same]
      exact ⟨rfl, rfl⟩
  have sorted : after.services networkId = (db.services networkId).map put := by
    rw [Db.services, Db.services, services, updateWhere, List.filter_map]
    have sameNetwork : ((fun other : ServiceRow => other.networkId == networkId) ∘ put)
        = fun other => other.networkId == networkId := by
      funext other
      simp only [Function.comp, (key other).1]
    change List.insertionSort _ (List.map put (List.filter
      ((fun other : ServiceRow => other.networkId == networkId) ∘ put) _)) = _
    rw [sameNetwork]
    refine (List.map_insertionSort _ _ put _ ?_).symm
    intro left _ right _
    rw [(key left).2, (key right).2]
  rw [sorted, List.filterMap_map]
  refine List.filterMap_congr ?_
  intro other listed
  obtain ⟨there, home⟩ := List.mem_filter.mp ((List.mem_insertionSort _).mp listed)
  by_cases same : (other.networkId == row.networkId && other.name == row.name) = true
  · simp only [Function.comp, put, same, if_true]
    simp only [Bool.and_eq_true, beq_iff_eq] at same
    exact (alike other there (by simpa using home) same.1 same.2).symm
  · simp only [Function.comp, put, same]
    rfl

/-- The service table is that of an insert or of an update by key. -/
theorem upsertService_ok {ofNetwork : Uuid} {name destination protocol : String} {ports : List Int}
    {description : Option String} {reply : Unit}
    (ran : db.upsertService ofNetwork name destination protocol ports description
      = .ok (reply, after))
    : ∃ row : ServiceRow, db.cidrIn destination = some row.destination
        ∧ row.networkId = ofNetwork ∧ row.name = name ∧ row.protocol = protocol ∧ row.ports = ports
        ∧ after.routes = db.routes
        ∧ ((∃ old ∈ db.networkServices, old.networkId = ofNetwork ∧ old.name = name)
              ∧ after.networkServices
                = updateWhere (fun other => other.networkId == ofNetwork && other.name == name)
                    (fun _ => row) db.networkServices
            ∨ (∀ old ∈ db.networkServices, old.networkId = ofNetwork → old.name ≠ name)
              ∧ after.networkServices = db.networkServices ++ [row]) := by
  rw [Db.upsertService] at ran
  split at ran
  · cases ran
  rename_i net parsed
  split at ran
  · split at ran
    · dsimp only at ran
      split at ran
      · rename_i known
        cases ran
        obtain ⟨old, there, same⟩ := List.any_eq_true.mp known
        simp only [Bool.and_eq_true, beq_iff_eq] at same
        exact ⟨_, parsed, rfl, rfl, rfl, rfl, rfl, Or.inl ⟨⟨old, there, same⟩, rfl⟩⟩
      · rename_i fresh
        split at ran
        · cases ran
        · cases ran
          refine ⟨_, parsed, rfl, rfl, rfl, rfl, rfl, Or.inr ⟨?_, rfl⟩⟩
          intro old there home same
          exact fresh (List.any_eq_true.mpr ⟨old, there, by simp [home, same]⟩)
    · cases ran
  · cases ran

/-- Services of the gateway's network stay, or are replaced by others that are served like them. -/
theorem services_after (ran : statement.exec db = .ok (reply, after))
    (unshifted : ¬ statement.Shifts gatewayId db) {networkId : Uuid}
    (on : db.networkOf gatewayId = some networkId)
    : (after.services networkId).filterMap servedService
      = (db.services networkId).filterMap servedService := by
  have unchanged : after.networkServices = db.networkServices →
      (after.services networkId).filterMap servedService
        = (db.services networkId).filterMap servedService := by
    intro same
    rw [Db.services, same]
    rfl
  cases statement with
  | upsertService ofNetwork name destination protocol ports description =>
      obtain ⟨row, parsed, rfl, rfl, rfl, rfl, _, written⟩ := upsertService_ok ran
      have stored : row.networkId = networkId
          → db.HasService row.networkId row.name row.destination row.protocol row.ports := by
        rintro rfl
        by_contra changed
        exact unshifted ⟨on, _, parsed, changed⟩
      rcases written with ⟨_, replaced⟩ | ⟨fresh, added⟩
      · refine services_replaced ?_ replaced
        intro old there own home same
        obtain ⟨destination, protocol, ports⟩ := (stored (home.symm.trans own)).2 old there home same
        simp only [servedService, destination, protocol, ports, same]
      · by_cases own : row.networkId = networkId
        · obtain ⟨old, there, home, same⟩ := (stored own).1
          exact absurd same (fresh old there home)
        · rw [Db.services, added, List.filter_append, List.filter_cons_of_neg (by simpa using own),
            List.filter_nil, List.append_nil]
          rfl
  | insertRoute =>
      refine unchanged ?_
      simp only [Statement.exec, Db.insertRoute] at ran
      repeat' split at ran
      all_goals cases ran <;> rfl
  | insertNetwork =>
      obtain ⟨_, _, _, _, rfl⟩ := Statement.insertNetwork_ok ran
      rfl
  | _ => exact unchanged (exec_undeclared rfl ran).services

/-- A statement that shifts nothing leaves what the gateway is served as it is. -/
theorem served_after (refers : db.Refers) (ran : statement.exec db = .ok (reply, after))
    (known : db.hasGateway gatewayId = true) (unshifted : ¬ statement.Shifts gatewayId db)
    : after.served gatewayId = db.served gatewayId := by
  have network : (after.gateways.find? (·.id == gatewayId)).bind (·.networkId)
      = (db.gateways.find? (·.id == gatewayId)).bind (·.networkId) :=
    networkOf_after ran known unshifted
  rw [Db.served, Db.served, network, servedPeers_after refers ran unshifted]
  cases on : (db.gateways.find? (·.id == gatewayId)).bind (·.networkId) with
  | none => rfl
  | some networkId =>
      obtain ⟨gateway, stored, named⟩ := Option.bind_eq_some_iff.mp on
      obtain ⟨row, found⟩ :=
        refers.gatewayNetworks gateway (List.mem_of_find?_eq_some stored) networkId named
      have same : after.networks.find? (·.id == networkId) = db.networks.find? (·.id == networkId) :=
        (Statement.network_after ran found).trans found.symm
      simp only [Option.bind_some, Option.elim_some, same, routes_after ran unshifted on,
        services_after ran unshifted on]

end Statements

end WslVpn
