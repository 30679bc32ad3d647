import WslVpn.Gateway.Apply
import WslVpn.Gateway.Properties.Convergence

/-! Whether a peer that is no longer desired leaves the interface. The removals come after everything
that may fail because of other peers, and the first failure ends the application.
-/

namespace WslVpn

open AddressSpace

/-- No undesired peer of the interface lies inside the managed range. -/
def NothingToRemove (desired : List GatewayPeer) (live : Interface) (managed : Option IpNetwork)
    : Prop :=
  ∀ peer ∈ live.peers, Undesired desired peer → managed.any (isManaged peer) = false

section Commands

variable {desired : List GatewayPeer} {live : Interface} {managed : Option IpNetwork}
  {publicKey : String}

theorem nothingToRemove_iff
    : NothingToRemove desired live managed ↔ (plan desired live.peers managed).remove = [] := by
  rw [List.eq_nil_iff_forall_not_mem]
  constructor
  · intro nothing key removed
    obtain ⟨peer, there, _, undesired, isManaged⟩ := mem_remove.mp removed
    rw [nothing peer there undesired] at isManaged
    cases isManaged
  · intro empty peer there undesired
    by_contra managed
    exact empty _ (mem_remove.mpr ⟨peer, there, rfl, undesired, by simpa using managed⟩)

/-- Setting peers takes no key off the interface, by induction on the commands. -/
theorem key_stays {commands : List PeerCommand}
    (sets : ∀ command ∈ commands, ∃ publicKey allowed, command = .set publicKey allowed)
    (there : ∃ peer ∈ live.peers, peer.publicKey = publicKey)
    : ∃ peer ∈ (commands.foldl PeerCommand.run live).peers, peer.publicKey = publicKey := by
  induction commands generalizing live with
  | nil => exact there
  | cons command rest ih =>
      refine ih (fun other member => sets other (List.mem_cons_of_mem _ member)) ?_
      obtain ⟨key, allowed, rfl⟩ := sets command List.mem_cons_self
      obtain ⟨peer, peerThere, rfl⟩ := there
      by_cases own : peer.publicKey = key
      · exact ⟨_, Interface.mem_setPeers.mpr (Or.inl rfl), own.symm⟩
      · exact ⟨_, Interface.mem_setPeers.mpr (Or.inr ⟨peer, peerThere, own, rfl⟩), rfl⟩

/-- A command is for a desired peer, or for one that is on the interface. -/
theorem command_publicKey {command : PeerCommand}
    (member : command ∈ (plan desired live.peers managed).commands)
    : (∃ peer ∈ desired, peer.publicKey = command.publicKey)
      ∨ ∃ peer ∈ live.peers, peer.publicKey = command.publicKey := by
  rcases List.mem_append.mp member with set | removal
  · obtain ⟨peer, given, rfl⟩ := List.mem_map.mp set
    exact Or.inl ⟨peer, commanded_desired given, rfl⟩
  · obtain ⟨key, listed, rfl⟩ := List.mem_map.mp removal
    obtain ⟨peer, there, same, _⟩ := mem_remove.mp listed
    exact Or.inr ⟨peer, there, same⟩

end Commands

section Application

variable {cfg : GatewayConfigFile} {clock : Nat → Timestamp} {answers : HostAnswers}
  {config : GatewayConfig} {privateKey : Option String} {host : Host}

/-- Where the application starts and all keys are ones that `wg` takes, the plan is executed. -/
theorem executed_of_usable (starts : Starts cfg clock answers.device config privateKey)
    (read : answers.dump = .exited true)
    (takes : ∀ count key, answers.set count key = .exited (isWireGuardKey key))
    (known : ∀ peer ∈ host.interface.peers, isWireGuardKey peer.publicKey = true)
    (usable : ∀ peer ∈ config.peers, isWireGuardKey peer.publicKey = true)
    : (applyConfig cfg clock answers config privateKey host).2.interface
      = host.interface.execute (plan config.peers host.interface.peers
          (cfg.managedRange config.privateNetworkCidr)) := by
  obtain ⟨reached, _⟩ := @applyConfig_started cfg clock answers config privateKey host starts
  rw [reached, read, livePeers, ← foldl_commands]
  refine runCommands_ok ?_
  obtain ⟨taken, ran⟩ := @runCommands_ran answers.set 0
    (plan config.peers host.interface.peers (cfg.managedRange config.privateNetworkCidr)).commands
    host.interface
  rcases ran.ended with ⟨ok, _⟩ | ⟨_, command, _, found, refused⟩
  · exact ok
  · refine absurd ?_ refused
    rw [takes]
    rcases command_publicKey (List.mem_of_getElem? found)
        with ⟨peer, there, same⟩ | ⟨peer, there, same⟩
    · rw [← same, usable peer there]
    · rw [← same, known peer there]

/-- An application that ends early leaves every peer that was to be removed. -/
theorem stays_of_unusable (starts : Starts cfg clock answers.device config privateKey)
    (read : answers.dump = .exited true)
    (takes : ∀ count key, answers.set count key = .exited (isWireGuardKey key))
    (known : ∀ peer ∈ host.interface.peers, isWireGuardKey peer.publicKey = true)
    {unusable : GatewayPeer} (member : unusable ∈ config.peers)
    (refused : isWireGuardKey unusable.publicKey = false)
    {peer : LivePeer} (there : peer ∈ host.interface.peers)
    : ∃ kept ∈ (applyConfig cfg clock answers config privateKey host).2.interface.peers,
        kept.publicKey = peer.publicKey := by
  obtain ⟨reached, _⟩ := @applyConfig_started cfg clock answers config privateKey host starts
  rw [reached, read, livePeers]
  obtain ⟨taken, ran⟩ := @runCommands_ran answers.set 0
    (plan config.peers host.interface.peers (cfg.managedRange config.privateNetworkCidr)).commands
    host.interface
  rw [ran.reached]
  -- The unusable peer is not on the interface, so it is among those to be set.
  have commanded : unusable ∈ commanded config.peers host.interface.peers := by
    by_contra idle
    obtain ⟨existing, existingThere, same, _⟩ := unchanged_of_not_commanded member idle
    rw [← same, known existing existingThere] at refused
    cases refused
  have failed : (runCommands answers.set 0
      (plan config.peers host.interface.peers (cfg.managedRange config.privateNetworkCidr)).commands
      host.interface).1 ≠ .ok () := by
    intro ok
    rcases ran.ended with ⟨_, rfl⟩ | ⟨error, _, stopped, _⟩
    · obtain ⟨index, found⟩ := List.mem_iff_getElem?.mp
        (List.mem_append_left _ (List.mem_map_of_mem commanded))
      have worked := ran.worked index _ found
      rw [takes, PeerCommand.publicKey, refused] at worked
      cases worked
    · rw [stopped] at ok
      cases ok
  refine key_stays ?_ ⟨peer, there, rfl⟩
  intro command given
  have set := ran.before_refused failed (by
    intro removal removed index
    obtain ⟨key, listed, rfl⟩ := List.mem_map.mp removed
    obtain ⟨live, liveThere, same, _⟩ := mem_remove.mp listed
    rw [takes, PeerCommand.publicKey, ← same, known live liveThere]) command given
  obtain ⟨wanted, _, rfl⟩ := List.mem_map.mp set
  exact ⟨_, _, rfl⟩

/-- Where the peers of the interface are read, and `wg` refuses exactly the keys that are none: no peer
to remove is left when the application returns, exactly when there was none to begin with, or all checks
are passed and every desired peer has a key that `wg` takes.
-/
theorem revocation_isolated_iff (read : answers.dump = .exited true)
    (takes : ∀ count key, answers.set count key = .exited (isWireGuardKey key))
    (known : ∀ peer ∈ host.interface.peers, isWireGuardKey peer.publicKey = true)
    : (∀ publicKey ∈ (plan config.peers host.interface.peers
          (cfg.managedRange config.privateNetworkCidr)).remove,
        ∀ peer ∈ (applyConfig cfg clock answers config privateKey host).2.interface.peers,
          peer.publicKey ≠ publicKey)
      ↔ NothingToRemove config.peers host.interface (cfg.managedRange config.privateNetworkCidr)
        ∨ Starts cfg clock answers.device config privateKey
          ∧ ∀ peer ∈ config.peers, isWireGuardKey peer.publicKey = true := by
  constructor
  · intro gone
    by_cases nothing : NothingToRemove config.peers host.interface
        (cfg.managedRange config.privateNetworkCidr)
    · exact Or.inl nothing
    · obtain ⟨key, removed⟩ := List.exists_mem_of_ne_nil _ (mt nothingToRemove_iff.mpr nothing)
      obtain ⟨peer, there, same, _⟩ := mem_remove.mp removed
      have starts : Starts cfg clock answers.device config privateKey := by
        by_contra idle
        obtain ⟨kept, _⟩ := @applyConfig_idle cfg clock answers config privateKey host idle
        exact gone key removed peer (kept ▸ there) same
      refine Or.inr ⟨starts, ?_⟩
      intro wanted member
      by_contra unusable
      obtain ⟨kept, keptThere, own⟩ := stays_of_unusable starts read takes known member
        (by simpa using unusable) there
      exact gone key removed kept keptThere (own.trans same)
  · rintro (nothing | ⟨starts, usable⟩) key removed peer there same
    · rw [nothingToRemove_iff.mp nothing] at removed
      cases removed
    · rw [executed_of_usable starts read takes known usable] at there
      exact (mem_execute.mp there).2 (same ▸ removed)

end Application

/-- A gateway that manages its interface inside the network that it is served. -/
def managingFile : GatewayConfigFile :=
  ⟨{ interface := "wg0", manageInterface := true, publicKey := none, managedRange := none }⟩

/-- Everything works, and `wg` takes exactly the keys that are ones. -/
def labAnswers : HostAnswers :=
  ⟨.exited true, .exited true, fun _ key => .exited (isWireGuardKey key), .exited true⟩

/-- The peer of a session that has been revoked is still on the interface. -/
def revokedHost : Host where
  interface := {
    peers := [⟨"qqqqqqqqqqqqqqqqqqqqqqqqqqqqqqqqqqqqqqqqqqo=", ["10.8.1.2/32"]⟩]
    keys := by simp
    exclusive := by
      intro left leftThere right rightThere different
      rw [List.mem_singleton.mp leftThere, List.mem_singleton.mp rightThere] at different
      exact absurd rfl different
  }
  device := none
  table := none

theorem revokedHost_known
    : ∀ peer ∈ revokedHost.interface.peers, isWireGuardKey peer.publicKey = true := by
  decide

/-- A peer of another device, with a key that a device may register. -/
def otherPeer (publicKey : String) : GatewayPeer where
  peerId := 9
  publicKey := publicKey
  allowedIps := ["10.8.1.3/32"]
  sessionId := 8
  expiresAt := seconds 3600

/-- Beside a session with a proper key the revoked peer goes. -/
theorem revoked_peer_goes
    : let config := labConfig 2 [otherPeer "wwwwwwwwwwwwwwwwwwwwwwwwwwwwwwwwwwwwwwwwwww="]
      (applyConfig managingFile (fun _ => 0) labAnswers config none revokedHost).2.interface.peers
          = [⟨"wwwwwwwwwwwwwwwwwwwwwwwwwwwwwwwwwwwwwwwwwww=", ["10.8.1.3/32"]⟩]
      ∧ ∀ publicKey ∈ (plan config.peers revokedHost.interface.peers
            (managingFile.managedRange config.privateNetworkCidr)).remove,
          ∀ peer ∈
              (applyConfig managingFile (fun _ => 0) labAnswers config none revokedHost).2.interface.peers,
            peer.publicKey ≠ publicKey := by
  refine ⟨by decide +kernel, ?_⟩
  refine (revocation_isolated_iff rfl (fun _ _ => rfl) revokedHost_known).mpr (Or.inr ⟨?_, ?_⟩)
  · refine ⟨rfl, by decide, ?_, (fun adopts => by cases adopts), fun _ given => absurd rfl given⟩
    rintro (_ | index) peer found
    · cases found
      exact ⟨by decide, by decide, by decide⟩
    · cases found
  · decide

/-- Beside a session whose key is forty letters the revoked peer stays. -/
theorem revoked_peer_stays
    : let config := labConfig 2 [otherPeer "wwwwwwwwwwwwwwwwwwwwwwwwwwwwwwwwwwwwwwww"]
      "qqqqqqqqqqqqqqqqqqqqqqqqqqqqqqqqqqqqqqqqqqo="
          ∈ (plan config.peers revokedHost.interface.peers
              (managingFile.managedRange config.privateNetworkCidr)).remove
      ∧ (applyConfig managingFile (fun _ => 0) labAnswers config none revokedHost).2.interface.peers
          = revokedHost.interface.peers := by
  decide +kernel

end WslVpn
