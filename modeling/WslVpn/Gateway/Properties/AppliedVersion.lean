import WslVpn.Gateway.Main
import WslVpn.Gateway.Properties.RevocationIsolation

/-! What a recorded version stands for. The loop records a version when the application returns without
an error, which it also does when the peers of the interface could not be read, and when the firewall
refused its script.
-/

namespace WslVpn

open AddressSpace Ownership

/-- The peers inside the range are the desired ones with their allowed-ips, and the table is the one of
the configuration.
-/
structure OnTheWire (config : GatewayConfig) (range : IpNetwork) (host : Host) : Prop where
  peers
    : ∀ publicKey slots,
        (∃ peer ∈ host.interface.peers, isManaged peer range = true ∧ peer.publicKey = publicKey
            ∧ allowedSlots peer.allowedIps = slots)
        ↔ ∃ wanted ∈ config.peers, wanted.publicKey = publicKey
            ∧ allowedSlots wanted.allowedIps = slots
  table : host.table = render config.services config.routes (some (networkText range))

/-- What is asked of a configuration, of the host that it meets, and of the commands that read the peers
and load the table.
-/
structure TakesEffect (config : GatewayConfig) (range : IpNetwork) (answers : HostAnswers)
    (host : Host) : Prop where
  /-- The desired peers agree on each key and share no address. -/
  settled : Ledger.Settled (config.peers.map Interface.claim)
  inside
    : ∀ wanted ∈ config.peers, ∀ text ∈ wanted.allowedIps,
        ∃ net, parseNetwork text = some net ∧ net.Subset range
  /-- An undesired peer that is not removed, because it is outside the range or because no peers
  could be read, is not left with addresses inside the range.
  -/
  leftovers
    : ∀ peer ∈ host.interface.peers, Undesired config.peers peer
        → (peer ∈ livePeers answers.dump host.interface → isManaged peer range = false)
        → isManaged (leftOver (commanded config.peers
            (livePeers answers.dump host.interface)) peer) range = false
  loaded
    : answers.nft = .exited true
      ∨ host.table = render config.services config.routes (some (networkText range))

-----------------------------------------------------------------------------------------
-- The peers inside the range
-----------------------------------------------------------------------------------------

section Peers

variable {desired : List GatewayPeer} {view : List LivePeer} {live : Interface} {range : IpNetwork}

/-- Being managed is a matter of what the allowed-ips stand for. -/
theorem isManaged_slots {peer : LivePeer}
    : isManaged peer range = true
      ↔ allowedSlots peer.allowedIps ≠ ∅
        ∧ ∀ slot ∈ allowedSlots peer.allowedIps,
            ∃ net : IpNetwork, slot = .network net ∧ net.Subset range := by
  have nonempty : allowedSlots peer.allowedIps ≠ ∅ ↔ peer.allowedIps ≠ [] := by
    rw [← Set.nonempty_iff_ne_empty]
    constructor
    · intro facts
      obtain ⟨slot, member⟩ := facts
      obtain ⟨text, given, _⟩ := mem_allowedSlots.mp member
      exact List.ne_nil_of_mem given
    · intro given
      obtain ⟨text, member⟩ := List.exists_mem_of_ne_nil _ given
      exact ⟨_, mem_allowedSlots.mpr ⟨text, member, rfl⟩⟩
  have inside : ∀ text, (∃ net : IpNetwork, allowedSlot text = .network net ∧ net.Subset range)
      ↔ ∃ net, parseNetwork text = some net ∧ net.Subset range := by
    intro text
    unfold allowedSlot
    cases parsed : parseNetwork text with
    | none => simp
    | some net => simp
  rw [isManaged_iff, nonempty]
  refine and_congr_right fun _ => ?_
  constructor
  · intro all slot member
    obtain ⟨text, given, rfl⟩ := mem_allowedSlots.mp member
    exact (inside text).mpr (all text given)
  · intro all text given
    exact (inside text).mp (all _ (mem_allowedSlots.mpr ⟨text, given, rfl⟩))

/-- After the commands the peers inside the range are the desired ones, exactly when the desired peers
are settled and inside the range, and nothing else is left inside it.
-/
theorem managed_desired_iff (seen : view ⊆ live.peers)
    (addressed : ∀ wanted ∈ desired, wanted.allowedIps ≠ [])
    : (∀ publicKey slots,
        (∃ peer ∈ (live.execute (plan desired view (some range))).peers, isManaged peer range = true
            ∧ peer.publicKey = publicKey ∧ allowedSlots peer.allowedIps = slots)
        ↔ ∃ wanted ∈ desired, wanted.publicKey = publicKey ∧ allowedSlots wanted.allowedIps = slots)
      ↔ Ledger.Settled (desired.map Interface.claim)
        ∧ (∀ wanted ∈ desired, ∀ text ∈ wanted.allowedIps,
            ∃ net, parseNetwork text = some net ∧ net.Subset range)
        ∧ ∀ peer ∈ live.peers, Undesired desired peer
            → (peer ∈ view → isManaged peer range = false)
            → isManaged (leftOver (commanded desired view) peer) range = false := by
  constructor
  · intro exactly
    have wired : ∀ wanted ∈ desired, ∃ peer ∈ (live.execute (plan desired view (some range))).peers,
        isManaged peer range = true ∧ peer.publicKey = wanted.publicKey
          ∧ allowedSlots peer.allowedIps = allowedSlots wanted.allowedIps :=
      fun wanted member => (exactly _ _).mpr ⟨wanted, member, rfl, rfl⟩
    refine ⟨⟨?_, ?_⟩, ?_, ?_⟩
    · intro left leftMember right rightMember same
      obtain ⟨first, firstMember, rfl⟩ := List.mem_map.mp leftMember
      obtain ⟨second, secondMember, rfl⟩ := List.mem_map.mp rightMember
      obtain ⟨firstWired, firstThere, _, firstKey, firstSlots⟩ := wired first firstMember
      obtain ⟨secondWired, secondThere, _, secondKey, secondSlots⟩ := wired second secondMember
      obtain rfl := Interface.peer_unique firstThere secondThere
        (firstKey.trans (Eq.trans same secondKey.symm))
      exact firstSlots.symm.trans secondSlots
    · intro left leftMember right rightMember different
      obtain ⟨first, firstMember, rfl⟩ := List.mem_map.mp leftMember
      obtain ⟨second, secondMember, rfl⟩ := List.mem_map.mp rightMember
      obtain ⟨firstWired, firstThere, _, firstKey, firstSlots⟩ := wired first firstMember
      obtain ⟨secondWired, secondThere, _, secondKey, secondSlots⟩ := wired second secondMember
      have apart := (live.execute (plan desired view (some range))).exclusive firstWired firstThere
        secondWired secondThere (by rw [firstKey, secondKey]; exact different)
      rwa [firstSlots, secondSlots] at apart
    · intro wanted member
      obtain ⟨peer, _, managed, _, slots⟩ := wired wanted member
      have same : isManaged ⟨peer.publicKey, wanted.allowedIps⟩ range = true := by
        rw [isManaged_slots] at managed ⊢
        rwa [slots] at managed
      exact (isManaged_iff.mp same).2
    · intro peer there undesired unmanaged
      by_contra managed
      have stays : leftOver (commanded desired view) peer
          ∈ (live.execute (plan desired view (some range))).peers :=
        (@mem_execute_undesired desired live (some range) (leftOver _ peer) view seen undesired).mpr
          ⟨peer, there, rfl, unmanaged⟩
      obtain ⟨wanted, member, same, _⟩ :=
        (exactly _ _).mp ⟨_, stays, by simpa using managed, rfl, rfl⟩
      exact undesired wanted member same
  · intro given publicKey slots
    obtain ⟨settled, inside, leftovers⟩ := given
    constructor
    · intro given
      obtain ⟨peer, there, managed, rfl, rfl⟩ := given
      by_cases desire : ∃ wanted ∈ desired, wanted.publicKey = peer.publicKey
      · obtain ⟨wanted, member, same⟩ := desire
        obtain ⟨wired, wiredThere, wiredKey, wiredSlots⟩ :=
          @settled_wired desired live (some range) view seen settled wanted member
        obtain rfl := Interface.peer_unique wiredThere there (wiredKey.trans same)
        exact ⟨wanted, member, same, wiredSlots.symm⟩
      · have undesired : Undesired desired peer :=
          fun wanted member same => desire ⟨wanted, member, same⟩
        obtain ⟨old, oldThere, rfl, unmanaged⟩ := (mem_execute_undesired seen undesired).mp there
        rw [leftovers old oldThere undesired unmanaged] at managed
        cases managed
    · intro given
      obtain ⟨wanted, member, rfl, rfl⟩ := given
      obtain ⟨wired, there, key, slots⟩ :=
        @settled_wired desired live (some range) view seen settled wanted member
      refine ⟨wired, there, ?_, key, slots⟩
      have own : isManaged ⟨wired.publicKey, wanted.allowedIps⟩ range = true :=
        isManaged_iff.mpr ⟨addressed wanted member, inside wanted member⟩
      rw [isManaged_slots] at own ⊢
      rwa [slots]

end Peers

-----------------------------------------------------------------------------------------
-- Recorded versions
-----------------------------------------------------------------------------------------

section Loop

variable {cfg : GatewayConfigFile} {privateKey : Option String} {state : LoopState} {cycle : Cycle}
  {config : GatewayConfig} {range : IpNetwork}

theorem livePeers_subset {dump : CommandStatus} {interface : Interface}
    : livePeers dump interface ⊆ interface.peers := by
  intro peer member
  unfold livePeers at member
  split at member
  · exact member
  · cases member
  · cases member

/-- The version is recorded when the application has returned without an error. -/
theorem LoopState.recorded_applied (answered : cycle.response = .answered config)
    (recorded : (state.iterate cfg privateKey cycle).lastVersion ≠ state.lastVersion)
    : ∃ count host, applyConfig cfg cycle.clock cycle.answers config privateKey state.host
          = (.ok count, host)
        ∧ (state.iterate cfg privateKey cycle).host = host := by
  unfold iterate at recorded ⊢
  rw [answered] at recorded ⊢
  dsimp only at recorded ⊢
  split at recorded
  · rename_i new
    rw [if_pos new]
    split at recorded
    · exact absurd rfl recorded
    · rename_i unexpired
      rw [if_neg unexpired]
      cases result : applyConfig cfg cycle.clock cycle.answers config privateKey state.host with
      | mk ended host =>
          rw [result] at recorded
          cases ended with
          | error error => exact absurd rfl recorded
          | ok count => exact ⟨count, host, rfl, rfl⟩
  · exact absurd rfl recorded

/-- An application that has returned has executed its plan, and loaded the table or not. -/
theorem applyConfig_returned {clock : Nat → Timestamp} {answers : HostAnswers} {host after : Host}
    {count : Nat} (manages : cfg.wireguard.manageInterface = true)
    (returned : applyConfig cfg clock answers config privateKey host = (.ok count, after))
    : after.interface = host.interface.execute (plan config.peers
          (livePeers answers.dump host.interface) (cfg.managedRange config.privateNetworkCidr))
      ∧ after.table = applyFirewall answers.nft config (cfg.managedRange config.privateNetworkCidr)
          host.table
      ∧ ∀ wanted ∈ config.peers, wanted.allowedIps ≠ [] := by
  by_cases starts : Starts cfg clock answers.device config privateKey
  · obtain ⟨peers, done, failed⟩ :=
      @applyConfig_started cfg clock answers config privateKey host starts
    rw [returned] at peers done failed
    cases ran : (runCommands answers.set 0 (plan config.peers (livePeers answers.dump host.interface)
        (cfg.managedRange config.privateNetworkCidr)).commands host.interface).1 with
    | error error =>
        obtain ⟨ended, _⟩ := failed error ran
        cases ended
    | ok all =>
        refine ⟨?_, (done ran).2, ?_⟩
        · rw [peers, runCommands_ok ran, foldl_commands]
        · intro wanted member
          obtain ⟨index, found⟩ := List.mem_iff_getElem?.mp member
          exact (starts.peers index wanted found).addresses
  · obtain ⟨_, _, ended⟩ := @applyConfig_idle cfg clock answers config privateKey host starts
    obtain ⟨error, failed⟩ := ended manages
    rw [returned] at failed
    cases failed

/-- In any run of the loop: when a turn records a version, the interface and the table are those of its
configuration exactly when the configuration can take effect on the host that it meets.
-/
theorem recorded_applied_iff {start : LoopState} {before : List Cycle}
    (manages : cfg.wireguard.manageInterface = true)
    (answered : cycle.response = .answered config)
    (resolved : cfg.managedRange config.privateNetworkCidr = some range)
    (recorded
      : (start.run cfg privateKey (before ++ [cycle])).lastVersion
        ≠ (start.run cfg privateKey before).lastVersion)
    : OnTheWire config range (start.run cfg privateKey (before ++ [cycle])).host
      ↔ TakesEffect config range cycle.answers (start.run cfg privateKey before).host := by
  have turn : start.run cfg privateKey (before ++ [cycle])
      = (start.run cfg privateKey before).iterate cfg privateKey cycle := by
    simp [LoopState.run]
  rw [turn] at recorded ⊢
  obtain ⟨count, after, returned, same⟩ := LoopState.recorded_applied answered recorded
  obtain ⟨peers, table, addressed⟩ := applyConfig_returned manages returned
  rw [same]
  rw [resolved] at peers table
  have firewall : after.table = render config.services config.routes (some (networkText range))
      ↔ cycle.answers.nft = .exited true
        ∨ (start.run cfg privateKey before).host.table
          = render config.services config.routes (some (networkText range)) := by
    rw [table]
    simp only [applyFirewall, Option.map_some, render]
    cases cycle.answers.nft with
    | exited success => cases success <;> simp
    | _ => simp
  have exactly := @managed_desired_iff config.peers
    (livePeers cycle.answers.dump (start.run cfg privateKey before).host.interface)
    (start.run cfg privateKey before).host.interface range livePeers_subset addressed
  rw [← peers] at exactly
  constructor
  · intro given
    obtain ⟨managed, loaded⟩ := given
    obtain ⟨settled, inside, leftovers⟩ := exactly.mp managed
    exact ⟨settled, inside, leftovers, firewall.mp loaded⟩
  · intro given
    obtain ⟨settled, inside, leftovers, loaded⟩ := given
    exact ⟨exactly.mpr ⟨settled, inside, leftovers⟩, firewall.mpr loaded⟩

end Loop

def labRange : IpNetwork := .v4 ⟨BitVec.ofNat 32 0x0A080100, 24, slash24⟩

/-- The interface has been created and nothing is on it yet. -/
def emptyHost : Host where
  interface := ⟨[], by simp, by simp⟩
  device := none
  table := none

/-- A heartbeat that is answered at the beginning of the hour. -/
def labCycle (config : GatewayConfig) (answers : HostAnswers) : Cycle where
  response := .answered config
  now := 0
  clock := fun _ => 0
  answers := answers

/-- The configuration with the session of the device. -/
def sessionCycle : Cycle := labCycle (labConfig 1 [labPeer 7 6 "10.8.1.2/32"]) labAnswers

/-- The session has been revoked; the dump may work or not. -/
def revokedCycle (dump : CommandStatus) : Cycle :=
  labCycle (labConfig 2 []) { labAnswers with dump }

/-- Where the peers can be read, the version stands for what is on the wire. -/
theorem revocation_recorded
    : let cycles := [sessionCycle] ++ [revokedCycle (.exited true)]
      ((LoopState.start emptyHost).run managingFile none cycles).lastVersion = 2
      ∧ OnTheWire (labConfig 2 []) labRange
          ((LoopState.start emptyHost).run managingFile none cycles).host := by
  refine ⟨by decide +kernel, ?_⟩
  refine (recorded_applied_iff rfl rfl (by decide +kernel) (by decide +kernel)).mpr ?_
  refine ⟨⟨?_, ?_⟩, ?_, ?_, Or.inl rfl⟩
  · intro left member
    cases member
  · intro left member
    cases member
  · intro wanted member
    cases member
  · intro peer there _ unmanaged
    have managed : ∀ peer
        ∈ ((LoopState.start emptyHost).run managingFile none [sessionCycle]).host.interface.peers,
        isManaged peer labRange = true := by decide +kernel
    have inside := managed peer there
    rw [unmanaged there] at inside
    cases inside

/-- The one time that the peers cannot be read, the version of the revocation is recorded and its peer
stays.
-/
theorem revocation_lost
    : let cycles := [sessionCycle] ++ [revokedCycle .notStarted]
      ((LoopState.start emptyHost).run managingFile none cycles).lastVersion = 2
      ∧ ¬ OnTheWire (labConfig 2 []) labRange
          ((LoopState.start emptyHost).run managingFile none cycles).host := by
  intro cycles
  refine ⟨by decide +kernel, ?_⟩
  intro applied
  have stays : ⟨"qqqqqqqqqqqqqqqqqqqqqqqqqqqqqqqqqqqqqqqqqqo=", ["10.8.1.2/32"]⟩
      ∈ ((LoopState.start emptyHost).run managingFile none cycles).host.interface.peers := by
    decide +kernel
  obtain ⟨wanted, member, _⟩ :=
    (applied.peers _ _).mp ⟨_, stays, by decide +kernel, rfl, rfl⟩
  cases member

end WslVpn
