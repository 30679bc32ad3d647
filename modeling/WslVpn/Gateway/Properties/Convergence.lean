import WslVpn.Control.Serving
import WslVpn.Gateway.Properties.ForeignPeers

/-! When a reconciliation leaves nothing to reconcile. Two desired peers may fight for a key or for an
address, and a foreign peer that loses an address may come to look like a managed one.
-/

namespace WslVpn

open AddressSpace Ownership

/-- The live peer is desired by nobody. -/
def Undesired (desired : List GatewayPeer) (peer : LivePeer) : Prop :=
  ∀ wanted ∈ desired, wanted.publicKey ≠ peer.publicKey

/-- No desired peer needs a command any more, no peer is to be removed, and each desired peer is on the
wire with exactly its own allowed-ips.
-/
def Converges (desired : List GatewayPeer) (live : Interface) (managed : Option IpNetwork) : Prop :=
  let after := live.execute (plan desired live.peers managed)
  (plan desired after.peers managed).isNoop = true
  ∧ ∀ peer ∈ desired, ∃ wired ∈ after.peers, wired.publicKey = peer.publicKey
      ∧ allowedSlots wired.allowedIps = allowedSlots peer.allowedIps

/-- What a live peer keeps when these desired peers are set. -/
def leftOver (commands : List GatewayPeer) (peer : LivePeer) : LivePeer :=
  Interface.without (commands.flatMap (·.allowedIps)) peer

-----------------------------------------------------------------------------------------
-- The texts on the interface
-----------------------------------------------------------------------------------------

/-- The text is read as a network without host bits. -/
def Tidy (text : String) : Prop := ∃ net, parseNetwork text = some net ∧ net.canonical = net

section Texts

variable {texts left right : List String} {text : String}

theorem Shown.tidy (shown : Shown text) : Tidy text := by
  obtain ⟨net, clear, rfl⟩ := shown
  exact ⟨net, parseNetwork_networkText net, clear⟩

theorem Shown.shownIp_eq (shown : Shown text) : shownIp text = text := by
  obtain ⟨net, clear, rfl⟩ := shown
  rw [shownIp, parseNetwork_networkText]
  simp only [clear]

/-- Where all texts are tidy, the slots are the networks. -/
theorem network_mem_slots (tidy : ∀ text ∈ texts, Tidy text) {net : IpNetwork}
    : .network net ∈ allowedSlots texts ↔ some net ∈ texts.map parseNetwork := by
  rw [mem_allowedSlots, List.mem_map]
  constructor
  · intro given
    obtain ⟨text, member, slot⟩ := given
    obtain ⟨read, parsed, clear⟩ := tidy text member
    rw [allowedSlot, parsed] at slot
    obtain rfl : read = net := by simpa [clear] using slot
    exact ⟨text, member, parsed⟩
  · intro given
    obtain ⟨text, member, parsed⟩ := given
    obtain ⟨read, also, clear⟩ := tidy text member
    obtain rfl : net = read := Option.some.inj (parsed.symm.trans also)
    refine ⟨text, member, ?_⟩
    rw [allowedSlot, parsed]
    simp only [clear]

theorem sameAllowedIps_of_slots (leftTidy : ∀ text ∈ left, Tidy text)
    (rightTidy : ∀ text ∈ right, Tidy text) (same : allowedSlots left = allowedSlots right)
    : sameAllowedIps left right = true := by
  rw [sameAllowedIps_iff]
  refine ⟨?_, ?_⟩
  · intro text member
    rcases List.mem_append.mp member with own | other
    · obtain ⟨net, parsed, _⟩ := leftTidy text own
      exact ⟨net, parsed⟩
    · obtain ⟨net, parsed, _⟩ := rightTidy text other
      exact ⟨net, parsed⟩
  · intro net
    rw [← network_mem_slots leftTidy, ← network_mem_slots rightTidy, same]

/-- What is the same as something tidy is tidy. -/
theorem tidy_of_same (same : sameAllowedIps left right = true) (tidy : ∀ text ∈ left, Tidy text)
    : ∀ text ∈ right, Tidy text := by
  obtain ⟨read, nets⟩ := sameAllowedIps_iff.mp same
  intro text member
  obtain ⟨net, parsed⟩ := read text (List.mem_append_right _ member)
  have there : some net ∈ right.map parseNetwork := parsed ▸ List.mem_map_of_mem member
  obtain ⟨other, otherMember, also⟩ := List.mem_map.mp ((nets net).mpr there)
  obtain ⟨otherNet, otherParsed, clear⟩ := tidy other otherMember
  obtain rfl : net = otherNet := Option.some.inj (also.symm.trans otherParsed)
  exact ⟨net, parsed, clear⟩

theorem slots_of_same (same : sameAllowedIps left right = true)
    : allowedSlots left = allowedSlots right := by
  obtain ⟨read, nets⟩ := sameAllowedIps_iff.mp same
  have within : ∀ {first second : List String},
      (∀ text ∈ first, ∃ net, parseNetwork text = some net)
      → (∀ net, some net ∈ first.map parseNetwork → some net ∈ second.map parseNetwork)
      → allowedSlots first ⊆ allowedSlots second := by
    intro first second parses into slot member
    obtain ⟨text, textMember, rfl⟩ := mem_allowedSlots.mp member
    obtain ⟨net, parsed⟩ := parses text textMember
    obtain ⟨other, otherMember, also⟩ :=
      List.mem_map.mp (into net (parsed ▸ List.mem_map_of_mem textMember))
    refine mem_allowedSlots.mpr ⟨other, otherMember, ?_⟩
    rw [allowedSlot, allowedSlot, parsed, also]
  exact Set.Subset.antisymm
    (within (fun text member => read text (List.mem_append_left _ member)) (fun net => (nets net).mp))
    (within (fun text member => read text (List.mem_append_right _ member)) (fun net => (nets net).mpr))

end Texts

-----------------------------------------------------------------------------------------
-- The peers after the commands
-----------------------------------------------------------------------------------------

section Commands

variable {commands desired : List GatewayPeer} {live : Interface} {managed : Option IpNetwork}
  {peer : LivePeer}

@[simp] theorem leftOver_nil : leftOver [] peer = peer := by
  simp [leftOver, Interface.without]

theorem leftOver_concat {command : GatewayPeer}
    : leftOver (commands ++ [command]) peer
      = Interface.without command.allowedIps (leftOver commands peer) := by
  simp only [leftOver, Interface.without, List.flatMap_append, List.flatMap_singleton,
    List.filter_filter, List.map_append, List.mem_append, not_or, Bool.decide_and, Bool.and_comm]

@[simp] theorem leftOver_publicKey : (leftOver commands peer).publicKey = peer.publicKey := rfl

/-- The interface when these desired peers have been set one after another. -/
def setAll (live : Interface) (commands : List GatewayPeer) : Interface :=
  commands.foldl (fun reached peer => reached.set peer.publicKey peer.allowedIps) live

/-- A peer that has been set shows what was set last, and at most that; of every other one there is
what the commands leave it. By induction on the commands from the last one on.
-/
theorem mem_setAll_other (other : ∀ command ∈ commands, command.publicKey ≠ peer.publicKey)
    : peer ∈ (setAll live commands).peers ↔ ∃ old ∈ live.peers, peer = leftOver commands old := by
  induction commands using List.reverseRecOn generalizing peer with
  | nil => simp [setAll]
  | append_singleton commands command ih =>
      have last : setAll live (commands ++ [command])
          = (setAll live commands).set command.publicKey command.allowedIps := by simp [setAll]
      have earlier : ∀ {key : String}, (∀ given ∈ commands ++ [command], given.publicKey ≠ key)
          → ∀ given ∈ commands, given.publicKey ≠ key :=
        fun all given member => all given (List.mem_append_left _ member)
      rw [last]
      refine Interface.mem_setPeers.trans ?_
      constructor
      · rintro (rfl | ⟨old, there, _, rfl⟩)
        · exact absurd rfl (other command (by simp))
        · obtain ⟨first, firstThere, rfl⟩ := (@ih old (earlier other)).mp there
          exact ⟨first, firstThere, leftOver_concat.symm⟩
      · intro facts
        obtain ⟨first, there, rfl⟩ := facts
        refine Or.inr ⟨leftOver commands first, ?_, ?_, leftOver_concat⟩
        · exact (@ih (leftOver commands first) (earlier other)).mpr ⟨first, there, rfl⟩
        · exact (other command (by simp)).symm

theorem setAll_texts (there : peer ∈ (setAll live commands).peers)
    (own : ∃ command ∈ commands, command.publicKey = peer.publicKey)
    : ∃ command ∈ commands,
        ∀ text ∈ peer.allowedIps, ∃ given ∈ command.allowedIps, shownIp given = text := by
  induction commands using List.reverseRecOn generalizing peer with
  | nil =>
      obtain ⟨command, ⟨⟩, _⟩ := own
  | append_singleton commands command ih =>
      have last : setAll live (commands ++ [command])
          = (setAll live commands).set command.publicKey command.allowedIps := by simp [setAll]
      rw [last] at there
      rcases Interface.mem_setPeers.mp there with rfl | ⟨old, oldThere, different, rfl⟩
      · refine ⟨command, by simp, ?_⟩
        intro text member
        obtain ⟨given, member, same⟩ := List.mem_map.mp member
        exact ⟨given, member, same⟩
      · obtain ⟨named, member, same⟩ := own
        have before : named ∈ commands := by
          rcases List.mem_append.mp member with earlier | isLast
          · exact earlier
          · rw [List.mem_singleton.mp isLast] at same
            exact absurd same.symm different
        obtain ⟨giver, giverMember, gives⟩ := ih oldThere ⟨named, before, same⟩
        exact ⟨giver, List.mem_append_left _ giverMember,
          fun text kept => gives text (List.mem_of_mem_filter kept)⟩

/-- The plan is made from a view of the interface, which need not show all of its peers. -/
theorem mem_execute {view : List LivePeer}
    : peer ∈ (live.execute (plan desired view managed)).peers
      ↔ peer ∈ (setAll live (commanded desired view)).peers
        ∧ peer.publicKey ∉ (plan desired view managed).remove := by
  have removed : ∀ (keys : List String) (reached : Interface),
      peer ∈ (keys.foldl Interface.remove reached).peers
        ↔ peer ∈ reached.peers ∧ peer.publicKey ∉ keys := by
    intro keys
    induction keys with
    | nil => simp
    | cons key rest ih =>
        intro reached
        rw [List.foldl_cons, ih]
        simp only [Interface.remove, Interface.removePeers, List.mem_filter, bne_iff_ne, ne_eq,
          List.mem_cons, not_or, and_assoc]
  exact removed _ _

theorem commanded_desired {view : List LivePeer} {command : GatewayPeer}
    (member : command ∈ commanded desired view)
    : command ∈ desired := by
  rcases List.mem_append.mp member with added | updated
  · exact List.mem_of_mem_filter added
  · exact List.mem_of_mem_filter updated

/-- A desired peer that needs no command is there already. -/
theorem unchanged_of_not_commanded {view : List LivePeer} {wanted : GatewayPeer}
    (member : wanted ∈ desired) (idle : wanted ∉ commanded desired view)
    : ∃ existing ∈ view, existing.publicKey = wanted.publicKey
        ∧ sameAllowedIps wanted.allowedIps existing.allowedIps = true := by
  rw [commanded, List.mem_append, List.mem_filter, List.mem_filter, not_or, and_iff_right member,
    and_iff_right member, liveByKey] at idle
  obtain ⟨present, same⟩ := idle
  cases found : view.reverse.find? (·.publicKey == wanted.publicKey) with
  | none => exact absurd (by rw [found]; rfl) present
  | some existing =>
      rw [found] at same
      exact ⟨existing, List.mem_reverse.mp (List.mem_of_find?_eq_some found),
        by simpa using List.find?_some found, by simpa using same⟩

/-- The peers to remove are seen, managed and undesired. -/
theorem mem_remove {view : List LivePeer} {publicKey : String}
    : publicKey ∈ (plan desired view managed).remove
      ↔ ∃ peer ∈ view, peer.publicKey = publicKey ∧ Undesired desired peer
          ∧ managed.any (isManaged peer) = true := by
  have undesired : ∀ peer : LivePeer,
      (!desired.any (·.publicKey == peer.publicKey)) = true ↔ Undesired desired peer := by
    intro peer
    simp [Undesired]
  simp only [plan, List.mem_map, List.mem_filter, Bool.and_eq_true, undesired]
  constructor
  · intro given
    obtain ⟨peer, ⟨there, isUndesired, isManaged⟩, own⟩ := given
    exact ⟨peer, there, own, isUndesired, isManaged⟩
  · intro given
    obtain ⟨peer, there, own, isUndesired, isManaged⟩ := given
    exact ⟨peer, ⟨there, isUndesired, isManaged⟩, own⟩

/-- An undesired peer that is not removed stays with what the commands leave it. -/
theorem mem_execute_undesired {view : List LivePeer} (seen : view ⊆ live.peers)
    (undesired : Undesired desired peer)
    : peer ∈ (live.execute (plan desired view managed)).peers
      ↔ ∃ old ∈ live.peers, peer = leftOver (commanded desired view) old
          ∧ (old ∈ view → managed.any (isManaged old) = false) := by
  have other : ∀ command ∈ commanded desired view, command.publicKey ≠ peer.publicKey :=
    fun command member => undesired command (commanded_desired member)
  rw [mem_execute, mem_setAll_other other, mem_remove]
  constructor
  · intro given
    obtain ⟨⟨old, there, rfl⟩, stays⟩ := given
    refine ⟨old, there, rfl, ?_⟩
    intro inView
    by_contra isManaged
    exact stays ⟨old, inView, rfl, undesired, by simpa using isManaged⟩
  · intro given
    obtain ⟨old, there, rfl, unmanaged⟩ := given
    refine ⟨⟨old, there, rfl⟩, ?_⟩
    intro given
    obtain ⟨removed, inView, same, _, isManaged⟩ := given
    obtain rfl := Interface.peer_unique (seen inView) there same
    rw [unmanaged inView] at isManaged
    cases isManaged

end Commands

-----------------------------------------------------------------------------------------
-- Convergence
-----------------------------------------------------------------------------------------

/-- No undesired peer comes to look managed when the commands take addresses from it. -/
def StaysForeign (desired : List GatewayPeer) (live : Interface) (managed : Option IpNetwork)
    : Prop :=
  ∀ peer ∈ live.peers, Undesired desired peer → managed.any (isManaged peer) = false
    → managed.any (isManaged (leftOver (commanded desired live.peers) peer)) = false

section Converge

variable {desired : List GatewayPeer} {live : Interface} {managed : Option IpNetwork}

/-- Settled desires are met. -/
theorem settled_wired {view : List LivePeer} (seen : view ⊆ live.peers)
    (settled : Ledger.Settled (desired.map Interface.claim)) {wanted : GatewayPeer}
    (member : wanted ∈ desired)
    : ∃ wired ∈ (live.execute (plan desired view managed)).peers,
        wired.publicKey = wanted.publicKey
        ∧ allowedSlots wired.allowedIps = allowedSlots wanted.allowedIps := by
  have some : ∀ command ∈ commanded desired view,
      Interface.claim command ∈ desired.map Interface.claim :=
    fun command given => List.mem_map_of_mem (commanded_desired given)
  have claims : Ledger.Settled ((commanded desired view).map Interface.claim) := by
    refine ⟨?_, ?_⟩
    · intro left leftMember right rightMember
      obtain ⟨first, firstMember, rfl⟩ := List.mem_map.mp leftMember
      obtain ⟨second, secondMember, rfl⟩ := List.mem_map.mp rightMember
      exact settled.agree _ (some first firstMember) _ (some second secondMember)
    · intro left leftMember right rightMember
      obtain ⟨first, firstMember, rfl⟩ := List.mem_map.mp leftMember
      obtain ⟨second, secondMember, rfl⟩ := List.mem_map.mp rightMember
      exact settled.apart _ (some first firstMember) _ (some second secondMember)
  have own : Interface.claim wanted ∈ desired.map Interface.claim := List.mem_map_of_mem member
  have assigned : live.ledger.assignAll ((commanded desired view).map Interface.claim)
      wanted.publicKey = Option.some (allowedSlots wanted.allowedIps) := by
    by_cases commands : ∃ command ∈ commanded desired view, command.publicKey = wanted.publicKey
    · obtain ⟨command, given, same⟩ := commands
      have met : live.ledger.assignAll ((commanded desired view).map Interface.claim)
          command.publicKey = Option.some (allowedSlots command.allowedIps) :=
        claims.assignAll (List.mem_map_of_mem given)
      have agreed := settled.agree _ (some command given) _ own same
      rw [← same]
      exact met.trans (congrArg Option.some agreed)
    · have idle : wanted ∉ commanded desired view := fun given => commands ⟨wanted, given, rfl⟩
      obtain ⟨existing, there, same, equal⟩ := unchanged_of_not_commanded member idle
      have before : live.ledger wanted.publicKey
          = Option.some (allowedSlots wanted.allowedIps) := by
        rw [← same, Interface.ledger_peer (seen there), slots_of_same equal]
      refine (Ledger.assignAll_other ?_ ?_).trans before
      · intro claim claimMember same
        obtain ⟨command, given, rfl⟩ := List.mem_map.mp claimMember
        exact commands ⟨command, given, same⟩
      · intro claim claimMember slot facts claimed
        obtain ⟨slots, entry, held⟩ := facts
        obtain ⟨command, given, rfl⟩ := List.mem_map.mp claimMember
        rw [before] at entry
        cases entry
        have different : (Interface.claim command).key ≠ (Interface.claim wanted).key :=
          fun same => commands ⟨command, given, same⟩
        exact Set.disjoint_left.mp (settled.apart _ (some command given) _ own different) claimed
          held
  rw [← Interface.ledger_eq_some, Interface.ledger_execute, Ledger.deleteAll_apply, if_neg]
  · exact assigned
  · rw [mem_remove]
    intro facts
    obtain ⟨peer, _, same, undesired, _⟩ := facts
    exact undesired wanted member same.symm

/-- On the wire the allowed-ips of desired peers are tidy. -/
theorem wired_tidy (shown : ∀ peer ∈ desired, ∀ text ∈ peer.allowedIps, Shown text)
    {wanted : GatewayPeer} (member : wanted ∈ desired) {wired : LivePeer}
    (there : wired ∈ (live.execute (plan desired live.peers managed)).peers)
    (same : wired.publicKey = wanted.publicKey)
    : ∀ text ∈ wired.allowedIps, Tidy text := by
  have set := (mem_execute.mp there).1
  by_cases commands : ∃ command ∈ commanded desired live.peers, command.publicKey = wired.publicKey
  · obtain ⟨command, given, gives⟩ := setAll_texts set commands
    intro text written
    obtain ⟨source, sourceMember, rfl⟩ := gives text written
    have isShown := shown command (commanded_desired given) source sourceMember
    rw [isShown.shownIp_eq]
    exact isShown.tidy
  · have other : ∀ command ∈ commanded desired live.peers, command.publicKey ≠ wired.publicKey :=
      fun command given own => commands ⟨command, given, own⟩
    obtain ⟨old, oldThere, rfl⟩ := (mem_setAll_other other).mp set
    have idle : wanted ∉ commanded desired live.peers :=
      fun given => other wanted given same.symm
    obtain ⟨existing, existingThere, existingSame, equal⟩ := unchanged_of_not_commanded member idle
    obtain rfl := Interface.peer_unique oldThere existingThere (same.trans existingSame.symm)
    intro text written
    exact tidy_of_same equal (fun text given => (shown wanted member text given).tidy) text
      (List.mem_of_mem_filter written)

/-- A reconciliation converges exactly when the desired peers agree on each key and share no address,
and no undesired peer comes to look managed.
-/
theorem converges_iff (shown : ∀ peer ∈ desired, ∀ text ∈ peer.allowedIps, Shown text)
    : Converges desired live managed
      ↔ Ledger.Settled (desired.map Interface.claim) ∧ StaysForeign desired live managed := by
  constructor
  · intro facts
    obtain ⟨noop, wired⟩ := facts
    refine ⟨⟨?_, ?_⟩, ?_⟩
    · intro left leftMember right rightMember same
      obtain ⟨first, firstMember, rfl⟩ := List.mem_map.mp leftMember
      obtain ⟨second, secondMember, rfl⟩ := List.mem_map.mp rightMember
      obtain ⟨firstWired, firstThere, firstKey, firstSlots⟩ := wired first firstMember
      obtain ⟨secondWired, secondThere, secondKey, secondSlots⟩ := wired second secondMember
      obtain rfl := Interface.peer_unique firstThere secondThere
        (firstKey.trans (Eq.trans same secondKey.symm))
      exact firstSlots.symm.trans secondSlots
    · intro left leftMember right rightMember different
      obtain ⟨first, firstMember, rfl⟩ := List.mem_map.mp leftMember
      obtain ⟨second, secondMember, rfl⟩ := List.mem_map.mp rightMember
      obtain ⟨firstWired, firstThere, firstKey, firstSlots⟩ := wired first firstMember
      obtain ⟨secondWired, secondThere, secondKey, secondSlots⟩ := wired second secondMember
      have apart := (live.execute (plan desired live.peers managed)).exclusive firstWired firstThere
        secondWired secondThere (by rw [firstKey, secondKey]; exact different)
      rwa [firstSlots, secondSlots] at apart
    · intro peer there undesired unmanaged
      simp only [ReconcilePlan.isNoop, Bool.and_eq_true, List.isEmpty_iff] at noop
      have stays : leftOver (commanded desired live.peers) peer
          ∈ (live.execute (plan desired live.peers managed)).peers :=
        (@mem_execute_undesired desired live managed (leftOver _ peer) _ (List.Subset.refl _)
          undesired).mpr ⟨peer, there, rfl, fun _ => unmanaged⟩
      by_contra looksManaged
      have removed : peer.publicKey
          ∈ (plan desired (live.execute (plan desired live.peers managed)).peers managed).remove :=
        mem_remove.mpr ⟨_, stays, rfl, undesired, by simpa using looksManaged⟩
      rw [noop.2] at removed
      cases removed
  · intro facts
    obtain ⟨settled, staysForeign⟩ := facts
    refine ⟨?_, fun peer member => settled_wired (List.Subset.refl _) settled member⟩
    have found : ∀ wanted ∈ desired, ∃ wired,
        liveByKey (live.execute (plan desired live.peers managed)).peers wanted.publicKey
            = some wired
          ∧ sameAllowedIps wanted.allowedIps wired.allowedIps = true := by
      intro wanted member
      obtain ⟨wired, there, same, slots⟩ := settled_wired (List.Subset.refl _) settled member
      refine ⟨wired, ?_, ?_⟩
      · rw [Interface.liveByKey_eq, ← same, Interface.find?_peer there]
      · exact sameAllowedIps_of_slots (fun text given => (shown wanted member text given).tidy)
          (wired_tidy shown member there same) slots.symm
    simp only [ReconcilePlan.isNoop, Bool.and_eq_true, List.isEmpty_iff]
    refine ⟨⟨?_, ?_⟩, ?_⟩
    · refine List.filter_eq_nil_iff.mpr ?_
      intro wanted member
      obtain ⟨wired, isWired, _⟩ := found wanted member
      simp [isWired]
    · refine List.filter_eq_nil_iff.mpr ?_
      intro wanted member
      obtain ⟨wired, isWired, same⟩ := found wanted member
      simp [isWired, same]
    · refine List.eq_nil_iff_forall_not_mem.mpr ?_
      intro publicKey removed
      obtain ⟨peer, there, _, undesired, isManaged⟩ := mem_remove.mp removed
      obtain ⟨old, oldThere, rfl, unmanaged⟩ :=
        (mem_execute_undesired (List.Subset.refl _) undesired).mp there
      rw [staysForeign old oldThere undesired (unmanaged oldThere)] at isManaged
      cases isManaged

end Converge

/-- Whatever configuration a gateway is answered, in whatever state of its interface and with whatever
managed range: reconciling converges exactly when the peers of the configuration agree on each key and
share no address, and no undesired peer comes to look managed.
-/
theorem reconciliation_converges_iff {state : AppState} {requests : List Request} {db : Db}
    {turns : List Turn} {call : Nat} {config : GatewayConfig} (columns : CidrColumns db)
    (answered
      : ((ControlPlane.start state requests db).after turns).Answered call (.ok (.config config)))
    {live : Interface} {managed : Option IpNetwork}
    : Converges config.peers live managed
      ↔ Ledger.Settled (config.peers.map Interface.claim)
        ∧ StaysForeign config.peers live managed :=
  converges_iff (ControlPlane.answered_shown columns answered)

/-- A device asks for two sessions, and its gateway for the configuration. -/
def sessionsAndConfig : List Request :=
  [.createSession ⟨6, 7⟩ 1 "ada@example.com" ⟨3, 2, []⟩,
    .createSession ⟨8, 9⟩ 1 "ada@example.com" ⟨3, 2, []⟩, .gatewayConfig 4]

/-- What the gateway is answered with these peers. -/
def labConfig (version : Int) (peers : List GatewayPeer) : GatewayConfig where
  version := version
  expiresAt := minutes 5
  listenPort := 51820
  privateNetworkCidr := "10.8.1.0/24"
  peers := peers
  routes := []
  services := []

/-- The peer of a session of the device. -/
def labPeer (peerId sessionId : Uuid) (address : String) : GatewayPeer where
  peerId := peerId
  publicKey := "qqqqqqqqqqqqqqqqqqqqqqqqqqqqqqqqqqqqqqqqqqo="
  allowedIps := [address]
  sessionId := sessionId
  expiresAt := seconds 3600

theorem small_columns : CidrColumns smallInstallation := nofun

/-- With one session there is nothing to fight for. -/
theorem one_session_converges
    : Converges [labPeer 7 6 "10.8.1.2/32"] hubInterface none := by
  have answered : ((ControlPlane.start smallState sessionsAndConfig smallInstallation).after
      (List.replicate 17 (.run 0) ++ List.replicate 9 (.run 2))).Answered 2
        (.ok (.config (labConfig 1 [labPeer 7 6 "10.8.1.2/32"]))) := rfl
  refine (reconciliation_converges_iff small_columns answered).mpr ⟨⟨?_, ?_⟩, ?_⟩
  · intro left leftMember right rightMember _
    rw [List.mem_singleton.mp leftMember, List.mem_singleton.mp rightMember]
  · intro left leftMember right rightMember different
    rw [List.mem_singleton.mp leftMember, List.mem_singleton.mp rightMember] at different
    exact absurd rfl different
  · exact fun _ _ _ _ => rfl

/-- Two sessions of one device: its one key is to have two lists of allowed-ips. -/
theorem two_sessions_fight
    : ((ControlPlane.start smallState sessionsAndConfig smallInstallation).after
        (List.replicate 17 (.run 0) ++ List.replicate 17 (.run 1) ++ List.replicate 9 (.run 2))).Answered 2
          (.ok (.config (labConfig 2 [labPeer 7 6 "10.8.1.2/32", labPeer 9 8 "10.8.1.3/32"])))
      ∧ ∀ live managed,
          ¬ Converges [labPeer 7 6 "10.8.1.2/32", labPeer 9 8 "10.8.1.3/32"] live managed := by
  refine ⟨rfl, ?_⟩
  intro live managed given
  obtain ⟨_, wired⟩ := given
  obtain ⟨first, firstThere, firstKey, firstSlots⟩ := wired _ List.mem_cons_self
  obtain ⟨second, secondThere, secondKey, secondSlots⟩ :=
    wired _ (List.mem_cons_of_mem _ List.mem_cons_self)
  obtain rfl := Interface.peer_unique firstThere secondThere (firstKey.trans secondKey.symm)
  have same := firstSlots.symm.trans secondSlots
  have member : allowedSlot "10.8.1.2/32" ∈ allowedSlots ["10.8.1.3/32"] :=
    same ▸ List.mem_cons_self
  obtain ⟨text, isText, slot⟩ := mem_allowedSlots.mp member
  obtain rfl := List.mem_singleton.mp isText
  exact absurd slot (by decide)

end WslVpn
