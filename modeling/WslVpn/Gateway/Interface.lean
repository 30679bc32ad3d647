import WslVpn.Gateway.Wg
import WslVpn.Ownership.Ledger

/-! The peers of a WireGuard interface and the commands that change them. An allowed-ip belongs to one
peer: setting it for a peer takes it away from the others.
-/

namespace WslVpn

open AddressSpace Ownership

/-- What an allowed-ip stands for on the interface: a network without host bits. Text that is no
network stands for itself.
-/
inductive AllowedIp where
  | network (net : IpNetwork)
  | text (raw : String)
  deriving DecidableEq

def allowedSlot (text : String) : AllowedIp :=
  match parseNetwork text with
  | some net => .network net.canonical
  | none => .text text

/-- An allowed-ip as the interface shows it once it is set. -/
def shownIp (text : String) : String :=
  match parseNetwork text with
  | some net => networkText net.canonical
  | none => text

/-- What a list of allowed-ips stands for. -/
def allowedSlots (texts : List String) : Set AllowedIp :=
  {slot | slot ∈ texts.map allowedSlot}

@[simp] theorem allowedSlot_shownIp (text : String)
    : allowedSlot (shownIp text) = allowedSlot text := by
  unfold shownIp
  cases parsed : parseNetwork text with
  | none => rfl
  | some net => simp only [allowedSlot, parsed, parseNetwork_networkText,
      IpNetwork.canonical_canonical]

@[simp] theorem allowedSlots_shown (texts : List String)
    : allowedSlots (texts.map shownIp) = allowedSlots texts := by
  simp [allowedSlots, Function.comp_def]

theorem mem_allowedSlots {texts : List String} {slot : AllowedIp}
    : slot ∈ allowedSlots texts ↔ ∃ text ∈ texts, allowedSlot text = slot := by
  simp [allowedSlots]

/-- The peers of an interface: each key once, and no allowed-ip of two peers. -/
structure Interface where
  peers : List LivePeer
  keys : (peers.map (·.publicKey)).Nodup
  exclusive
    : ∀ left ∈ peers, ∀ right ∈ peers, left.publicKey ≠ right.publicKey
        → Disjoint (allowedSlots left.allowedIps) (allowedSlots right.allowedIps)

namespace Interface

-----------------------------------------------------------------------------------------
-- Commands
-----------------------------------------------------------------------------------------

/-- What the other peers are left with when `taken` are set for a peer. -/
def without (taken : List String) (peer : LivePeer) : LivePeer :=
  { peer with
    allowedIps := peer.allowedIps.filter (fun text => decide (allowedSlot text ∉ taken.map allowedSlot)) }

/-- What is done to a peer when `allowed` are set for the key. -/
def changed (publicKey : String) (allowed : List String) (peer : LivePeer) : LivePeer :=
  if peer.publicKey = publicKey then { peer with allowedIps := allowed.map shownIp }
  else without allowed peer

/-- The peers after `wg set <interface> peer <publicKey> allowed-ips <allowed>`. -/
def setPeers (peers : List LivePeer) (publicKey : String) (allowed : List String) : List LivePeer :=
  if peers.any (·.publicKey == publicKey) then peers.map (changed publicKey allowed)
  else peers.map (changed publicKey allowed) ++ [⟨publicKey, allowed.map shownIp⟩]

/-- The peers after `wg set <interface> peer <publicKey> remove`. -/
def removePeers (peers : List LivePeer) (publicKey : String) : List LivePeer :=
  peers.filter (·.publicKey != publicKey)

section Commands

variable {peers : List LivePeer} {publicKey : String} {allowed taken : List String}
  {peer : LivePeer}

@[simp] theorem changed_publicKey
    : (changed publicKey allowed peer).publicKey = peer.publicKey := by
  unfold changed
  split <;> rfl

@[simp] theorem allowedSlots_without
    : allowedSlots (without taken peer).allowedIps
      = allowedSlots peer.allowedIps \ allowedSlots taken := by
  ext slot
  simp only [without, mem_allowedSlots, List.mem_filter, Set.mem_sdiff, decide_eq_true_eq,
    List.mem_map]
  constructor
  · intro given
    obtain ⟨text, ⟨member, free⟩, rfl⟩ := given
    exact ⟨⟨text, member, rfl⟩, free⟩
  · intro given
    obtain ⟨⟨text, member, rfl⟩, free⟩ := given
    exact ⟨text, ⟨member, free⟩, rfl⟩

theorem changed_map_publicKey
    : (peers.map (changed publicKey allowed)).map (·.publicKey) = peers.map (·.publicKey) := by
  simp [Function.comp_def]

/-- After the command there is the peer of the key with what was set, and of every other peer what
that leaves it.
-/
theorem mem_setPeers
    : peer ∈ setPeers peers publicKey allowed
      ↔ peer = ⟨publicKey, allowed.map shownIp⟩
        ∨ ∃ old ∈ peers, old.publicKey ≠ publicKey ∧ peer = without allowed old := by
  have mapped : peer ∈ peers.map (changed publicKey allowed)
      ↔ ((∃ old ∈ peers, old.publicKey = publicKey) ∧ peer = ⟨publicKey, allowed.map shownIp⟩)
        ∨ ∃ old ∈ peers, old.publicKey ≠ publicKey ∧ peer = without allowed old := by
    rw [List.mem_map]
    constructor
    · intro given
      obtain ⟨old, there, rfl⟩ := given
      by_cases own : old.publicKey = publicKey
      · subst own
        exact Or.inl ⟨⟨old, there, rfl⟩, if_pos rfl⟩
      · exact Or.inr ⟨old, there, own, if_neg own⟩
    · rintro (⟨⟨old, there, rfl⟩, rfl⟩ | ⟨old, there, other, rfl⟩)
      · exact ⟨old, there, if_pos rfl⟩
      · exact ⟨old, there, if_neg other⟩
  unfold setPeers
  split
  · rename_i present
    obtain ⟨old, there, own⟩ := List.any_eq_true.mp present
    have known : ∃ old ∈ peers, old.publicKey = publicKey := ⟨old, there, by simpa using own⟩
    rw [mapped, and_iff_right known]
  · rename_i absent
    have unknown : ¬ ∃ old ∈ peers, old.publicKey = publicKey := by
      intro given
      obtain ⟨old, there, own⟩ := given
      exact absent (List.any_eq_true.mpr ⟨old, there, by simpa using own⟩)
    simp only [List.mem_append, mapped, unknown, false_and, false_or, List.mem_singleton, or_comm]

end Commands

/-- `wg set <interface> peer <publicKey> allowed-ips <allowed>`. -/
def set (interface : Interface) (publicKey : String) (allowed : List String) : Interface where
  peers := setPeers interface.peers publicKey allowed
  keys := by
    unfold setPeers
    split
    · rw [changed_map_publicKey]
      exact interface.keys
    · rename_i absent
      rw [List.map_append, changed_map_publicKey]
      refine List.nodup_append.mpr ⟨interface.keys, by simp, ?_⟩
      rintro key there _ (_ | ⟨_, ⟨⟩⟩) rfl
      obtain ⟨peer, member, own⟩ := List.mem_map.mp there
      exact absent (List.any_eq_true.mpr ⟨peer, member, by simpa using own⟩)
  exclusive := by
    intro left leftThere right rightThere different
    rcases mem_setPeers.mp leftThere with rfl | ⟨oldLeft, leftOld, _, rfl⟩ <;>
      rcases mem_setPeers.mp rightThere with rfl | ⟨oldRight, rightOld, _, rfl⟩
    · exact absurd rfl different
    · rw [allowedSlots_shown, allowedSlots_without]
      exact disjoint_sdiff_self_right
    · rw [allowedSlots_shown, allowedSlots_without]
      exact disjoint_sdiff_self_left
    · rw [allowedSlots_without, allowedSlots_without]
      have apart := interface.exclusive oldLeft leftOld oldRight rightOld different
      exact apart.mono sdiff_le sdiff_le

/-- `wg set <interface> peer <publicKey> remove`. -/
def remove (interface : Interface) (publicKey : String) : Interface where
  peers := removePeers interface.peers publicKey
  keys := List.Nodup.sublist (List.filter_sublist.map _) interface.keys
  exclusive := by
    intro left leftThere right rightThere different
    exact interface.exclusive left (List.mem_of_mem_filter leftThere) right
      (List.mem_of_mem_filter rightThere) different

/-- Every add and update, then every remove, and none of the commands fails. -/
def execute (interface : Interface) (plan : ReconcilePlan) : Interface :=
  plan.remove.foldl remove
    ((plan.add ++ plan.update).foldl (fun reached peer => reached.set peer.publicKey peer.allowedIps)
      interface)

-----------------------------------------------------------------------------------------
-- The interface as a ledger
-----------------------------------------------------------------------------------------

/-- Who is there with which allowed-ips. -/
def ledger (interface : Interface) : Ledger String AllowedIp :=
  fun publicKey =>
    (interface.peers.find? (·.publicKey == publicKey)).map
    (fun peer => allowedSlots peer.allowedIps)

/-- What setting a desired peer claims. -/
def claim (peer : GatewayPeer) : Claim String AllowedIp :=
  ⟨peer.publicKey, allowedSlots peer.allowedIps⟩

section Ledger

variable {interface : Interface} {peer : LivePeer} {publicKey : String} {allowed : List String}
  {slots : Set AllowedIp}

/-- Each key is there once. -/
theorem peer_unique {left right : LivePeer} (leftThere : left ∈ interface.peers)
    (rightThere : right ∈ interface.peers) (same : left.publicKey = right.publicKey)
    : left = right :=
  List.inj_on_of_nodup_map interface.keys leftThere rightThere same

theorem find?_peer (there : peer ∈ interface.peers)
    : interface.peers.find? (·.publicKey == peer.publicKey) = some peer := by
  cases found : interface.peers.find? (·.publicKey == peer.publicKey) with
  | none => exact absurd (by simp) (List.find?_eq_none.mp found peer there)
  | some other =>
      have same : other.publicKey = peer.publicKey := by simpa using List.find?_some found
      rw [peer_unique (List.mem_of_find?_eq_some found) there same]

/-- The first peer of a key is its last one as well. -/
theorem liveByKey_eq
    : liveByKey interface.peers publicKey
      = interface.peers.find? (·.publicKey == publicKey) := by
  unfold liveByKey
  cases found : interface.peers.find? (·.publicKey == publicKey) with
  | none =>
      rw [List.find?_eq_none] at found ⊢
      exact fun peer there => found peer (List.mem_reverse.mp there)
  | some peer =>
      have there := List.mem_of_find?_eq_some found
      have own : peer.publicKey = publicKey := by simpa using List.find?_some found
      cases last : interface.peers.reverse.find? (·.publicKey == publicKey) with
      | none =>
          exact absurd (by simpa using own)
            (List.find?_eq_none.mp last peer (List.mem_reverse.mpr there))
      | some other =>
          have otherOwn : other.publicKey = publicKey := by simpa using List.find?_some last
          rw [peer_unique (List.mem_reverse.mp (List.mem_of_find?_eq_some last)) there
            (otherOwn.trans own.symm)]

theorem ledger_eq_some
    : interface.ledger publicKey = some slots
      ↔ ∃ peer ∈ interface.peers, peer.publicKey = publicKey
          ∧ allowedSlots peer.allowedIps = slots := by
  unfold ledger
  rw [Option.map_eq_some_iff]
  constructor
  · intro given
    obtain ⟨peer, found, same⟩ := given
    exact ⟨peer, List.mem_of_find?_eq_some found, by simpa using List.find?_some found, same⟩
  · intro given
    obtain ⟨peer, there, rfl, same⟩ := given
    exact ⟨peer, find?_peer there, same⟩

theorem ledger_eq_none
    : interface.ledger publicKey = none ↔ ∀ peer ∈ interface.peers, peer.publicKey ≠ publicKey := by
  unfold ledger
  rw [Option.map_eq_none_iff, List.find?_eq_none]
  simp

theorem ledger_peer (there : peer ∈ interface.peers)
    : interface.ledger peer.publicKey = some (allowedSlots peer.allowedIps) :=
  ledger_eq_some.mpr ⟨peer, there, rfl, rfl⟩

/-- The ledger of an interface is exclusive. -/
theorem ledger_exclusive : interface.ledger.Exclusive := by
  intro left right slot given facts
  obtain ⟨leftSlots, leftEntry, leftHolds⟩ := given
  obtain ⟨rightSlots, rightEntry, rightHolds⟩ := facts
  obtain ⟨leftPeer, leftThere, rfl, rfl⟩ := ledger_eq_some.mp leftEntry
  obtain ⟨rightPeer, rightThere, rfl, rfl⟩ := ledger_eq_some.mp rightEntry
  by_contra different
  exact Set.disjoint_left.mp
    (interface.exclusive leftPeer leftThere rightPeer rightThere different) leftHolds rightHolds

/-- Setting a peer is a claim. -/
theorem ledger_set
    : (interface.set publicKey allowed).ledger
      = interface.ledger.assign ⟨publicKey, allowedSlots allowed⟩ := by
  funext key
  unfold Ledger.assign
  split
  · rename_i own
    refine ledger_eq_some.mpr ⟨_, mem_setPeers.mpr (Or.inl rfl), own.symm, ?_⟩
    exact allowedSlots_shown allowed
  · rename_i different
    cases entry : interface.ledger key with
    | some slots =>
        obtain ⟨peer, there, rfl, rfl⟩ := ledger_eq_some.mp entry
        exact ledger_eq_some.mpr
          ⟨_, mem_setPeers.mpr (Or.inr ⟨peer, there, different, rfl⟩), rfl, allowedSlots_without⟩
    | none =>
        refine ledger_eq_none.mpr ?_
        intro peer there own
        rcases mem_setPeers.mp there with rfl | ⟨old, oldThere, _, rfl⟩
        · exact different own.symm
        · exact ledger_eq_none.mp entry old oldThere own

/-- Removing a peer is a deletion. -/
theorem ledger_remove
    : (interface.remove publicKey).ledger = interface.ledger.delete publicKey := by
  funext key
  unfold Ledger.delete
  split
  · rename_i own
    refine ledger_eq_none.mpr ?_
    intro peer there same
    have other := List.of_mem_filter there
    simp [same, own] at other
  · rename_i different
    cases entry : interface.ledger key with
    | some slots =>
        obtain ⟨peer, there, rfl, rfl⟩ := ledger_eq_some.mp entry
        exact ledger_eq_some.mpr
          ⟨peer, List.mem_filter.mpr ⟨there, by simpa using different⟩, rfl, rfl⟩
    | none =>
        refine ledger_eq_none.mpr ?_
        exact fun peer there => ledger_eq_none.mp entry peer (List.mem_of_mem_filter there)

/-- The commands of a plan are claims, and then deletions. -/
theorem ledger_execute {plan : ReconcilePlan}
    : (interface.execute plan).ledger
      = (interface.ledger.assignAll ((plan.add ++ plan.update).map claim)).deleteAll plan.remove := by
  have claims : ∀ (peers : List GatewayPeer) (reached : Interface),
      (peers.foldl (fun reached peer => reached.set peer.publicKey peer.allowedIps) reached).ledger
        = reached.ledger.assignAll (peers.map claim) := by
    intro peers
    induction peers with
    | nil => exact fun _ => rfl
    | cons peer rest ih =>
        intro reached
        refine (ih _).trans ?_
        rw [ledger_set]
        rfl
  have deletions : ∀ (keys : List String) (reached : Interface),
      (keys.foldl remove reached).ledger = reached.ledger.deleteAll keys := by
    intro keys
    induction keys with
    | nil => exact fun _ => rfl
    | cons key rest ih =>
        intro reached
        refine (ih _).trans ?_
        rw [ledger_remove]
        rfl
  rw [execute, deletions, claims]

end Ledger

end Interface

end WslVpn
