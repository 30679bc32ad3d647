import WslVpn.Gateway.Interface

/-! What a reconciliation does to peers that are not the gateway's. The plan removes none of them, but a
desired peer may have the key of one, or claim an address of one.
-/

namespace WslVpn

open AddressSpace Ownership

/-- The peer has no allowed-ips, or one that is no network inside the managed range. -/
def Foreign (peer : LivePeer) (managed : IpNetwork) : Prop :=
  peer.allowedIps = []
  ∨ ∃ raw ∈ peer.allowedIps, ∀ net, parseNetwork raw = some net → ¬ net.Subset managed

/-- The desired peers that need a command, in the order of the commands: those that are missing on the
interface, then those that are there with other allowed-ips.
-/
def commanded (desired : List GatewayPeer) (live : List LivePeer) : List GatewayPeer :=
  desired.filter (fun peer => (liveByKey live peer.publicKey).isNone)
  ++ desired.filter fun peer =>
    (liveByKey live peer.publicKey).any
      (fun existing => !sameAllowedIps peer.allowedIps existing.allowedIps)

/-- Of the commands that concern an address of the peer, by its key or by the address, the last one
gives the peer this address exactly when the peer had it.
-/
def Spares (commands : List GatewayPeer) (peer : LivePeer) : Prop :=
  ∀ slot, (∃ command ∈ commands, (Interface.claim command).Touches peer.publicKey slot)
    → (Ledger.Gives (commands.map Interface.claim) peer.publicKey slot
      ↔ slot ∈ allowedSlots peer.allowedIps)

section Foreign

variable {peer : LivePeer} {managed : IpNetwork} {desired : List GatewayPeer} {live : Interface}

theorem foreign_iff : Foreign peer managed ↔ isManaged peer managed = false := by
  rw [← Bool.not_eq_true, isManaged_iff, Foreign]
  constructor
  · rintro (empty | ⟨raw, member, outside⟩) ⟨nonempty, inside⟩
    · exact nonempty empty
    · obtain ⟨net, parsed, subset⟩ := inside raw member
      exact outside net parsed subset
  · intro unmanaged
    by_contra other
    obtain ⟨nonempty, inside⟩ := not_or.mp other
    refine unmanaged ⟨nonempty, ?_⟩
    intro raw member
    by_contra outside
    exact inside ⟨raw, member, fun net parsed subset => outside ⟨net, parsed, subset⟩⟩

/-- A foreign peer is not among those to remove. -/
theorem foreign_not_removed (there : peer ∈ live.peers) (foreign : Foreign peer managed)
    : peer.publicKey ∉ (plan desired live.peers (some managed)).remove := by
  intro removed
  obtain ⟨other, listed, same⟩ := List.mem_map.mp removed
  obtain ⟨member, condition⟩ := List.mem_filter.mp listed
  obtain rfl := Interface.peer_unique member there same
  rw [foreign_iff] at foreign
  simp [foreign] at condition

/-- What the interface holds for a foreign peer after the commands. -/
theorem foreign_ledger (there : peer ∈ live.peers) (foreign : Foreign peer managed)
    : (live.execute (plan desired live.peers (some managed))).ledger peer.publicKey
      = live.ledger.assignAll ((commanded desired live.peers).map Interface.claim) peer.publicKey := by
  rw [Interface.ledger_execute, Ledger.deleteAll_apply,
    if_neg (foreign_not_removed there foreign)]
  rfl

/-- The peer is there with the allowed-ips that it had exactly when the commands spare it. -/
theorem kept_iff_spares (there : peer ∈ live.peers) (foreign : Foreign peer managed)
    : (∃ kept ∈ (live.execute (plan desired live.peers (some managed))).peers,
        kept.publicKey = peer.publicKey
        ∧ allowedSlots kept.allowedIps = allowedSlots peer.allowedIps)
      ↔ Spares (commanded desired live.peers) peer := by
  have holds : ∀ slot,
      (live.ledger.assignAll ((commanded desired live.peers).map Interface.claim)).Holds
          peer.publicKey slot
        ↔ Ledger.Gives ((commanded desired live.peers).map Interface.claim) peer.publicKey slot
          ∨ ((∀ command ∈ commanded desired live.peers,
              ¬ (Interface.claim command).Touches peer.publicKey slot)
            ∧ slot ∈ allowedSlots peer.allowedIps) := by
    intro slot
    have before : live.ledger.Holds peer.publicKey slot ↔ slot ∈ allowedSlots peer.allowedIps := by
      simp only [Ledger.Holds, Interface.ledger_peer there, Option.some.injEq, exists_eq_left']
    rw [Ledger.holds_assignAll, before]
    simp only [List.forall_mem_map]
  have present : ∃ slots,
      live.ledger.assignAll ((commanded desired live.peers).map Interface.claim) peer.publicKey
        = some slots := by
    refine Option.isSome_iff_exists.mp (Ledger.isSome_assignAll ?_)
    rw [Interface.ledger_peer there]
    rfl
  obtain ⟨slots, entry⟩ := present
  have member : ∀ slot, slot ∈ slots
      ↔ (live.ledger.assignAll ((commanded desired live.peers).map Interface.claim)).Holds
          peer.publicKey slot := by
    intro slot
    simp only [Ledger.Holds, entry, Option.some.injEq, exists_eq_left']
  rw [← Interface.ledger_eq_some, foreign_ledger there foreign, entry, Option.some.injEq,
    Set.ext_iff]
  refine forall_congr' ?_
  intro slot
  rw [member, holds]
  by_cases touched : ∃ command ∈ commanded desired live.peers,
      (Interface.claim command).Touches peer.publicKey slot
  · have some : ¬ ∀ command ∈ commanded desired live.peers,
        ¬ (Interface.claim command).Touches peer.publicKey slot := by simpa using touched
    simp only [some, false_and, or_false, touched, forall_const]
  · have none : ∀ command ∈ commanded desired live.peers,
        ¬ (Interface.claim command).Touches peer.publicKey slot := by simpa using touched
    have gives : ¬ Ledger.Gives ((commanded desired live.peers).map Interface.claim)
        peer.publicKey slot := by
      intro given
      obtain ⟨before, claim, later, split, own, _⟩ := given
      obtain ⟨command, member, rfl⟩ := List.mem_map.mp (split ▸ List.mem_append_right before
        List.mem_cons_self : claim ∈ (commanded desired live.peers).map Interface.claim)
      exact none command member (Or.inl own)
    simp only [gives, touched, false_or, false_implies, iff_true]
    exact and_iff_right none

/-- Commands for other keys that claim none of its addresses spare a peer. -/
theorem spares_of_apart {commands : List GatewayPeer}
    (keys : ∀ command ∈ commands, command.publicKey ≠ peer.publicKey)
    (addresses
      : ∀ command ∈ commands,
          Disjoint (allowedSlots command.allowedIps) (allowedSlots peer.allowedIps))
    : Spares commands peer := by
  rintro slot ⟨command, member, own | named⟩
  · exact absurd own (keys command member)
  · constructor
    · intro given
      obtain ⟨before, claim, later, split, own, _⟩ := given
      obtain ⟨other, otherMember, rfl⟩ := List.mem_map.mp (split ▸ List.mem_append_right before
        List.mem_cons_self : claim ∈ commands.map Interface.claim)
      exact absurd own (keys other otherMember)
    · intro had
      exact absurd had (Set.disjoint_left.mp (addresses command member) named)

end Foreign

/-- All foreign peers are there with the allowed-ips that they had exactly when the commands for the
desired peers spare each of them.
-/
theorem foreign_untouched_iff {desired : List GatewayPeer} {live : Interface} {managed : IpNetwork}
    : (∀ peer ∈ live.peers, Foreign peer managed
        → ∃ kept ∈ (live.execute (plan desired live.peers (some managed))).peers,
            kept.publicKey = peer.publicKey
            ∧ allowedSlots kept.allowedIps = allowedSlots peer.allowedIps)
      ↔ ∀ peer ∈ live.peers, Foreign peer managed → Spares (commanded desired live.peers) peer :=
  forall₂_congr fun _ there =>
    forall_congr' fun foreign => kept_iff_spares there foreign

/-- A hub with one peer of its own. -/
def hubInterface : Interface where
  peers := [⟨"aHViLXBlZXItMDAwMDAwMDAwMDAwMDAwMDAwMDAwMDA=", ["10.8.0.15/32"]⟩]
  keys := by simp
  exclusive := by
    intro left leftThere right rightThere different
    rw [List.mem_singleton.mp leftThere, List.mem_singleton.mp rightThere] at different
    exact absurd rfl different

/-- A device that was registered with the key of the hub's peer. -/
def borrowedKey : GatewayPeer where
  peerId := 1
  publicKey := "aHViLXBlZXItMDAwMDAwMDAwMDAwMDAwMDAwMDAwMDA="
  allowedIps := ["10.8.1.5/32"]
  sessionId := 2
  expiresAt := 0

/-- The hub's peer is moved from its own address to that of the session. -/
theorem foreign_peer_moved
    : let managed : IpNetwork := .v4 ⟨BitVec.ofNat 32 0x0A080100, 24, by decide⟩
      Foreign ⟨"aHViLXBlZXItMDAwMDAwMDAwMDAwMDAwMDAwMDAwMDA=", ["10.8.0.15/32"]⟩ managed
      ∧ (hubInterface.execute (plan [borrowedKey] hubInterface.peers (some managed))).peers
        = [⟨"aHViLXBlZXItMDAwMDAwMDAwMDAwMDAwMDAwMDAwMDA=", ["10.8.1.5/32"]⟩] := by
  refine ⟨foreign_iff.mpr ?_, ?_⟩
  · decide
  · decide

end WslVpn
