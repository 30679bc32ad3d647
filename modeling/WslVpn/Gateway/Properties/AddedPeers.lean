import WslVpn.Gateway.Properties.AppliedVersion
import WslVpn.Gateway.Properties.PlanExact

/-! Whether a peer that an application adds can be removed again, and whether the firewall restricts
it. Both are up to the managed range of the configuration that is applied then, while the peers are served
out of the range of the network that the gateway belongs to now.
-/

namespace WslVpn

open AddressSpace

/-- Both texts are networks, and the first one lies in the second one. -/
def LiesIn (text range : String) : Prop :=
  ∃ net outer, parseNetwork text = some net ∧ parseNetwork range = some outer ∧ net.Subset outer

/-- Some application puts the peer on an interface that does not have it. -/
def Adds (cfg : GatewayConfigFile) (config : GatewayConfig) (peer : GatewayPeer) : Prop :=
  ∃ clock answers privateKey host,
    peer ∈ config.peers
    ∧ (∀ other ∈ host.interface.peers, other.publicKey ≠ peer.publicKey)
    ∧ ∃ wired ∈ (applyConfig cfg clock answers config privateKey host).2.interface.peers,
        wired.publicKey = peer.publicKey
        ∧ allowedSlots wired.allowedIps = allowedSlots peer.allowedIps

/-- When a configuration is applied, the peer is removed by each plan that does not desire it, as long as
it is on the wire with any of its addresses, and its traffic is subject to the default deny.
-/
structure Held (cfg : GatewayConfigFile) (config : GatewayConfig) (peer : GatewayPeer) : Prop where
  removable
    : ∀ (desired : List GatewayPeer) (live : List LivePeer), ∀ wired ∈ live,
        wired.publicKey = peer.publicKey → wired.allowedIps ≠ [] →
        allowedSlots wired.allowedIps ⊆ allowedSlots peer.allowedIps →
        Unwanted desired peer.publicKey →
          peer.publicKey
            ∈ (plan desired live (cfg.managedRange config.privateNetworkCidr)).remove
  denied
    : ∃ range, cfg.managedRange config.privateNetworkCidr = some range
        ∧ (∃ rules, render config.services config.routes (some (networkText range))
            = some (script (.returnForeign (networkText range) :: rules)))
        ∧ ∀ text ∈ peer.allowedIps, ∃ net, parseNetwork text = some net
            ∧ ∀ address, net.contains address = true → range.contains address = true

/-- No application of the configuration comes to a command for a peer. -/
def NeverApplied (cfg : GatewayConfigFile) (config : GatewayConfig) : Prop :=
  cfg.wireguard.manageInterface = false ∨ config.listenPort = 0
  ∨ ∃ peer ∈ config.peers, peer.publicKey = "" ∨ peer.allowedIps = []

/-- The range that the file gives, or else the network that the configuration is for. -/
def rangeText (cfg : GatewayConfigFile) (config : GatewayConfig) : String :=
  cfg.wireguard.managedRange.getD config.privateNetworkCidr

-----------------------------------------------------------------------------------------
-- The managed range
-----------------------------------------------------------------------------------------

section Range

variable {cfg : GatewayConfigFile} {config : GatewayConfig} {peer : GatewayPeer}
  {range : IpNetwork}

/-- What a peer on the wire has of networks inside the range lies inside the range. -/
theorem inRange_of_part {wired : LivePeer} (some : wired.allowedIps ≠ [])
    (part : allowedSlots wired.allowedIps ⊆ allowedSlots peer.allowedIps)
    (inside : ∀ text ∈ peer.allowedIps, ∃ net, parseNetwork text = .some net ∧ net.Subset range)
    : InRange wired range := by
  refine ⟨some, ?_⟩
  intro text member
  obtain ⟨own, ownMember, same⟩ :=
    mem_allowedSlots.mp (part (mem_allowedSlots.mpr ⟨text, member, rfl⟩))
  obtain ⟨net, read, subset⟩ := inside own ownMember
  rw [allowedSlot, read, allowedSlot] at same
  cases parsed : parseNetwork text with
  | none =>
      rw [parsed] at same
      cases same
  | some shown =>
      rw [parsed] at same
      have canonical : net.canonical = shown.canonical := AllowedIp.network.inj same
      refine ⟨shown, rfl, ?_⟩
      intro address there
      apply subset address
      rw [← IpNetwork.canonical_contains, canonical, IpNetwork.canonical_contains]
      exact there

/-- Inside the range in effect a peer is held. -/
theorem held_of_inside (effect : cfg.managedRange config.privateNetworkCidr = some range)
    (inside : ∀ text ∈ peer.allowedIps, ∃ net, parseNetwork text = some net ∧ net.Subset range)
    : Held cfg config peer := by
  constructor
  · intro desired live wired there same nonempty part unwanted
    apply mem_plan_remove.mpr
    exact ⟨wired, there, same, unwanted, range, effect, inRange_of_part nonempty part inside⟩
  · exact ⟨range, effect,
      ⟨(forwardChain config.services config.routes (networkText range)).tail, rfl⟩, inside⟩

/-- The range in effect, of a file that passes the checks. -/
theorem managedRange_text (valid : cfg.validate = .ok ()) (config : GatewayConfig)
    : cfg.managedRange config.privateNetworkCidr = parseNetwork (rangeText cfg config) := by
  cases own : cfg.wireguard.managedRange with
  | none =>
      rw [GatewayConfigFile.managedRange, rangeText, own, Option.bind_none, Option.none_or,
        Option.getD_none]
  | some text =>
      rw [rangeText, own, Option.getD_some]
      exact (GatewayConfigFile.managedRange_of_validate valid own config.privateNetworkCidr).2

/-- The addresses of a peer that is held lie in the range in effect, and the other way round. -/
theorem held_iff (valid : cfg.validate = .ok ()) (filled : peer.allowedIps ≠ [])
    : Held cfg config peer ↔ ∀ text ∈ peer.allowedIps, LiesIn text (rangeText cfg config) := by
  have effect := managedRange_text valid config
  constructor
  · intro held text listed
    obtain ⟨range, there, _, inside⟩ := held.denied
    obtain ⟨net, parsed, subset⟩ := inside text listed
    exact ⟨net, range, parsed, effect ▸ there, subset⟩
  · intro lies
    obtain ⟨first, listed⟩ := List.exists_mem_of_ne_nil _ filled
    obtain ⟨_, range, _, read, _⟩ := lies first listed
    refine held_of_inside (effect.trans read) ?_
    intro text listed
    obtain ⟨net, outer, parsed, also, subset⟩ := lies text listed
    obtain rfl := Option.some.inj (read.symm.trans also)
    exact ⟨net, parsed, subset⟩

end Range

-----------------------------------------------------------------------------------------
-- What can be added
-----------------------------------------------------------------------------------------

section Adds

variable {cfg : GatewayConfigFile} {config : GatewayConfig} {peer : GatewayPeer}

/-- What is added is a peer of a configuration that is applied. -/
theorem Adds.applied (adds : Adds cfg config peer)
    : peer ∈ config.peers ∧ ¬ NeverApplied cfg config := by
  obtain ⟨clock, answers, privateKey, host, member, absent, wired, there, same, _⟩ := adds
  refine ⟨member, ?_⟩
  have starts : Starts cfg clock answers.device config privateKey := by
    by_contra idle
    obtain ⟨kept, _⟩ := @applyConfig_idle cfg clock answers config privateKey host idle
    rw [kept] at there
    exact absent wired there same
  intro never
  rcases never with dry | zero | ⟨other, listed, unfit⟩
  · rw [starts.manages] at dry
    cases dry
  · exact starts.port zero
  · obtain ⟨index, found⟩ := List.getElem?_of_mem listed
    have fit := starts.peers index other found
    rcases unfit with noKey | noAddress
    · exact fit.key noKey
    · exact fit.addresses noAddress

end Adds

-----------------------------------------------------------------------------------------
-- The two ranges
-----------------------------------------------------------------------------------------

/-- In particular where the file's own range has the whole network in it. -/
theorem Adds.held_of_wider {cfg : GatewayConfigFile} {config : GatewayConfig} {peer : GatewayPeer}
    {range : String} (adds : Adds cfg config peer) (valid : cfg.validate = .ok ())
    (served : ∀ peer ∈ config.peers, ∀ text ∈ peer.allowedIps,
      LiesIn text config.privateNetworkCidr)
    (own : cfg.wireguard.managedRange = some range) (wider : LiesIn config.privateNetworkCidr range)
    (next : GatewayConfig) : Held cfg next peer := by
  obtain ⟨member, applied⟩ := adds.applied
  refine (held_iff valid (fun empty => applied (.inr (.inr ⟨peer, member, .inr empty⟩)))).mpr ?_
  intro text listed
  obtain ⟨net, outer, parsed, read, subset⟩ := served peer member text listed
  obtain ⟨same, whole, also, ranged, within⟩ := wider
  obtain rfl := Option.some.inj (read.symm.trans also)
  rw [rangeText, own]
  exact ⟨net, whole, parsed, ranged, subset.trans within⟩

-----------------------------------------------------------------------------------------
-- A range beside the network
-----------------------------------------------------------------------------------------

end WslVpn
