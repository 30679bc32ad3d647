import Mathlib.Data.List.Perm.Basic
import WslVpn.Gateway.Wg

/-! What a plan says of each peer, in terms of the networks that its allowed-ips are and of the
addresses in these.
-/

namespace WslVpn

open AddressSpace

/-- Both lists are networks, and the same ones: an address with a prefix length each. -/
def SameNetworks (desired live : List String) : Prop :=
  (∀ text ∈ desired ++ live, ∃ net, parseNetwork text = some net)
  ∧ {net | ∃ text ∈ desired, parseNetwork text = some net}
    = {net | ∃ text ∈ live, parseNetwork text = some net}

/-- The peer has allowed-ips, and each one is a network of which every address is in the range. -/
def InRange (peer : LivePeer) (range : IpNetwork) : Prop :=
  peer.allowedIps ≠ []
  ∧ ∀ text ∈ peer.allowedIps, ∃ net, parseNetwork text = some net
      ∧ ∀ address, net.contains address = true → range.contains address = true

/-- No desired peer has the key. -/
def Unwanted (desired : List GatewayPeer) (publicKey : String) : Prop :=
  ∀ peer ∈ desired, peer.publicKey ≠ publicKey

/-- Exactly one of three statements holds. -/
def OneOf (first second third : Prop) : Prop :=
  (first ∧ ¬ second ∧ ¬ third) ∨ (¬ first ∧ second ∧ ¬ third) ∨ (¬ first ∧ ¬ second ∧ third)

/-- A plan that sorts every peer to where it belongs, and says nothing of any other. -/
structure Exact (desired : List GatewayPeer) (live : List LivePeer) (managed : Option IpNetwork)
    (plan : ReconcilePlan) : Prop where
  once
    : ∀ peer ∈ desired, OneOf (peer ∈ plan.add) (peer ∈ plan.update) (peer ∈ plan.unchanged)
  everyDesired : (plan.add ++ plan.update ++ plan.unchanged).Perm desired
  unchanged
    : ∀ peer ∈ desired, peer ∈ plan.unchanged ↔
        ∃ existing ∈ live, existing.publicKey = peer.publicKey
          ∧ SameNetworks peer.allowedIps existing.allowedIps
  either
    : ∀ peer ∈ live, Unwanted desired peer.publicKey →
        Xor (peer.publicKey ∈ plan.remove) (peer.publicKey ∈ plan.foreign)
  onlyUnwanted
    : ∀ publicKey ∈ plan.remove ++ plan.foreign,
        Unwanted desired publicKey ∧ ∃ peer ∈ live, peer.publicKey = publicKey
  remove
    : ∀ peer ∈ live, Unwanted desired peer.publicKey →
        (peer.publicKey ∈ plan.remove ↔ ∃ range, managed = some range ∧ InRange peer range)

section Plan

variable {desired : List GatewayPeer} {live : List LivePeer} {managed : Option IpNetwork}
  {peer : LivePeer} {wanted : GatewayPeer}

theorem sameNetworks_iff {left right : List String}
    : sameAllowedIps left right = true ↔ SameNetworks left right := by
  rw [sameAllowedIps_iff, SameNetworks, Set.ext_iff]
  apply and_congr_right
  intro _
  apply forall_congr'
  intro net
  simp only [List.mem_map, Set.mem_ofPred_eq]

theorem inRange_iff {range : IpNetwork} : isManaged peer range = true ↔ InRange peer range :=
  isManaged_iff

/-- With distinct keys the map has the peer of a key. -/
theorem liveByKey_eq_some (distinct : (live.map LivePeer.publicKey).Nodup) {publicKey : String}
    : liveByKey live publicKey = some peer ↔ peer ∈ live ∧ peer.publicKey = publicKey := by
  rw [liveByKey]
  constructor
  · intro found
    exact ⟨List.mem_reverse.mp (List.mem_of_find?_eq_some found),
      by simpa using List.find?_some found⟩
  · intro ⟨there, same⟩
    cases found : live.reverse.find? (·.publicKey == publicKey) with
    | none =>
        have missing := List.find?_eq_none.mp found peer (List.mem_reverse.mpr there)
        simp [same] at missing
    | some other =>
        have listed := List.mem_reverse.mp (List.mem_of_find?_eq_some found)
        have key : other.publicKey = publicKey := by simpa using List.find?_some found
        rw [List.inj_on_of_nodup_map distinct listed there (key.trans same.symm)]

theorem unwanted_iff {publicKey : String}
    : (!desired.any (·.publicKey == publicKey)) = true ↔ Unwanted desired publicKey := by
  simp [Unwanted]

theorem managed_iff
    : managed.any (isManaged peer) = true ↔ ∃ range, managed = some range ∧ InRange peer range := by
  simp only [Option.any_eq_true, inRange_iff]

theorem unmanaged_iff
    : (!managed.any (isManaged peer)) = true
      ↔ ¬ ∃ range, managed = some range ∧ InRange peer range := by
  rw [Bool.not_eq_true', ← Bool.not_eq_true, managed_iff]

/-- Of a desired peer, the live peer of its key decides. -/
theorem plan_once (there : wanted ∈ desired)
    : OneOf (wanted ∈ (plan desired live managed).add) (wanted ∈ (plan desired live managed).update)
        (wanted ∈ (plan desired live managed).unchanged) := by
  simp only [plan, List.mem_filter, there, true_and, OneOf]
  cases liveByKey live wanted.publicKey with
  | none => simp
  | some existing => cases sameAllowedIps wanted.allowedIps existing.allowedIps <;> simp

/-- Three tests of which exactly one holds split a list, by induction on it. -/
theorem perm_of_tests {Item : Type} {first second third : Item → Bool} {items : List Item}
    (one : ∀ item, (first item, second item, third item)
      ∈ [(true, false, false), (false, true, false), (false, false, true)])
    : (items.filter first ++ items.filter second ++ items.filter third).Perm items := by
  induction items with
  | nil => exact .nil
  | cons head rest ih =>
      have case := one head
      simp only [List.mem_cons, Prod.mk.injEq, List.not_mem_nil, or_false] at case
      rcases case with ⟨yes, no, none⟩ | ⟨no, yes, none⟩ | ⟨no, none, yes⟩
      · simp only [List.filter_cons, yes, no, none, if_true, Bool.false_eq_true, if_false]
        exact ih.cons head
      · simp only [List.filter_cons, yes, no, none, if_true, Bool.false_eq_true, if_false]
        rw [List.append_assoc, List.cons_append]
        rw [List.append_assoc] at ih
        exact List.perm_middle.trans (ih.cons head)
      · simp only [List.filter_cons, yes, no, none, if_true, Bool.false_eq_true, if_false]
        exact List.perm_middle.trans (ih.cons head)

theorem plan_everyDesired
    : ((plan desired live managed).add ++ (plan desired live managed).update
        ++ (plan desired live managed).unchanged).Perm desired := by
  apply perm_of_tests
  intro wanted
  cases liveByKey live wanted.publicKey with
  | none => simp
  | some existing => cases sameAllowedIps wanted.allowedIps existing.allowedIps <;> simp

theorem mem_plan_unchanged (distinct : (live.map LivePeer.publicKey).Nodup)
    (there : wanted ∈ desired)
    : wanted ∈ (plan desired live managed).unchanged
      ↔ ∃ existing ∈ live, existing.publicKey = wanted.publicKey
          ∧ SameNetworks wanted.allowedIps existing.allowedIps := by
  simp only [plan, List.mem_filter, there, true_and, Option.any_eq_true, sameNetworks_iff,
    liveByKey_eq_some distinct, and_assoc]

/-- A key that is to be removed belongs to one live peer, which is unwanted and in the range. -/
theorem mem_plan_remove {publicKey : String}
    : publicKey ∈ (plan desired live managed).remove
      ↔ ∃ peer ∈ live, peer.publicKey = publicKey ∧ Unwanted desired publicKey
          ∧ ∃ range, managed = some range ∧ InRange peer range := by
  simp only [plan, List.mem_map, List.mem_filter, Bool.and_eq_true, unwanted_iff, managed_iff]
  constructor
  · intro ⟨peer, ⟨there, unwanted, range⟩, same⟩
    exact ⟨peer, there, same, same ▸ unwanted, range⟩
  · intro ⟨peer, there, same, unwanted, range⟩
    exact ⟨peer, ⟨there, same ▸ unwanted, range⟩, same⟩

theorem mem_plan_foreign {publicKey : String}
    : publicKey ∈ (plan desired live managed).foreign
      ↔ ∃ peer ∈ live, peer.publicKey = publicKey ∧ Unwanted desired publicKey
          ∧ ¬ ∃ range, managed = some range ∧ InRange peer range := by
  simp only [plan, List.mem_map, List.mem_filter, Bool.and_eq_true, unwanted_iff, unmanaged_iff]
  constructor
  · intro ⟨peer, ⟨there, unwanted, outside⟩, same⟩
    exact ⟨peer, there, same, same ▸ unwanted, outside⟩
  · intro ⟨peer, there, same, unwanted, outside⟩
    exact ⟨peer, ⟨there, same ▸ unwanted, outside⟩, same⟩

end Plan

/-- The plan is exact. -/
theorem plan_exact (desired : List GatewayPeer) (live : List LivePeer) (managed : Option IpNetwork)
    (distinct : (live.map LivePeer.publicKey).Nodup)
    : Exact desired live managed (plan desired live managed) := by
  have own {peer other : LivePeer} (there : peer ∈ live) (listed : other ∈ live)
      (same : other.publicKey = peer.publicKey) : other = peer :=
    List.inj_on_of_nodup_map distinct listed there same
  have remove (peer : LivePeer) (there : peer ∈ live) (unwanted : Unwanted desired peer.publicKey)
      : peer.publicKey ∈ (plan desired live managed).remove
        ↔ ∃ range, managed = some range ∧ InRange peer range := by
    rw [mem_plan_remove]
    constructor
    · intro ⟨other, listed, same, _, inside⟩
      exact own there listed same ▸ inside
    · intro inside
      exact ⟨peer, there, rfl, unwanted, inside⟩
  have foreign (peer : LivePeer) (there : peer ∈ live) (unwanted : Unwanted desired peer.publicKey)
      : peer.publicKey ∈ (plan desired live managed).foreign
        ↔ ¬ ∃ range, managed = some range ∧ InRange peer range := by
    rw [mem_plan_foreign]
    constructor
    · intro ⟨other, listed, same, _, outside⟩
      exact own there listed same ▸ outside
    · intro outside
      exact ⟨peer, there, rfl, unwanted, outside⟩
  exact {
    once := fun peer there => plan_once there
    everyDesired := plan_everyDesired
    unchanged := fun peer there => mem_plan_unchanged distinct there
    either := by
      intro peer there unwanted
      rw [remove peer there unwanted, foreign peer there unwanted]
      by_cases inside : ∃ range, managed = some range ∧ InRange peer range
      · exact .inl ⟨inside, not_not_intro inside⟩
      · exact .inr ⟨inside, inside⟩
    onlyUnwanted := by
      intro publicKey listed
      rcases List.mem_append.mp listed with removed | left
      · obtain ⟨peer, there, same, unwanted, _⟩ := mem_plan_remove.mp removed
        exact ⟨unwanted, peer, there, same⟩
      · obtain ⟨peer, there, same, unwanted, _⟩ := mem_plan_foreign.mp left
        exact ⟨unwanted, peer, there, same⟩
    remove
  }

/-- One peer is new, one has moved, and of the live ones one was left over and one is foreign. -/
theorem plan_exact_hub
    : let desired : List GatewayPeer := [⟨1, "new", ["10.8.1.10/32"], 2, 60⟩,
        ⟨3, "moved", ["10.8.1.11/32"], 4, 60⟩]
      let live : List LivePeer := [⟨"moved", ["10.8.1.99/32"]⟩, ⟨"left", ["10.8.1.5/32"]⟩,
        ⟨"hub", ["10.8.0.15/32"]⟩]
      let managed : Option IpNetwork := parseNetwork "10.8.1.0/24"
      Exact desired live managed (plan desired live managed) :=
  plan_exact _ _ _ (by decide)

end WslVpn
