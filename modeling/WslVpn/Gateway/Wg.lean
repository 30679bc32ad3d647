import Mathlib.Data.String.Basic
import WslVpn.Types

/-! Live WireGuard state and reconciliation planning. -/

namespace WslVpn

open AddressSpace

/-- A peer as reported by `wg show <interface> dump`. -/
structure LivePeer where
  publicKey : String
  allowedIps : List String
  deriving DecidableEq

/-- What the gateway intends to do to the interface this cycle. -/
structure ReconcilePlan where
  add : List GatewayPeer
  update : List GatewayPeer
  unchanged : List GatewayPeer
  remove : List String
  foreign : List String

namespace ReconcilePlan

def desiredCount (plan : ReconcilePlan) : Nat :=
  plan.add.length + plan.update.length + plan.unchanged.length

def isNoop (plan : ReconcilePlan) : Bool :=
  plan.add.isEmpty && plan.update.isEmpty && plan.remove.isEmpty

end ReconcilePlan

/-- `inner` is a subnet of `outer`, or equal to it. -/
def containsNetwork (outer inner : IpNetwork) : Bool :=
  match outer, inner with
  | .v4 _, .v4 _ | .v6 _, .v6 _ =>
      decide (outer.prefixLength ≤ inner.prefixLength) && outer.contains inner.network
  | _, _ => false

/-- The peer has allowed-ips, and all of them are networks inside `managed`. -/
def isManaged (peer : LivePeer) (managed : IpNetwork) : Bool :=
  if peer.allowedIps.isEmpty then false
  else peer.allowedIps.all fun raw =>
    match parseNetwork raw with
    | some net => containsNetwork managed net
    | none => false

/-- `Vec::dedup`: of equal neighbours one stays. -/
def dedup : List String → List String
  | [] => []
  | [text] => [text]
  | text :: next :: rest => if text = next then dedup (next :: rest) else text :: dedup (next :: rest)

/-- The networks in the one order and notation in which they are compared. -/
def normalise (ips : List String) : Option (List String) :=
  (ips.mapM parseNetwork).map fun nets =>
    dedup ((nets.map networkText).insertionSort (· ≤ ·))

/-- Text that is no network makes a difference, so that the desired state is applied again. -/
def sameAllowedIps (desired live : List String) : Bool :=
  match normalise desired, normalise live with
  | some desired, some live => desired == live
  | _, _ => false

/-- The map from keys to live peers keeps the last one of a key. -/
def liveByKey (live : List LivePeer) (publicKey : String) : Option LivePeer :=
  live.reverse.find? (·.publicKey == publicKey)

/-- Diff desired peers against live interface state. Without a managed range nothing is removed. -/
def plan (desired : List GatewayPeer) (live : List LivePeer) (managed : Option IpNetwork)
    : ReconcilePlan where
  add := desired.filter (fun peer => (liveByKey live peer.publicKey).isNone)
  update := desired.filter fun peer =>
    (liveByKey live peer.publicKey).any
      (fun existing => !sameAllowedIps peer.allowedIps existing.allowedIps)
  unchanged := desired.filter fun peer =>
    (liveByKey live peer.publicKey).any
      (fun existing => sameAllowedIps peer.allowedIps existing.allowedIps)
  remove := (live.filter fun peer =>
    !desired.any (·.publicKey == peer.publicKey) && managed.any (isManaged peer)).map (·.publicKey)
  foreign := (live.filter fun peer =>
    !desired.any (·.publicKey == peer.publicKey) && !managed.any (isManaged peer)).map (·.publicKey)

-----------------------------------------------------------------------------------------
-- What the comparisons decide
-----------------------------------------------------------------------------------------

/-- The comparison of lengths and of one address decides inclusion. -/
theorem containsNetwork_iff {outer inner : IpNetwork}
    : containsNetwork outer inner = true ↔ inner.Subset outer := by
  cases outer with
  | v4 outer =>
      cases inner with
      | v4 inner => exact Prefix.covers_iff_subset.trans IpNetwork.subset_v4.symm
      | v6 inner =>
          constructor
          · rintro ⟨⟩
          · intro subset
            cases subset.sameFamily
  | v6 outer =>
      cases inner with
      | v4 inner =>
          constructor
          · rintro ⟨⟩
          · intro subset
            cases subset.sameFamily
      | v6 inner => exact Prefix.covers_iff_subset.trans IpNetwork.subset_v6.symm

/-- The networks that a peer is allowed, where they all are networks. -/
theorem isManaged_iff {peer : LivePeer} {managed : IpNetwork}
    : isManaged peer managed = true
      ↔ peer.allowedIps ≠ []
        ∧ ∀ raw ∈ peer.allowedIps, ∃ net, parseNetwork raw = some net ∧ net.Subset managed := by
  have inside : ∀ raw, (match parseNetwork raw with
      | some net => containsNetwork managed net
      | none => false) = true ↔ ∃ net, parseNetwork raw = some net ∧ net.Subset managed := by
    intro raw
    cases parseNetwork raw with
    | none => simp
    | some net => simp [containsNetwork_iff]
  unfold isManaged
  split
  · rename_i empty
    simp [List.isEmpty_iff.mp empty]
  · rename_i nonempty
    simp only [List.isEmpty_iff] at nonempty
    simp [nonempty, inside]

section Compare

variable {texts left right : List String} {text : String}

@[simp] theorem mem_dedup : text ∈ dedup texts ↔ text ∈ texts := by
  fun_induction dedup texts with
  | case1 => rfl
  | case2 => rfl
  | case3 next rest ih => simp [ih]
  | case4 first next rest _ ih => simp [ih]

/-- Sorted texts are strictly sorted without their repetitions. -/
theorem dedup_pairwise (sorted : texts.Pairwise (· ≤ ·)) : (dedup texts).Pairwise (· < ·) := by
  fun_induction dedup texts with
  | case1 => exact List.Pairwise.nil
  | case2 => exact List.pairwise_singleton _ _
  | case3 next rest ih => exact ih (List.pairwise_cons.mp sorted).2
  | case4 first next rest different ih =>
      obtain ⟨least, tail⟩ := List.pairwise_cons.mp sorted
      refine List.pairwise_cons.mpr ⟨?_, ih tail⟩
      intro other member
      have below := least next List.mem_cons_self
      have above : next ≤ other := by
        rcases List.mem_cons.mp (mem_dedup.mp member) with rfl | later
        · exact le_rfl
        · exact (List.pairwise_cons.mp tail).1 other later
      exact lt_of_lt_of_le (lt_of_le_of_ne below different) above

/-- Sorted and without repetitions, lists are equal when they have the same elements. -/
theorem dedup_sorted_eq_iff
    : dedup (left.insertionSort (· ≤ ·)) = dedup (right.insertionSort (· ≤ ·))
      ↔ ∀ text, text ∈ left ↔ text ∈ right := by
  have members : ∀ (texts : List String) (text : String),
      text ∈ dedup (texts.insertionSort (· ≤ ·)) ↔ text ∈ texts :=
    fun texts text => mem_dedup.trans (List.mem_insertionSort _)
  constructor
  · intro same text
    rw [← members left, ← members right, same]
  · intro same
    have strict : ∀ texts : List String, (dedup (texts.insertionSort (· ≤ ·))).Pairwise (· < ·) :=
      fun texts => dedup_pairwise (List.pairwise_insertionSort _ _)
    have nodup : ∀ texts : List String, (dedup (texts.insertionSort (· ≤ ·))).Nodup :=
      fun texts => (strict texts).imp (fun below => ne_of_lt below)
    have perm := (List.perm_ext_iff_of_nodup (nodup left) (nodup right)).mpr
      (fun text => by rw [members, members, same])
    exact perm.eq_of_pairwise (fun _ _ _ _ first second => absurd first (lt_asymm second))
      (strict left) (strict right)

/-- A list parses when each of its texts does, by induction. -/
theorem mapM_parse {nets : List IpNetwork}
    : texts.mapM parseNetwork = some nets ↔ texts.map parseNetwork = nets.map some := by
  induction texts generalizing nets with
  | nil => cases nets <;> simp
  | cons text rest ih =>
      rw [List.mapM_cons]
      cases parsed : parseNetwork text with
      | none => cases nets <;> simp [parsed]
      | some net =>
          cases nets with
          | nil => cases rest.mapM parseNetwork <;> simp
          | cons first others =>
              cases tail : rest.mapM parseNetwork with
              | none =>
                  have unread : rest.map parseNetwork ≠ others.map some :=
                    fun same => by simpa [tail] using ih.mpr same
                  simp [parsed, unread]
              | some read =>
                  have same : read = others ↔ rest.map parseNetwork = others.map some := by
                    rw [← ih, tail, Option.some.injEq]
                  simp [parsed, same]

/-- Allowed-ips are the same when both sides are networks, and the same ones. -/
theorem sameAllowedIps_iff
    : sameAllowedIps left right = true
      ↔ (∀ text ∈ left ++ right, ∃ net, parseNetwork text = some net)
        ∧ ∀ net, some net ∈ left.map parseNetwork ↔ some net ∈ right.map parseNetwork := by
  have unread : ∀ texts : List String, texts.mapM parseNetwork = none
      → ¬ ∀ text ∈ texts, ∃ net, parseNetwork text = some net := by
    intro texts failed all
    have same : texts.map parseNetwork = (texts.filterMap parseNetwork).map some := by
      clear failed
      induction texts with
      | nil => rfl
      | cons text rest ih =>
          obtain ⟨net, read⟩ := all text List.mem_cons_self
          rw [List.map_cons, List.filterMap_cons_some read, List.map_cons, read,
            ih (fun other member => all other (List.mem_cons_of_mem _ member))]
    rw [mapM_parse.mpr same] at failed
    cases failed
  unfold sameAllowedIps normalise
  cases leftParsed : left.mapM parseNetwork with
  | none =>
      have missing := unread left leftParsed
      simp only [Option.map_none, Bool.false_eq_true, false_iff]
      exact fun same => missing (fun text member => same.1 text (List.mem_append_left _ member))
  | some ls =>
      cases rightParsed : right.mapM parseNetwork with
      | none =>
          have missing := unread right rightParsed
          simp only [Option.map_some, Option.map_none, Bool.false_eq_true, false_iff]
          exact fun same => missing (fun text member => same.1 text (List.mem_append_right _ member))
      | some rs =>
          rw [mapM_parse] at leftParsed rightParsed
          have read : ∀ text ∈ left ++ right, ∃ net, parseNetwork text = some net := by
            intro text member
            rw [List.mem_append] at member
            have parsed : parseNetwork text ∈ ls.map some ++ rs.map some := by
              rw [← leftParsed, ← rightParsed, ← List.map_append]
              exact List.mem_map_of_mem (List.mem_append.mpr member)
            rw [← List.map_append] at parsed
            obtain ⟨net, _, same⟩ := List.mem_map.mp parsed
            exact ⟨net, same.symm⟩
          have written : ∀ (nets : List IpNetwork) (net : IpNetwork),
              networkText net ∈ nets.map networkText ↔ some net ∈ nets.map some := by
            intro nets net
            rw [List.mem_map_of_injective (Option.some_injective _)]
            refine List.mem_map_of_injective ?_
            intro first second same
            simpa using congrArg parseNetwork same
          simp only [Option.map_some, beq_iff_eq, dedup_sorted_eq_iff, and_iff_right read,
            leftParsed,
            rightParsed]
          constructor
          · intro same net
            rw [← written ls, ← written rs]
            exact same _
          · intro same text
            constructor
            · intro member
              obtain ⟨net, _, rfl⟩ := List.mem_map.mp member
              exact (written rs net).mpr ((same net).mp ((written ls net).mp member))
            · intro member
              obtain ⟨net, _, rfl⟩ := List.mem_map.mp member
              exact (written ls net).mpr ((same net).mpr ((written rs net).mp member))

end Compare

end WslVpn
