import WslVpn.AddressSpace.Prefix

/-! IP addresses and networks of the two families. The families never mix: no address of one
is a member of a network of the other.
-/

namespace AddressSpace

inductive IpAddr where
  | v4 (address : BitVec 32)
  | v6 (address : BitVec 128)
  deriving DecidableEq

inductive IpNetwork where
  | v4 (block : Prefix 32)
  | v6 (block : Prefix 128)
  deriving DecidableEq

namespace IpAddr

def isIpv4 : IpAddr → Bool
  | .v4 _ => true
  | .v6 _ => false

/-- The four octets of an IPv4 address, most significant first. -/
def octets (address : BitVec 32) : List Nat :=
  [address.toNat / 2 ^ 24, address.toNat / 2 ^ 16 % 256, address.toNat / 2 ^ 8 % 256,
    address.toNat % 256]

/-- The IPv4 address with the given octets. -/
def ofOctets (a b c d : Nat) : BitVec 32 :=
  BitVec.ofNat 32 (a * 2 ^ 24 + b * 2 ^ 16 + c * 2 ^ 8 + d)

theorem ofOctets_octets (address : BitVec 32)
    : ofOctets (address.toNat / 2 ^ 24) (address.toNat / 2 ^ 16 % 256)
        (address.toNat / 2 ^ 8 % 256) (address.toNat % 256) = address := by
  have bound := address.isLt
  apply BitVec.eq_of_toNat_eq
  simp only [ofOctets, BitVec.toNat_ofNat]
  omega

end IpAddr

namespace IpNetwork

/-- The address of the network as it was written, host bits included. -/
def ip : IpNetwork → IpAddr
  | .v4 block => .v4 block.address
  | .v6 block => .v6 block.address

/-- The prefix length. -/
def prefixLength : IpNetwork → Nat
  | .v4 block => block.length
  | .v6 block => block.length

/-- The network of an address and a prefix length, if the length fits the family. -/
def new? (address : IpAddr) (length : Nat) : Option IpNetwork :=
  match address with
  | .v4 address => if fits : length ≤ 32 then some (.v4 ⟨address, length, fits⟩) else none
  | .v6 address => if fits : length ≤ 128 then some (.v6 ⟨address, length, fits⟩) else none

/-- The lowest address of the network. -/
def network : IpNetwork → IpAddr
  | .v4 block => .v4 block.network
  | .v6 block => .v6 block.network

def contains : IpNetwork → IpAddr → Bool
  | .v4 block, .v4 address => block.contains address
  | .v6 block, .v6 address => block.contains address
  | _, _ => false

/-- The network with all host bits cleared. -/
def canonical : IpNetwork → IpNetwork
  | .v4 block => .v4 block.canonical
  | .v6 block => .v6 block.canonical

/-- The addresses of the network from the lowest to the highest. -/
def iter : IpNetwork → List IpAddr
  | .v4 block => block.addresses.map .v4
  | .v6 block => block.addresses.map .v6

/-- Every address of `inner` is one of `outer`. -/
def Subset (inner outer : IpNetwork) : Prop :=
  ∀ address, inner.contains address = true → outer.contains address = true

/-- No address lies in both networks. -/
def Disjoint (left right : IpNetwork) : Prop :=
  ∀ address, ¬ (left.contains address = true ∧ right.contains address = true)

@[simp] theorem mem_iter {network : IpNetwork} {address : IpAddr}
    : address ∈ network.iter ↔ network.contains address = true := by
  cases network <;> cases address <;> simp [iter, contains]

theorem contains_network (network : IpNetwork) : network.contains network.network = true := by
  cases network <;> simp only [IpNetwork.network, contains, Prefix.contains_network]

theorem contains_ip (network : IpNetwork) : network.contains network.ip = true := by
  cases network <;> simp only [ip, contains, Prefix.contains_self]

/-- An IPv4 address with the full prefix is a block of that address alone. -/
theorem host_v4_subset {address : BitVec 32} {outer : IpNetwork}
    : (IpNetwork.v4 (.host address)).Subset outer ↔ outer.contains (.v4 address) = true := by
  constructor
  · intro subset
    exact subset _ (by simp [contains])
  · intro member other inside
    cases other with
    | v4 other =>
        simp only [contains, Prefix.host_contains] at inside
        rwa [inside]
    | v6 other => simp [contains] at inside

theorem subset_v4 {inner outer : Prefix 32}
    : (IpNetwork.v4 inner).Subset (.v4 outer) ↔ inner.Subset outer := by
  constructor
  · intro subset address member
    exact subset (.v4 address) member
  · intro subset address member
    cases address with
    | v4 address => exact subset address member
    | v6 address => simp [contains] at member

theorem subset_v6 {inner outer : Prefix 128}
    : (IpNetwork.v6 inner).Subset (.v6 outer) ↔ inner.Subset outer := by
  constructor
  · intro subset address member
    exact subset (.v6 address) member
  · intro subset address member
    cases address with
    | v4 address => simp [contains] at member
    | v6 address => exact subset address member

/-- Networks of different families are never included in each other: every block has a member. -/
theorem Subset.sameFamily {inner outer : IpNetwork} (subset : inner.Subset outer)
    : inner.ip.isIpv4 = outer.ip.isIpv4 := by
  have member := subset _ inner.contains_ip
  cases inner <;> cases outer <;> simp_all [contains, ip, IpAddr.isIpv4]

/-- Clearing the host bits leaves the same addresses. -/
@[simp] theorem canonical_contains (network : IpNetwork) (address : IpAddr)
    : network.canonical.contains address = network.contains address := by
  cases network <;> cases address <;> simp [canonical, contains]

theorem canonical_subset (network : IpNetwork) : network.canonical.Subset network := by
  intro address member
  rwa [canonical_contains] at member

@[simp] theorem canonical_subset_iff {inner outer : IpNetwork}
    : inner.canonical.Subset outer ↔ inner.Subset outer := by
  simp only [Subset, canonical_contains]

@[simp] theorem canonical_canonical (network : IpNetwork)
    : network.canonical.canonical = network.canonical := by
  cases network with
  | v4 block => exact congrArg IpNetwork.v4 block.canonical_canonical
  | v6 block => exact congrArg IpNetwork.v6 block.canonical_canonical

theorem Subset.trans {inner middle outer : IpNetwork} (first : inner.Subset middle)
    (second : middle.Subset outer)
    : inner.Subset outer :=
  fun address member => second address (first address member)

/-- A network keeps the address that it was made of. -/
theorem ip_of_new? {address : IpAddr} {length : Nat} {network : IpNetwork}
    (made : new? address length = some network)
    : network.ip = address := by
  cases address <;> simp only [new?] at made <;> split at made <;> cases made <;> rfl

/-- A network of a full prefix belongs to one address. -/
theorem new?_injective {left right : IpAddr} {length : Nat} {network : IpNetwork}
    (first : new? left length = some network) (second : new? right length = some network)
    : left = right :=
  (ip_of_new? first).symm.trans (ip_of_new? second)

/-- A block of 32 leading bits fits into the network: always for IPv4. -/
def Roomy : IpNetwork → Prop
  | .v4 _ => True
  | .v6 block => block.length ≤ 32

/-- The block of 32 leading bits of a member lies inside. -/
theorem subset_of_roomy {outer inner : IpNetwork} {address : IpAddr} (roomy : outer.Roomy)
    (member : outer.contains address = true) (made : new? address 32 = some inner)
    : inner.Subset outer := by
  cases outer with
  | v4 block =>
      cases address with
      | v4 address =>
          cases made
          exact subset_v4.mpr (Prefix.subset_of_contains block.length_le member)
      | v6 address => cases member
  | v6 block =>
      cases address with
      | v4 address => cases member
      | v6 address =>
          cases made
          exact subset_v6.mpr (Prefix.subset_of_contains roomy member)

end IpNetwork

end AddressSpace
