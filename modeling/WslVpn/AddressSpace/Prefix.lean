import Mathlib.Data.BitVec
import Mathlib.Tactic.Ring

/-! Address blocks: an address of a fixed width together with a prefix length.
The block of a prefix is the set of addresses that agree with it on the leading bits. The
address may have bits set behind the prefix; they play no part in membership.
-/

namespace AddressSpace

/-- An address with a prefix length that fits its width. -/
@[ext] structure Prefix (width : Nat) where
  address : BitVec width
  length : Nat
  length_le : length ≤ width
  deriving DecidableEq

namespace Prefix

variable {width : Nat}

/-- The number of addresses in the block. -/
def size (block : Prefix width) : Nat := 2 ^ (width - block.length)

/-- The index of the block among the blocks of its prefix length. -/
def index (block : Prefix width) : Nat := block.address.toNat / block.size

/-- The lowest address of the block, as a number. -/
def base (block : Prefix width) : Nat := block.index * block.size

/-- The address of the block with all host bits cleared. -/
def network (block : Prefix width) : BitVec width := BitVec.ofNat width block.base

/-- The block contains the address: both agree on the leading bits. -/
def contains (block : Prefix width) (address : BitVec width) : Bool :=
  address.toNat / block.size == block.index

/-- The block that holds one address only. -/
def host (address : BitVec width) : Prefix width := ⟨address, width, le_rfl⟩

/-- Every address of `inner` is one of `outer`. -/
def Subset (inner outer : Prefix width) : Prop :=
  ∀ address, inner.contains address = true → outer.contains address = true

/-- The lengths and the lowest address decide inclusion: see `covers_iff_subset`. -/
def covers (outer inner : Prefix width) : Bool :=
  decide (outer.length ≤ inner.length) && outer.contains inner.network

/-- No address lies in both blocks. -/
def Disjoint (left right : Prefix width) : Prop :=
  ∀ address, ¬ (left.contains address = true ∧ right.contains address = true)

theorem size_pos (block : Prefix width) : 0 < block.size := Nat.two_pow_pos _

theorem contains_iff {block : Prefix width} {address : BitVec width}
    : block.contains address = true ↔ address.toNat / block.size = block.index := by
  simp only [contains, beq_iff_eq]

/-- Blocks of one width divide each other, the longer prefix the finer block. -/
theorem size_dvd {coarse fine : Prefix width} (shorter : coarse.length ≤ fine.length)
    : coarse.size = fine.size * 2 ^ (fine.length - coarse.length) := by
  have fits := fine.length_le
  rw [size, size, ← pow_add]
  congr 1
  omega

theorem base_le (block : Prefix width) : block.base ≤ block.address.toNat :=
  Nat.div_mul_le_self _ _

theorem base_lt (block : Prefix width) : block.base < 2 ^ width :=
  lt_of_le_of_lt block.base_le block.address.isLt

@[simp] theorem network_toNat (block : Prefix width) : block.network.toNat = block.base := by
  simp [network, Nat.mod_eq_of_lt block.base_lt]

@[simp] theorem contains_self (block : Prefix width) : block.contains block.address = true :=
  contains_iff.mpr rfl

@[simp] theorem contains_network (block : Prefix width) : block.contains block.network = true := by
  simp [contains_iff, base, Nat.mul_div_cancel _ block.size_pos]

@[simp] theorem host_contains {address other : BitVec width}
    : (host address).contains other = true ↔ other = address := by
  simp [contains_iff, host, index, size, BitVec.toNat_inj]

/-- The last address of a block still fits the width. -/
theorem base_add_size_le (block : Prefix width) : block.base + block.size ≤ 2 ^ width := by
  have split : 2 ^ width = 2 ^ block.length * block.size := by
    rw [size, ← pow_add]
    congr 1
    have := block.length_le
    omega
  have below : block.index < 2 ^ block.length := by
    have := block.address.isLt
    rw [split] at this
    exact Nat.div_lt_of_lt_mul (by rwa [Nat.mul_comm] at this)
  calc
    block.base + block.size = (block.index + 1) * block.size := by rw [base]; ring
    _ ≤ 2 ^ block.length * block.size := Nat.mul_le_mul_right _ below
    _ = 2 ^ width := split.symm

/-- Membership as an interval. -/
theorem contains_iff_interval {block : Prefix width} {address : BitVec width}
    : block.contains address = true
      ↔ block.base ≤ address.toNat ∧ address.toNat < block.base + block.size := by
  rw [contains_iff, Nat.div_eq_iff block.size_pos, base]
  have := block.size_pos
  omega

/-- A coarser index is read off a finer one. -/
theorem div_size_of_finer {coarse fine : Prefix width} (shorter : coarse.length ≤ fine.length)
    (number : Nat)
    : number / coarse.size = number / fine.size / 2 ^ (fine.length - coarse.length) := by
  rw [size_dvd shorter, Nat.div_div_eq_div_mul]

/-- The comparison of lengths and of one address decides inclusion of the whole blocks. The
converse direction compares the first and the last address of the inner block.
-/
theorem covers_iff_subset {outer inner : Prefix width}
    : outer.covers inner = true ↔ inner.Subset outer := by
  constructor
  · intro covered address member
    simp only [covers, Bool.and_eq_true, decide_eq_true_eq] at covered
    obtain ⟨shorter, inside⟩ := covered
    rw [contains_iff] at inside member ⊢
    rw [← inside, div_size_of_finer shorter, div_size_of_finer shorter, member]
    have := (@contains_iff _ inner _).mp inner.contains_network
    rw [this]
  · intro subset
    simp only [covers, Bool.and_eq_true, decide_eq_true_eq]
    refine ⟨?_, subset _ inner.contains_network⟩
    have room := inner.base_add_size_le
    have positive := inner.size_pos
    let last : BitVec width := BitVec.ofNat width (inner.base + inner.size - 1)
    have lastNat : last.toNat = inner.base + inner.size - 1 := by
      simp only [last, BitVec.toNat_ofNat]
      exact Nat.mod_eq_of_lt (by omega)
    have lastIn : outer.contains last = true :=
      subset last (contains_iff_interval.mpr (by omega))
    have firstIn := subset _ inner.contains_network
    rw [contains_iff_interval] at lastIn firstIn
    rw [network_toNat] at firstIn
    have narrow : inner.size ≤ outer.size := by omega
    have exponents := (Nat.pow_le_pow_iff_right (by decide : 1 < 2)).mp narrow
    have := inner.length_le
    have := outer.length_le
    omega

theorem Subset.refl (block : Prefix width) : block.Subset block := fun _ member => member

theorem Subset.trans {inner middle outer : Prefix width} (first : inner.Subset middle)
    (second : middle.Subset outer)
    : inner.Subset outer :=
  fun address member => second address (first address member)

/-- A finer block of a member is included. -/
theorem subset_of_contains {outer inner : Prefix width} (shorter : outer.length ≤ inner.length)
    (member : outer.contains inner.address = true)
    : inner.Subset outer := by
  intro address inside
  rw [contains_iff] at member inside ⊢
  rw [← member, div_size_of_finer shorter, div_size_of_finer shorter, inside, index]

/-- The block with its host bits cleared. -/
def canonical (block : Prefix width)
    : Prefix width := ⟨block.network, block.length, block.length_le⟩

/-- Clearing the host bits leaves the same addresses. -/
@[simp] theorem canonical_contains {block : Prefix width} {address : BitVec width}
    : block.canonical.contains address = block.contains address := by
  have same : block.canonical.index = block.index := by
    simp only [index, canonical, network_toNat, base]
    exact Nat.mul_div_cancel _ block.size_pos
  rw [contains, contains, same]
  rfl

/-- Clearing the host bits twice is clearing them once. -/
@[simp] theorem canonical_canonical (block : Prefix width)
    : block.canonical.canonical = block.canonical := by
  apply Prefix.ext
  · apply BitVec.eq_of_toNat_eq
    simp only [canonical, network_toNat, base, index]
    change block.base / block.size * block.size = block.base
    rw [base, Nat.mul_div_cancel _ block.size_pos]
  · rfl

/-- The addresses of the block in ascending order. -/
def addresses (block : Prefix width) : List (BitVec width) :=
  (List.range' block.base block.size).map (BitVec.ofNat width)

@[simp] theorem mem_addresses {block : Prefix width} {address : BitVec width}
    : address ∈ block.addresses ↔ block.contains address = true := by
  have room := block.base_add_size_le
  simp only [addresses, List.mem_map, List.mem_range'_1, contains_iff_interval]
  constructor
  · intro given
    obtain ⟨number, within, rfl⟩ := given
    rwa [BitVec.toNat_ofNat, Nat.mod_eq_of_lt (by omega)]
  · intro within
    exact ⟨address.toNat, within, by simp⟩

/-- A single address is included exactly when it is a member. -/
@[simp] theorem host_subset {address : BitVec width} {outer : Prefix width}
    : (host address).Subset outer ↔ outer.contains address = true := by
  constructor
  · intro subset
    exact subset address (host_contains.mpr rfl)
  · intro member other same
    rwa [host_contains.mp same]

end Prefix

end AddressSpace
