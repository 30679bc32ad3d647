import WslVpn.AddressSpace.Ip

/-! How blocks lie against the multiples of a unit, such as the 256 addresses of an octet: a
block smaller than the unit never crosses a multiple, and a larger one starts and ends at one.
-/

namespace AddressSpace

namespace Prefix

variable {width unit : Nat} {block : Prefix width}

/-- The highest address of the block, as a number. -/
def last (block : Prefix width) : Nat := block.base + block.size - 1

theorem base_le_of_contains {address : BitVec width} (inside : block.contains address = true)
    : block.base ≤ address.toNat :=
  (contains_iff_interval.mp inside).1

theorem le_last_of_contains {address : BitVec width} (inside : block.contains address = true)
    : address.toNat ≤ block.last := by
  have within := contains_iff_interval.mp inside
  rw [last]
  omega

/-- A block whose size divides the unit stays between two multiples of it. -/
theorem base_mod_add_size_le (fits : block.size ∣ unit) (positive : 0 < unit)
    : block.base % unit + block.size ≤ unit := by
  obtain ⟨count, rfl⟩ := fits
  have some : 0 < count := Nat.pos_of_mul_pos_left positive
  calc
    block.base % (block.size * count) + block.size
        = (block.index % count + 1) * block.size := by
          rw [base, Nat.mul_comm block.size count, Nat.mul_mod_mul_right]
          ring
    _ ≤ count * block.size := Nat.mul_le_mul_right _ (Nat.mod_lt _ some)
    _ = block.size * count := Nat.mul_comm _ _

/-- A block whose size is a multiple of the unit starts at one. -/
theorem base_mod_of_dvd (whole : unit ∣ block.size) : block.base % unit = 0 :=
  Nat.mod_eq_zero_of_dvd (Dvd.dvd.mul_left whole block.index)

/-- The number of an address behind the start of a block that stays between two multiples. -/
theorem mod_of_contains {address : BitVec width} (fits : block.size ∣ unit) (positive : 0 < unit)
    (inside : block.contains address = true)
    : address.toNat % unit = block.base % unit + (address.toNat - block.base) := by
  have within := contains_iff_interval.mp inside
  have room := base_mod_add_size_le fits positive
  obtain ⟨offset, place⟩ : ∃ offset, address.toNat = block.base + offset :=
    ⟨address.toNat - block.base, by omega⟩
  have short : block.base % unit + offset < unit := by omega
  rw [place, Nat.add_mod, Nat.mod_eq_of_lt (by omega : offset < unit), Nat.mod_eq_of_lt short]
  omega

/-- The addresses of a block are listed from the lowest to the highest. -/
theorem addresses_sorted (block : Prefix width)
    : block.addresses.Pairwise (fun lower higher => lower.toNat < higher.toNat) := by
  have room := block.base_add_size_le
  rw [addresses, List.pairwise_map]
  apply List.Pairwise.imp_of_mem _ (List.pairwise_lt_range' 1)
  intro lower higher first second ascending
  have low := List.mem_range'_1.mp first
  have high := List.mem_range'_1.mp second
  rw [BitVec.toNat_ofNat, BitVec.toNat_ofNat, Nat.mod_eq_of_lt (by omega),
    Nat.mod_eq_of_lt (by omega)]
  exact ascending

end Prefix

/-- What a search finds in a sorted list comes before everything else that it could have found,
by induction on the list.
-/
theorem find?_before {Item : Type} {before : Item → Item → Prop} {test : Item → Bool}
    {list : List Item} {found other : Item} (sorted : list.Pairwise before)
    (first : list.find? test = some found) (member : other ∈ list) (passes : test other = true)
    : other = found ∨ before found other := by
  induction list with
  | nil => cases member
  | cons head rest ih =>
      have ⟨below, ordered⟩ := List.pairwise_cons.mp sorted
      cases good : test head with
      | true =>
          have same : head = found := by simpa [good] using first
          cases List.mem_cons.mp member with
          | inl here => exact .inl (here.trans same)
          | inr there => exact .inr (same ▸ below other there)
      | false =>
          have later : rest.find? test = some found := by simpa [good] using first
          cases List.mem_cons.mp member with
          | inl here => simp [← here, passes] at good
          | inr there => exact ih ordered later there

end AddressSpace
