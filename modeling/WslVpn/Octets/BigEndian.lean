import Mathlib.Data.Nat.Digits.Defs

/-! Numbers as bytes, the most significant byte first, and the parts of a list of bytes. -/

namespace Octets

/-- The lowest bytes of a number, as many as the width says. -/
def bytes (width value : Nat) : List UInt8 :=
  (List.range width).reverse.map (fun place => UInt8.ofNat (value / 256 ^ place))

/-- The number that the bytes stand for. -/
def number (octets : List UInt8) : Nat := Nat.ofDigits 256 (octets.reverse.map UInt8.toNat)

/-- The part of a list from an offset on, if the list is long enough for it. -/
def slice {Symbol : Type} (buf : List Symbol) (start length : Nat) : Option (List Symbol) :=
  if start + length ≤ buf.length then some ((buf.drop start).take length) else none

section Numbers

variable {width value : Nat}

@[simp] theorem length_bytes : (bytes width value).length = width := by simp [bytes]

/-- As much of a number is read back as its bytes have room for, by induction on the width. -/
theorem number_bytes : number (bytes width value) = value % 256 ^ width := by
  have digits : (bytes width value).reverse.map UInt8.toNat
      = (List.range width).map (fun place => value / 256 ^ place % 256) := by
    simp [bytes, Function.comp_def]
  rw [number, digits]
  induction width with
  | zero => rw [pow_zero, Nat.mod_one]; rfl
  | succ width ih =>
      have shorter : (bytes width value).reverse.map UInt8.toNat
          = (List.range width).map (fun place => value / 256 ^ place % 256) := by
        simp [bytes, Function.comp_def]
      rw [List.range_succ, List.map_append, Nat.ofDigits_append, ih shorter, List.length_map,
        List.length_range, List.map_singleton, Nat.ofDigits_singleton, pow_succ, Nat.mod_mul]

theorem number_bytes_of_lt (fits : value < 256 ^ width) : number (bytes width value) = value := by
  rw [number_bytes, Nat.mod_eq_of_lt fits]

theorem number_lt (octets : List UInt8) : number octets < 256 ^ octets.length := by
  have small : ∀ digit ∈ octets.reverse.map UInt8.toNat, digit < 256 := by
    intro digit member
    obtain ⟨octet, _, rfl⟩ := List.mem_map.mp member
    exact octet.toNat_lt
  have below := Nat.ofDigits_lt_base_pow_length (by norm_num) small
  rwa [List.length_map, List.length_reverse] at below

end Numbers

section Slices

variable {Symbol : Type} {buf front part back : List Symbol} {start length : Nat}

theorem slice_append : slice (front ++ (part ++ back)) front.length part.length = some part := by
  rw [slice, if_pos (by simp), List.drop_left, List.take_left]

/-- A part that has been found lies in the list. -/
theorem slice_some (found : slice buf start length = some part)
    : part.length = length ∧ start + length ≤ buf.length ∧ part = (buf.drop start).take length := by
  unfold slice at found
  split at found
  · next inside =>
      cases found
      refine ⟨?_, inside, rfl⟩
      rw [List.length_take, List.length_drop]
      omega
  · cases found

end Slices

end Octets
