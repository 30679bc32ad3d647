import Mathlib.Data.List.Basic
import Mathlib.Order.Nat

/-! Text in units of sixteen bits, two of which stand for a character beyond the first plane, and the
units as bytes, the low one first.
-/

namespace Utf16

/-- The units of a character. -/
def unitsOf (char : Char) : List UInt16 :=
  if char.toNat < 0x10000 then [UInt16.ofNat char.toNat]
  else
    let above := char.toNat - 0x10000
    [UInt16.ofNat (0xd800 + above / 0x400), UInt16.ofNat (0xdc00 + above % 0x400)]

def units (text : List Char) : List UInt16 := text.flatMap unitsOf

/-- The text of the units, if each surrogate is one of a pair. -/
def decode : List UInt16 → Option (List Char)
  | [] => some []
  | unit :: rest =>
      if unit.toNat < 0xd800 ∨ 0xdfff < unit.toNat then
        (decode rest).map (Char.ofNat unit.toNat :: ·)
      else
        match rest with
        | [] => none
        | low :: rest =>
            if unit.toNat < 0xdc00 ∧ 0xdc00 ≤ low.toNat ∧ low.toNat ≤ 0xdfff then
              (decode rest).map
                (Char.ofNat (0x10000 + (unit.toNat - 0xd800) * 0x400 + (low.toNat - 0xdc00)) :: ·)
            else none

def littleEndian (unit : UInt16) : List UInt8 :=
  [UInt8.ofNat (unit.toNat % 256), UInt8.ofNat (unit.toNat / 256)]

/-- The units that the bytes are, if they are pairs. -/
def fromLittleEndian : List UInt8 → Option (List UInt16)
  | [] => some []
  | [_] => none
  | low :: high :: rest =>
      (fromLittleEndian rest).map (UInt16.ofNat (low.toNat + high.toNat * 256) :: ·)

-----------------------------------------------------------------------------------------
-- Characters
-----------------------------------------------------------------------------------------

/-- Where no character is: between the first plane's two parts, and beyond the last plane. -/
theorem char_cases (char : Char)
    : char.toNat < 0xd800 ∨ 0xdfff < char.toNat ∧ char.toNat < 0x110000 := by
  exact char.valid

theorem toNat_ofNat_of_lt {value : Nat} (small : value < 0x10000)
    : (UInt16.ofNat value).toNat = value := by
  rw [UInt16.toNat_ofNat', Nat.mod_eq_of_lt small]

/-- The units of a character stand for it. -/
theorem decode_unitsOf (char : Char) (rest : List UInt16)
    : decode (unitsOf char ++ rest) = (decode rest).map (char :: ·) := by
  by_cases plane : char.toNat < 0x10000
  · have one : (UInt16.ofNat char.toNat).toNat = char.toNat := toNat_ofNat_of_lt plane
    have lone : char.toNat < 0xd800 ∨ 0xdfff < char.toNat := by
      rcases char_cases char with low | ⟨high, _⟩
      · exact Or.inl low
      · exact Or.inr high
    rw [unitsOf, if_pos plane, List.singleton_append, decode.eq_def]
    simp only [one, if_pos lone, Char.ofNat_toNat]
  · have limit : char.toNat < 0x110000 := by
      rcases char_cases char with low | ⟨_, high⟩
      · omega
      · exact high
    have high : (UInt16.ofNat (0xd800 + (char.toNat - 0x10000) / 0x400)).toNat
        = 0xd800 + (char.toNat - 0x10000) / 0x400 := toNat_ofNat_of_lt (by omega)
    have low : (UInt16.ofNat (0xdc00 + (char.toNat - 0x10000) % 0x400)).toNat
        = 0xdc00 + (char.toNat - 0x10000) % 0x400 := toNat_ofNat_of_lt (by omega)
    have paired : ¬ (0xd800 + (char.toNat - 0x10000) / 0x400 < 0xd800
        ∨ 0xdfff < 0xd800 + (char.toNat - 0x10000) / 0x400) := by omega
    have both : 0xd800 + (char.toNat - 0x10000) / 0x400 < 0xdc00
        ∧ 0xdc00 ≤ 0xdc00 + (char.toNat - 0x10000) % 0x400
        ∧ 0xdc00 + (char.toNat - 0x10000) % 0x400 ≤ 0xdfff := by omega
    have whole : 0x10000 + (0xd800 + (char.toNat - 0x10000) / 0x400 - 0xd800) * 0x400
        + (0xdc00 + (char.toNat - 0x10000) % 0x400 - 0xdc00) = char.toNat := by omega
    rw [unitsOf, if_neg plane, List.cons_append, List.singleton_append, decode.eq_def]
    simp only [high, low, if_neg paired, if_pos both, whole, Char.ofNat_toNat]

/-- The units of a text stand for it, by induction on the text. -/
theorem decode_units (text : List Char) : decode (units text) = some text := by
  induction text with
  | nil => rfl
  | cons char rest ih =>
      rw [units, List.flatMap_cons, ← units, decode_unitsOf, ih]
      rfl

-----------------------------------------------------------------------------------------
-- Bytes
-----------------------------------------------------------------------------------------

theorem fromLittleEndian_cons (unit : UInt16) (rest : List UInt8)
    : fromLittleEndian (littleEndian unit ++ rest) = (fromLittleEndian rest).map (unit :: ·) := by
  have small := unit.toNat_lt
  have low : (UInt8.ofNat (unit.toNat % 256)).toNat = unit.toNat % 256 := by
    rw [UInt8.toNat_ofNat', Nat.mod_mod]
  have high : (UInt8.ofNat (unit.toNat / 256)).toNat = unit.toNat / 256 := by
    rw [UInt8.toNat_ofNat', Nat.mod_eq_of_lt (by omega)]
  have whole : unit.toNat % 256 + unit.toNat / 256 * 256 = unit.toNat := by omega
  rw [littleEndian, List.cons_append, List.singleton_append, fromLittleEndian, low, high, whole,
    UInt16.ofNat_toNat]

/-- The bytes of units stand for them, by induction on the units. -/
theorem fromLittleEndian_bytes (units : List UInt16)
    : fromLittleEndian (units.flatMap littleEndian) = some units := by
  induction units with
  | nil => rfl
  | cons unit rest ih =>
      rw [List.flatMap_cons, fromLittleEndian_cons, ih]
      rfl

end Utf16
