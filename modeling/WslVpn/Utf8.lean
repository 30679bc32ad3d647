import Mathlib.Data.List.Basic

/-! Text as the bytes of its encoding. -/

namespace Utf8

/-- The bytes of the text. -/
def encode (text : List Char) : List UInt8 := text.flatMap String.utf8EncodeChar

theorem encode_append (first second : List Char)
    : encode (first ++ second) = encode first ++ encode second :=
  List.flatMap_append

/-- The encoding of a text begins with that of another one when the text does. -/
theorem encode_prefix {start text : List Char} : encode start <+: encode text ↔ start <+: text := by
  constructor
  · intro starts
    obtain ⟨rest, same⟩ := starts
    refine List.isPrefix_of_utf8Encode_append_eq_utf8Encode rest.toByteArray ?_
    change (encode start).toByteArray ++ rest.toByteArray = (encode text).toByteArray
    rw [← same, List.toByteArray_append]
  · intro starts
    obtain ⟨rest, rfl⟩ := starts
    rw [encode_append]
    exact List.prefix_append _ _

theorem encode_injective : Function.Injective encode := by
  intro first second same
  have left : first <+: second := encode_prefix.mp (same ▸ List.prefix_rfl)
  have right : second <+: first := encode_prefix.mp (same ▸ List.prefix_rfl)
  exact left.eq_of_length (Nat.le_antisymm left.length_le right.length_le)

theorem bytes_toList (text : String) : text.toByteArray.data.toList = encode text.toList := by
  rw [← String.utf8Encode_toList]
  simp [List.utf8Encode, encode]

/-- A text of ASCII has a byte for each character. -/
theorem encode_ascii {text : List Char} (ascii : ∀ char ∈ text, char.toNat < 0x80)
    : encode text = text.map (fun char => UInt8.ofNat char.toNat) := by
  induction text with
  | nil => rfl
  | cons char rest ih =>
      obtain ⟨here, others⟩ := List.forall_mem_cons.mp ascii
      have single : String.utf8EncodeChar char = [UInt8.ofNat char.toNat] := by
        refine String.utf8EncodeChar_eq_singleton (Char.utf8Size_eq_one_iff.mpr ?_)
        exact UInt32.le_iff_toNat_le.mpr (Nat.lt_succ_iff.mp here)
      rw [encode, List.flatMap_cons, ← encode, ih others, List.map_cons, single]
      rfl

end Utf8
