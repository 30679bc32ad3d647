import Mathlib.Data.Bool.AllAny
import Mathlib.Data.List.Infix
import Mathlib.Data.List.Nodup
import Mathlib.Order.Nat

/-! Bytes written with sixty-four symbols, six bits a symbol, and read back. -/

namespace Base64

/-- The symbols, and what fills up the last group if anything does. -/
structure Coding where
  symbols : List Char
  pad : Option Char
  length_symbols : symbols.length = 64
  nodup : symbols.Nodup
  unpadded : ∀ char ∈ pad, char ∉ symbols

/-- The six-bit values of the bytes, the spare bits of the last one clear. -/
def sextets : List UInt8 → List Nat
  | [] => []
  | [a] => [a.toNat / 4, a.toNat % 4 * 16]
  | [a, b] => [a.toNat / 4, a.toNat % 4 * 16 + b.toNat / 16, b.toNat % 16 * 4]
  | a :: b :: c :: rest =>
      a.toNat / 4 :: (a.toNat % 4 * 16 + b.toNat / 16) :: (b.toNat % 16 * 4 + c.toNat / 64)
        :: (c.toNat % 64) :: sextets rest

/-- The bytes of six-bit values: the spare bits of the last one have to be clear. -/
def octets : List Nat → Option (List UInt8)
  | [] => some []
  | [_] => none
  | [p, q] => if q % 16 = 0 then some [UInt8.ofNat (p * 4 + q / 16)] else none
  | [p, q, r] =>
      if r % 4 = 0 then
        some [UInt8.ofNat (p * 4 + q / 16), UInt8.ofNat (q % 16 * 16 + r / 4)]
      else none
  | p :: q :: r :: s :: rest =>
      (octets rest).map (fun later =>
        UInt8.ofNat (p * 4 + q / 16) :: UInt8.ofNat (q % 16 * 16 + r / 4)
          :: UInt8.ofNat (r % 4 * 64 + s) :: later)

namespace Coding

variable (coding : Coding)

def symbol (value : Nat) : Char := coding.symbols[value]?.getD 'A'

def value (char : Char) : Option Nat :=
  if char ∈ coding.symbols then some (coding.symbols.idxOf char) else none

/-- What is missing of a group of four. -/
def padding (count : Nat) : List Char :=
  coding.pad.elim [] (List.replicate ((4 - count % 4) % 4))

def encode (bytes : List UInt8) : List Char :=
  let values := sextets bytes
  values.map coding.symbol ++ coding.padding values.length

def decode (text : List Char) : Option (List UInt8) := do
  let body := text.takeWhile (fun char => some char ≠ coding.pad)
  let values ← body.mapM coding.value
  if text.drop body.length = coding.padding body.length then octets values else none

end Coding

-----------------------------------------------------------------------------------------
-- Six bits and eight
-----------------------------------------------------------------------------------------

section Values

theorem sextets_lt (bytes : List UInt8) : ∀ value ∈ sextets bytes, value < 64 := by
  fun_induction sextets bytes with
  | case1 => exact fun _ member => absurd member List.not_mem_nil
  | case2 a =>
      have := a.toNat_lt
      simp only [List.forall_mem_cons, List.not_mem_nil, false_imp_iff, implies_true, and_true]
      omega
  | case3 a b =>
      have := a.toNat_lt
      have := b.toNat_lt
      simp only [List.forall_mem_cons, List.not_mem_nil, false_imp_iff, implies_true, and_true]
      omega
  | case4 a b c rest ih =>
      have := a.toNat_lt
      have := b.toNat_lt
      have := c.toNat_lt
      simp only [List.forall_mem_cons]
      exact ⟨by omega, by omega, by omega, by omega, ih⟩

/-- A byte put together from its parts. -/
theorem ofNat_eq {byte : UInt8} {value : Nat} (same : value = byte.toNat)
    : UInt8.ofNat value = byte := by
  rw [same, UInt8.ofNat_toNat]

/-- The values of bytes stand for them, three bytes at a time. -/
theorem octets_sextets (bytes : List UInt8) : octets (sextets bytes) = some bytes := by
  fun_induction sextets bytes with
  | case1 => rfl
  | case2 a =>
      have whole : a.toNat / 4 * 4 + a.toNat % 4 * 16 / 16 = a.toNat := by omega
      have clear : a.toNat % 4 * 16 % 16 = 0 := by omega
      rw [octets, if_pos clear, ofNat_eq whole]
  | case3 a b =>
      have := b.toNat_lt
      have first : a.toNat / 4 * 4 + (a.toNat % 4 * 16 + b.toNat / 16) / 16 = a.toNat := by omega
      have second : (a.toNat % 4 * 16 + b.toNat / 16) % 16 * 16 + b.toNat % 16 * 4 / 4
          = b.toNat := by
        omega
      have clear : b.toNat % 16 * 4 % 4 = 0 := by omega
      rw [octets, if_pos clear, ofNat_eq first, ofNat_eq second]
  | case4 a b c rest ih =>
      have := b.toNat_lt
      have := c.toNat_lt
      have first : a.toNat / 4 * 4 + (a.toNat % 4 * 16 + b.toNat / 16) / 16 = a.toNat := by omega
      have second : (a.toNat % 4 * 16 + b.toNat / 16) % 16 * 16
          + (b.toNat % 16 * 4 + c.toNat / 64) / 4 = b.toNat := by omega
      have third : (b.toNat % 16 * 4 + c.toNat / 64) % 4 * 64 + c.toNat % 64 = c.toNat := by omega
      rw [octets, ih, Option.map_some, ofNat_eq first, ofNat_eq second, ofNat_eq third]

/-- Four symbols for three bytes, and one more than bytes for a rest. -/
theorem length_sextets (bytes : List UInt8)
    : (sextets bytes).length = (bytes.length * 4 + 2) / 3 := by
  fun_induction sextets bytes with
  | case1 => rfl
  | case2 => simp
  | case3 => simp
  | case4 a b c rest ih =>
      simp only [List.length_cons, ih]
      omega

theorem toNat_ofNat_of_lt {value : Nat} (small : value < 256)
    : (UInt8.ofNat value).toNat = value := by
  rw [UInt8.toNat_ofNat', Nat.mod_eq_of_lt small]

/-- Values that stand for bytes are the values of those, four values at a time. -/
theorem sextets_of_octets {values : List Nat} {bytes : List UInt8}
    (small : ∀ value ∈ values, value < 64) (read : octets values = some bytes)
    : sextets bytes = values := by
  fun_induction octets values generalizing bytes with
  | case1 =>
      cases read
      rfl
  | case2 => cases read
  | case3 p q clear =>
      cases read
      have := small p (by simp)
      have := small q (by simp)
      have byte : (UInt8.ofNat (p * 4 + q / 16)).toNat = p * 4 + q / 16 := toNat_ofNat_of_lt (by omega)
      simp only [sextets, byte, List.cons.injEq, and_true]
      omega
  | case4 => cases read
  | case5 p q r clear =>
      cases read
      have := small p (by simp)
      have := small q (by simp)
      have := small r (by simp)
      have first : (UInt8.ofNat (p * 4 + q / 16)).toNat = p * 4 + q / 16 := toNat_ofNat_of_lt (by omega)
      have second : (UInt8.ofNat (q % 16 * 16 + r / 4)).toNat = q % 16 * 16 + r / 4 :=
        toNat_ofNat_of_lt (by omega)
      simp only [sextets, first, second, List.cons.injEq, and_true]
      omega
  | case6 => cases read
  | case7 p q r s rest ih =>
      obtain ⟨later, found, rfl⟩ := Option.map_eq_some_iff.mp read
      have others := ih (fun value member => small value (by simp [member])) found
      have := small p (by simp)
      have := small q (by simp)
      have := small r (by simp)
      have := small s (by simp)
      have first : (UInt8.ofNat (p * 4 + q / 16)).toNat = p * 4 + q / 16 := toNat_ofNat_of_lt (by omega)
      have second : (UInt8.ofNat (q % 16 * 16 + r / 4)).toNat = q % 16 * 16 + r / 4 :=
        toNat_ofNat_of_lt (by omega)
      have third : (UInt8.ofNat (r % 4 * 64 + s)).toNat = r % 4 * 64 + s := toNat_ofNat_of_lt (by omega)
      simp only [sextets, first, second, third, others, List.cons.injEq, and_true]
      omega

/-- Which values stand for bytes: whole groups, and a rest whose spare bits are clear. -/
theorem octets_isSome_iff {values : List Nat}
    : (octets values).isSome
      ↔ values.length % 4 = 0
        ∨ values.length % 4 = 2 ∧ (∃ last ∈ values.getLast?, last % 16 = 0)
        ∨ values.length % 4 = 3 ∧ (∃ last ∈ values.getLast?, last % 4 = 0) := by
  fun_induction octets values with
  | case1 => simp
  | case2 => simp
  | case3 p q clear => simp [clear]
  | case4 p q set => simp [set]
  | case5 p q r clear => simp [clear]
  | case6 p q r set => simp [set]
  | case7 p q r s rest ih =>
      rw [Option.isSome_map, ih]
      cases rest with
      | nil => simp
      | cons next rest =>
          have same : (p :: q :: r :: s :: next :: rest).getLast? = (next :: rest).getLast? := by
            simp [List.getLast?_cons_cons]
          have length : (p :: q :: r :: s :: next :: rest).length = (next :: rest).length + 4 := rfl
          rw [same, length, Nat.add_mod_right]

end Values

namespace Coding

variable {coding : Coding}

-----------------------------------------------------------------------------------------
-- Symbols
-----------------------------------------------------------------------------------------

theorem symbol_mem {value : Nat} (small : value < 64) : coding.symbol value ∈ coding.symbols := by
  have inside : value < coding.symbols.length := coding.length_symbols ▸ small
  rw [symbol, List.getElem?_eq_getElem inside, Option.getD_some]
  exact List.getElem_mem inside

theorem value_symbol {value : Nat} (small : value < 64)
    : coding.value (coding.symbol value) = some value := by
  have inside : value < coding.symbols.length := coding.length_symbols ▸ small
  rw [Coding.value, if_pos (symbol_mem small), symbol, List.getElem?_eq_getElem inside,
    Option.getD_some, coding.nodup.idxOf_getElem]

theorem of_value {char : Char} {value : Nat} (read : coding.value char = some value)
    : coding.symbol value = char ∧ value < 64 := by
  rw [Coding.value] at read
  split at read
  · next known =>
      cases read
      have inside := List.idxOf_lt_length_of_mem known
      refine ⟨?_, coding.length_symbols ▸ inside⟩
      rw [symbol, List.getElem?_eq_getElem inside, Option.getD_some, List.getElem_idxOf]
  · cases read

theorem mapM_value_symbol {values : List Nat} (small : ∀ value ∈ values, value < 64)
    : (values.map coding.symbol).mapM coding.value = some values := by
  induction values with
  | nil => rfl
  | cons value values ih =>
      obtain ⟨here, others⟩ := List.forall_mem_cons.mp small
      simp [value_symbol here, ih others]

/-- Each character of a code is a symbol, or fills it up. -/
theorem mem_encode {bytes : List UInt8} {char : Char} (member : char ∈ coding.encode bytes)
    : char ∈ coding.symbols ∨ some char = coding.pad := by
  rcases List.mem_append.mp member with inside | filled
  · obtain ⟨value, there, rfl⟩ := List.mem_map.mp inside
    exact Or.inl (symbol_mem (sextets_lt bytes value there))
  · cases pad : coding.pad with
    | none => simp [padding, pad] at filled
    | some mark =>
        simp only [padding, pad, Option.elim_some] at filled
        exact Or.inr (congrArg some (List.eq_of_mem_replicate filled))

/-- What holds of the symbols, and of what fills up a code, holds throughout each code. -/
theorem forall_mem_encode {bytes : List UInt8} {Holds : Char → Prop} [DecidablePred Holds]
    (each : (coding.pad.toList ++ coding.symbols).all (fun char => Holds char) = true)
    : ∀ char ∈ coding.encode bytes, Holds char := by
  have holds := List.all_iff_forall_prop.mp each
  intro char member
  rcases mem_encode member with symbol | filled
  · exact holds char (List.mem_append_right _ symbol)
  · exact holds char (List.mem_append_left _ (Option.mem_toList.mpr filled.symm))

-----------------------------------------------------------------------------------------
-- Round trip
-----------------------------------------------------------------------------------------

/-- The padding begins where the symbols end. -/
theorem takeWhile_encode {values : List Nat} (small : ∀ value ∈ values, value < 64)
    : (values.map coding.symbol ++ coding.padding values.length).takeWhile
        (fun char => some char ≠ coding.pad)
      = values.map coding.symbol := by
  have ours : ∀ char ∈ values.map coding.symbol, decide (some char ≠ coding.pad) = true := by
    intro char member
    obtain ⟨value, there, rfl⟩ := List.mem_map.mp member
    refine decide_eq_true ?_
    intro same
    exact coding.unpadded _ same.symm (symbol_mem (small value there))
  rw [List.takeWhile_append_of_pos ours]
  cases pad : coding.pad with
  | none => simp [padding, pad]
  | some mark => simp [padding, pad]

/-- What is encoded is decoded. -/
theorem decode_encode (bytes : List UInt8) : coding.decode (coding.encode bytes) = some bytes := by
  have small := sextets_lt bytes
  have body := @takeWhile_encode coding _ small
  have filled : (coding.encode bytes).drop ((sextets bytes).map coding.symbol).length
      = coding.padding ((sextets bytes).map coding.symbol).length := by
    rw [encode, List.drop_left, List.length_map]
  rw [decode, encode, body, mapM_value_symbol small]
  exact (if_pos filled).trans (octets_sextets bytes)

theorem map_symbol_of_mapM {text : List Char} {values : List Nat}
    (read : text.mapM coding.value = some values)
    : values.map coding.symbol = text ∧ ∀ value ∈ values, value < 64 := by
  induction text generalizing values with
  | nil =>
      cases read
      exact ⟨rfl, fun _ member => absurd member List.not_mem_nil⟩
  | cons char text ih =>
      rw [List.mapM_cons] at read
      obtain ⟨first, here, read⟩ := Option.bind_eq_some_iff.mp read
      obtain ⟨others, later, made⟩ := Option.bind_eq_some_iff.mp read
      cases made
      obtain ⟨same, small⟩ := ih later
      obtain ⟨symbol, bound⟩ := of_value here
      exact ⟨by rw [List.map_cons, symbol, same], List.forall_mem_cons.mpr ⟨bound, small⟩⟩

/-- Only what is encoded is decoded. -/
theorem encode_of_decode {text : List Char} {bytes : List UInt8}
    (read : coding.decode text = some bytes)
    : coding.encode bytes = text := by
  obtain ⟨values, found, made⟩ := Option.bind_eq_some_iff.mp read
  obtain ⟨same, small⟩ := map_symbol_of_mapM found
  split at made
  · next filled =>
      have whole := sextets_of_octets small made
      have length : values.length = (text.takeWhile (fun char => some char ≠ coding.pad)).length := by
        rw [← same, List.length_map]
      rw [encode, whole, same, length, ← filled]
      exact (List.prefix_append_drop (List.takeWhile_prefix _)).symm
  · cases made

theorem decode_eq_some_iff {text : List Char} {bytes : List UInt8}
    : coding.decode text = some bytes ↔ text = coding.encode bytes := by
  constructor
  · exact fun read => (encode_of_decode read).symm
  · intro same
    rw [same, decode_encode]

theorem encode_injective : Function.Injective coding.encode := by
  intro first second same
  exact Option.some.inj (by rw [← @decode_encode coding first, same, decode_encode])

end Coding

-----------------------------------------------------------------------------------------
-- The two codings in use
-----------------------------------------------------------------------------------------

def alphanumeric : List Char :=
  "ABCDEFGHIJKLMNOPQRSTUVWXYZabcdefghijklmnopqrstuvwxyz0123456789".toList

/-- The standard coding, which fills up the last group. -/
def standard : Coding where
  symbols := alphanumeric ++ ['+', '/']
  pad := some '='
  length_symbols := by decide +kernel
  nodup := by decide +kernel
  unpadded := by
    intro char filling
    cases filling
    decide +kernel

/-- The coding for URLs, which does not. -/
def urlSafeNoPad : Coding where
  symbols := alphanumeric ++ ['-', '_']
  pad := none
  length_symbols := by decide +kernel
  nodup := by decide +kernel
  unpadded := fun _ inside => absurd inside (Option.not_mem_none _)

example : standard.encode [102, 111, 111, 98, 97] = "Zm9vYmE=".toList := by decide +kernel

end Base64
