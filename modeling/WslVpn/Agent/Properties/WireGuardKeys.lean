import Mathlib
import WslVpn.Agent.ManagedConfig
import WslVpn.Crypto.Keys

/-! What passes for a key: the standard base64 of 32 bytes, and nothing else. A key of the interface has
a public key then.
-/

namespace WslVpn.Agent

open Dns (Text trim isWhitespace)
open Base64 (standard octets)
open Crypto (Primitives publicKeyFromPrivate generateWireguardKeypair)

/-- The check knows the symbols of the coding. -/
theorem base64Value_eq (char : Char) : base64Value char = standard.value char := by
  by_cases ascii : char.toNat < 128
  · have each : ∀ code < 128, base64Value (Char.ofNat code) = standard.value (Char.ofNat code) := by
      decide +kernel
    simpa only [Char.ofNat_toNat] using each char.toNat ascii
  · have low : ∀ symbol ∈ standard.symbols, symbol.toNat < 128 :=
      List.all_iff_forall_prop.mp (by decide +kernel)
    have foreign : char ∉ standard.symbols := fun member => ascii (low char member)
    have upper : char.isUpper = false := by
      simp only [Char.isUpper, UInt32.le_iff_toNat_le, decide_eq_false_iff_not]
      exact fun both => ascii (Nat.lt_of_le_of_lt both.2 (by decide))
    have lower : char.isLower = false := by
      simp only [Char.isLower, ge_iff_le, UInt32.le_iff_toNat_le, Bool.and_eq_false_iff,
        decide_eq_false_iff_not]
      exact Or.inr (fun le => ascii (Nat.lt_of_le_of_lt le (by decide)))
    have digit : char.isDigit = false := by
      simp only [Char.isDigit, ge_iff_le, UInt32.le_iff_toNat_le, Bool.and_eq_false_iff,
        decide_eq_false_iff_not]
      exact Or.inr (fun le => ascii (Nat.lt_of_le_of_lt le (by decide)))
    have plus : char ≠ '+' := by rintro rfl; exact ascii (by decide)
    have slash : char ≠ '/' := by rintro rfl; exact ascii (by decide)
    simp [base64Value, Base64.Coding.value, foreign, upper, lower, digit, plus, slash]

variable {value text : Text} {bytes : List UInt8}

theorem length_sextets_key (length : bytes.length = 32) : (Base64.sextets bytes).length = 43 := by
  rw [Base64.length_sextets, length]

/-- A key is 43 symbols and what fills up the last group. -/
theorem encode_key (length : bytes.length = 32)
    : standard.encode bytes = (Base64.sextets bytes).map standard.symbol ++ ['='] := by
  rw [Base64.Coding.encode, length_sextets_key length]
  rfl

theorem mapM_of_all {symbols : List Char}
    (known : ∀ char ∈ symbols, (base64Value char).isSome = true)
    : ∃ values, symbols.mapM standard.value = some values ∧ values.length = symbols.length
        ∧ symbols.getLast?.bind base64Value = values.getLast? := by
  induction symbols with
  | nil => exact ⟨[], rfl, rfl, rfl⟩
  | cons char symbols ih =>
      obtain ⟨here, others⟩ := List.forall_mem_cons.mp known
      obtain ⟨first, found⟩ := Option.isSome_iff_exists.mp here
      obtain ⟨values, read, length, last⟩ := ih others
      refine ⟨first :: values, ?_, congrArg (· + 1) length, ?_⟩
      · rw [List.mapM_cons, ← base64Value_eq, found, read]
        rfl
      · cases symbols with
        | nil =>
            cases read
            exact found
        | cons next symbols =>
            cases values with
            | nil => cases length
            | cons second values => rw [List.getLast?_cons_cons, last, List.getLast?_cons_cons]

/-- The check for a key passes for the code of 32 bytes only. -/
theorem isKey_iff
    : isKey value = true ↔ ∃ bytes : List UInt8, bytes.length = 32
      ∧ trim value = standard.encode bytes := by
  constructor
  · intro valid
    simp only [isKey, Bool.and_eq_true, decide_eq_true_eq, List.all_eq_true] at valid
    obtain ⟨⟨⟨length, symbols⟩, spare⟩, filled⟩ := valid
    obtain ⟨values, read, same, last⟩ := mapM_of_all symbols
    have count : values.length = 43 := by
      rw [same, List.length_take, length]
      rfl
    have whole : (octets values).isSome := by
      refine Base64.octets_isSome_iff.mpr (Or.inr (Or.inr ⟨by rw [count], ?_⟩))
      rw [last] at spare
      obtain ⟨final, there, clear⟩ := (Option.any_eq_true _ _).mp spare
      exact ⟨final, there, by simpa using clear⟩
    obtain ⟨bytes, made⟩ := Option.isSome_iff_exists.mp whole
    obtain ⟨text, small⟩ := Base64.Coding.map_symbol_of_mapM read
    have code := Base64.sextets_of_octets small made
    have long := Base64.length_sextets bytes
    rw [code, count] at long
    have length : bytes.length = 32 := by omega
    refine ⟨bytes, length, ?_⟩
    rw [encode_key length, code, text, ← filled, List.take_append_drop]
  · intro given
    obtain ⟨bytes, length, same⟩ := given
    have small := Base64.sextets_lt bytes
    have count := length_sextets_key length
    have symbols : ∀ char ∈ (Base64.sextets bytes).map standard.symbol,
        (base64Value char).isSome = true := by
      intro char member
      obtain ⟨value, there, rfl⟩ := List.mem_map.mp member
      rw [base64Value_eq, Base64.Coding.value_symbol (small value there)]
      rfl
    obtain ⟨values, read, _, last⟩ := mapM_of_all symbols
    rw [Base64.Coding.mapM_value_symbol small] at read
    cases read
    have clear :=
      Base64.octets_isSome_iff.mp (Option.isSome_iff_exists.mpr ⟨_, Base64.octets_sextets bytes⟩)
    rw [count] at clear
    have width : ((Base64.sextets bytes).map standard.symbol).length = 43 := by
      rw [List.length_map, count]
    obtain ⟨final, there, spare⟩ : ∃ last ∈ (Base64.sextets bytes).getLast?, last % 4 = 0 := by
      rcases clear with whole | ⟨two, _⟩ | ⟨_, clear⟩
      · cases whole
      · cases two
      · exact clear
    simp only [isKey, same, encode_key length, List.take_left' width, List.drop_left' width, last,
      List.length_append, width]
    simp only [Bool.and_eq_true, decide_eq_true_eq, List.all_eq_true]
    have passes : (Base64.sextets bytes).getLast?.any (· % 4 == 0) = true :=
      (Option.any_eq_true _ _).mpr ⟨final, there, by simpa using spare⟩
    exact ⟨⟨⟨rfl, symbols⟩, passes⟩, trivial⟩

/-- No blank is part of a code. -/
theorem trim_encode (bytes : List UInt8)
    : trim (standard.encode bytes) = standard.encode bytes := by
  have inside : ∀ char ∈ standard.encode bytes, isWhitespace char = false := by
    refine Base64.Coding.forall_mem_encode ?_
    decide +kernel
  refine Separated.trimBy_of_trimmed ⟨?_, ?_⟩
  · exact fun char first => inside char (List.mem_of_mem_head? first)
  · exact fun char last => inside char (List.mem_of_getLast? last)

theorem isKey_encode (bytes : Vector UInt8 32) : isKey (standard.encode bytes.toList) = true :=
  isKey_iff.mpr ⟨bytes.toList, bytes.length_toList, trim_encode _⟩

/-- The keys that are drawn pass the check. -/
theorem isKey_generated (primitives : Primitives) (secret : Vector UInt8 32)
    : isKey (generateWireguardKeypair primitives secret).privateKeyB64 = true
      ∧ isKey (generateWireguardKeypair primitives secret).publicKeyB64 = true :=
  ⟨isKey_encode secret, isKey_encode (primitives.publicKey secret)⟩

/-- A text has a public key just if it passes the check, and that key passes as well. -/
theorem publicKeyFromPrivate_cases (primitives : Primitives) (text : Text)
    : isKey text = false ∧ publicKeyFromPrivate primitives text = none
      ∨ isKey text = true
        ∧ ∃ key, publicKeyFromPrivate primitives text = some key ∧ isKey key = true := by
  cases valid : isKey text with
  | true =>
      obtain ⟨bytes, length, same⟩ := isKey_iff.mp valid
      refine Or.inr ⟨rfl, _, ?_, isKey_encode (primitives.publicKey ⟨bytes.toArray, length⟩)⟩
      rw [publicKeyFromPrivate, same, Base64.Coding.decode_encode]
      exact dif_pos length
  | false =>
      refine Or.inl ⟨rfl, ?_⟩
      rw [publicKeyFromPrivate]
      cases read : standard.decode (trim text) with
      | none => rfl
      | some bytes =>
          refine dif_neg ?_
          intro length
          have passes := isKey_iff.mpr ⟨bytes, length, Base64.Coding.decode_eq_some_iff.mp read⟩
          rw [valid] at passes
          cases passes

end WslVpn.Agent
