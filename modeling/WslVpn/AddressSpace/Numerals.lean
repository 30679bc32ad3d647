import Mathlib.Data.List.Basic

/-! Reading and writing numbers in a radix up to sixteen.
The reader takes the longest run of digits, and what it accepts can be limited in length, in
leading zeros and in value.
-/

namespace AddressSpace

/-- The value of a digit in the given radix; letters of either case stand for ten and above. -/
def digitValue? (radix : Nat) (char : Char) : Option Nat :=
  let value :=
    if '0' ≤ char ∧ char ≤ '9' then some (char.toNat - 48)
    else if 'a' ≤ char ∧ char ≤ 'z' then some (char.toNat - 87)
    else if 'A' ≤ char ∧ char ≤ 'Z' then some (char.toNat - 55)
    else none
  value.filter (· < radix)

/-- The longest run of digits at the start of the text, and the text behind it. -/
def spanDigits (radix : Nat) : List Char → List Nat × List Char
  | [] => ([], [])
  | char :: rest =>
      match digitValue? radix char with
      | none => ([], char :: rest)
      | some digit => (digit :: (spanDigits radix rest).1, (spanDigits radix rest).2)

/-- The number that a list of digits denotes, most significant first. -/
def ofDigits (radix : Nat) (digits : List Nat) : Nat :=
  digits.foldl (fun number digit => number * radix + digit) 0

/-- Read a number below `limit` of at most `maxDigits` digits. Unless `zeroPrefix`, a number of
several digits may not start with a zero.
-/
def readNumber (radix maxDigits : Nat) (zeroPrefix : Bool) (limit : Nat) (text : List Char)
    : Option (Nat × List Char) :=
  let (digits, rest) := spanDigits radix text
  if digits.length = 0 ∨ maxDigits < digits.length then none
  else if !zeroPrefix && decide (1 < digits.length) && digits.head? == some 0 then none
  else if ofDigits radix digits < limit then some (ofDigits radix digits, rest)
  else none

/-- The text does not go on with a digit. -/
def StopsAt (radix : Nat) (text : List Char) : Prop :=
  ∀ char ∈ text.head?, digitValue? radix char = none

theorem digitValue?_digitChar {radix digit : Nat} (small : radix ≤ 16) (below : digit < radix)
    : digitValue? radix digit.digitChar = some digit := by
  have : digitValue? 16 digit.digitChar = some digit := by
    have bound : digit < 16 := by omega
    clear below small
    revert digit
    decide
  simp only [digitValue?, Option.filter_eq_some_iff, decide_eq_true_eq] at this ⊢
  exact ⟨this.1, below⟩

theorem spanDigits_stop {radix : Nat} {text : List Char} (stop : StopsAt radix text)
    : spanDigits radix text = ([], text) := by
  cases text with
  | nil => rfl
  | cons char rest => simp only [spanDigits, stop char rfl]

theorem spanDigits_append {radix : Nat} (small : radix ≤ 16) (digits : List Nat)
    (below : ∀ digit ∈ digits, digit < radix) {rest : List Char} (stop : StopsAt radix rest)
    : spanDigits radix (digits.map Nat.digitChar ++ rest) = (digits, rest) := by
  induction digits with
  | nil => exact spanDigits_stop stop
  | cons digit digits ih =>
      have tail := ih (fun other member => below other (List.mem_cons_of_mem _ member))
      have head := digitValue?_digitChar small (below digit List.mem_cons_self)
      simp only [List.map_cons, List.cons_append, spanDigits, head, tail]

theorem ofDigits_concat (radix : Nat) (digits : List Nat) (digit : Nat)
    : ofDigits radix (digits ++ [digit]) = ofDigits radix digits * radix + digit := by
  simp only [ofDigits, List.foldl_append, List.foldl_cons, List.foldl_nil]

/-- The written form of a number is a list of digits that denotes it. A leading zero occurs in
the numeral of zero only.
-/
theorem toDigits_spec {radix : Nat} (wide : 1 < radix) (number : Nat)
    : ∃ digits : List Nat,
        Nat.toDigits radix number = digits.map Nat.digitChar
        ∧ (∀ digit ∈ digits, digit < radix)
        ∧ ofDigits radix digits = number
        ∧ (digits.head? = some 0 → digits = [0])
        ∧ digits ≠ [] := by
  induction number using Nat.strongRecOn with
  | ind number ih =>
      by_cases small : number < radix
      · refine ⟨[number], ?_, ?_, ?_, ?_, by simp⟩
        · simp [Nat.toDigits_of_lt_base small]
        · simpa using small
        · simp [ofDigits]
        · simp
      · have large : radix ≤ number := by omega
        have positive : 0 < number / radix := Nat.div_pos large (by omega)
        obtain ⟨digits, written, below, value, leading, nonempty⟩ :=
          ih (number / radix) (Nat.div_lt_self (by omega) wide)
        refine ⟨digits ++ [number % radix], ?_, ?_, ?_, ?_, by simp⟩
        · rw [Nat.toDigits_of_base_le wide large, written]
          simp
        · intro digit member
          rcases List.mem_append.mp member with earlier | last
          · exact below digit earlier
          · rw [List.mem_singleton.mp last]
            exact Nat.mod_lt _ (by omega)
        · rw [ofDigits_concat, value, Nat.mul_comm, Nat.div_add_mod]
        · intro zero
          cases digits with
          | nil => exact absurd rfl nonempty
          | cons first others =>
              have only := leading (by simpa using zero)
              rw [only] at value
              simp [ofDigits] at value
              omega

/-- A numeral is of digits of its radix. -/
theorem toDigits_chars {radix : Nat} (wide : 1 < radix) {number : Nat} {char : Char}
    (member : char ∈ Nat.toDigits radix number)
    : ∃ digit < radix, char = digit.digitChar := by
  obtain ⟨digits, written, below, _⟩ := toDigits_spec wide number
  rw [written] at member
  obtain ⟨digit, isDigit, rfl⟩ := List.mem_map.mp member
  exact ⟨digit, below digit isDigit, rfl⟩

/-- A written number reads back, up to the first character that is no digit. -/
theorem readNumber_toDigits {radix maxDigits limit number : Nat} {zeroPrefix : Bool}
    (wide : 1 < radix) (small : radix ≤ 16) (below : number < limit)
    (short : (Nat.toDigits radix number).length ≤ maxDigits) {rest : List Char}
    (stop : StopsAt radix rest)
    : readNumber radix maxDigits zeroPrefix limit (Nat.toDigits radix number ++ rest)
      = some (number, rest) := by
  obtain ⟨digits, written, digitsBelow, value, leading, nonempty⟩ := toDigits_spec wide number
  rw [written] at short ⊢
  rw [List.length_map] at short
  have positive := List.length_pos_iff.mpr nonempty
  have zeroFree : ¬ ((!zeroPrefix && decide (1 < digits.length) && digits.head? == some 0) = true) := by
    intro prefixed
    simp only [Bool.and_eq_true, decide_eq_true_eq, beq_iff_eq] at prefixed
    rw [leading prefixed.2] at prefixed
    simp at prefixed
  simp only [readNumber, spanDigits_append small digits digitsBelow stop, value]
  rw [if_neg (by omega), if_neg zeroFree, if_pos below]

/-- A reader that accepts has taken at least one digit. -/
theorem readNumber_none_of_stop {radix maxDigits limit : Nat} {zeroPrefix : Bool}
    {text : List Char} (stop : StopsAt radix text)
    : readNumber radix maxDigits zeroPrefix limit text = none := by
  simp [readNumber, spanDigits_stop stop]

end AddressSpace
