import Mathlib.Data.List.Basic

/-! Readers that take a value off the front of a list of symbols, and the reading of one value after
the other until a place to stop.
-/

namespace Reading

variable {Symbol Value : Type}

/-- The value read, and what is left of the list. -/
abbrev Reader (Symbol Value : Type) := List Symbol → Option (Value × List Symbol)

/-- A value that was changed after it was read. -/
theorem of_map_eq_some {Other : Type} {change : Value → Other}
    {found : Option (Value × List Symbol)}
    {value : Other} {rest : List Symbol}
    (same : found.map (fun (value, left) => (change value, left)) = some (value, rest))
    : ∃ inner, found = some (inner, rest) ∧ change inner = value := by
  obtain ⟨⟨inner, left⟩, rfl, whole⟩ := Option.map_eq_some_iff.mp same
  cases whole
  exact ⟨inner, rfl, rfl⟩

/-- What a reader leaves is shorter. -/
def Shrinks (read : Reader Symbol Value) : Prop :=
  ∀ text value rest, read text = some (value, rest) → rest.length < text.length

/-- The values stand one after the other at the front of the list, up to a place to stop. -/
inductive Written (read : Reader Symbol Value) (stops : List Symbol → Bool)
    : List Value → List Symbol → List Symbol → Prop where
  | stop {rest : List Symbol} (here : stops rest = true) : Written read stops [] rest rest
  | next {value : Value} {values : List Value} {text more rest : List Symbol}
      (goesOn : stops text = false) (first : read text = some (value, more))
      (others : Written read stops values more rest)
      : Written read stops (value :: values) text rest

/-- At most so many values. -/
def upTo (read : Reader Symbol Value) (stops : List Symbol → Bool)
    : Nat → Reader Symbol (List Value)
  | 0, _ => none
  | count + 1, text =>
      if stops text then some ([], text)
      else do
        let (value, more) ← read text
        let (values, rest) ← upTo read stops count more
        some (value :: values, rest)

/-- All values up to the place to stop. -/
def many (read : Reader Symbol Value) (stops : List Symbol → Bool) : Reader Symbol (List Value) :=
  fun text => upTo read stops (text.length + 1) text

variable {read : Reader Symbol Value} {stops : List Symbol → Bool} {values : List Value}
  {text rest : List Symbol}

theorem written_of_upTo {count : Nat} (found : upTo read stops count text = some (values, rest))
    : Written read stops values text rest := by
  induction count generalizing text values with
  | zero => cases found
  | succ count ih =>
      rw [upTo] at found
      cases ends : stops text with
      | true =>
          rw [ends, if_pos rfl] at found
          cases found
          exact .stop ends
      | false =>
          rw [ends, if_neg Bool.false_ne_true] at found
          cases first : read text with
          | none => simp [first] at found
          | some taken =>
              obtain ⟨value, more⟩ := taken
              cases others : upTo read stops count more with
              | none => simp [first, others] at found
              | some read =>
                  simp only [first, others, Option.bind_eq_bind, Option.bind_some,
                    Option.some.injEq, Prod.mk.injEq] at found
                  obtain ⟨rfl, rfl⟩ := found
                  exact .next ends first (ih others)

theorem upTo_of_written {count : Nat} (written : Written read stops values text rest)
    (enough : values.length < count)
    : upTo read stops count text = some (values, rest) := by
  induction written generalizing count with
  | stop here =>
      obtain ⟨count, rfl⟩ := Nat.exists_eq_add_one_of_ne_zero (Nat.ne_zero_of_lt enough)
      rw [upTo, if_pos here]
  | next goesOn first others ih =>
      obtain ⟨count, rfl⟩ := Nat.exists_eq_add_one_of_ne_zero (Nat.ne_zero_of_lt enough)
      rw [upTo, goesOn, if_neg Bool.false_ne_true, first]
      simp [ih (Nat.lt_of_succ_lt_succ enough)]

/-- Each value takes a symbol. -/
theorem Written.length_le (written : Written read stops values text rest) (shrinks : Shrinks read)
    : values.length + rest.length ≤ text.length := by
  induction written with
  | stop here => simp
  | next goesOn first others ih =>
      have shorter := shrinks _ _ _ first
      rw [List.length_cons]
      omega

/-- What is read is what is written. -/
theorem many_eq_some (shrinks : Shrinks read)
    : many read stops text = some (values, rest) ↔ Written read stops values text rest := by
  constructor
  · exact written_of_upTo
  · intro written
    have bound := written.length_le shrinks
    exact upTo_of_written written (by omega)

theorem many_length_le (shrinks : Shrinks read) (found : many read stops text = some (values, rest))
    : rest.length ≤ text.length := by
  have bound := (written_of_upTo found).length_le shrinks
  omega

end Reading
