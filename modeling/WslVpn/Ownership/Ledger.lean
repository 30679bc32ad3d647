import Mathlib.Data.List.Induction
import Mathlib.Data.Set.Lattice
import Mathlib.Order.CompletePartialOrder

/-! Keys that hold slots, each slot held by one key at most. A claim gives a key exactly the slots that
it names and takes them away from every other key.
-/

namespace Ownership

variable {Key Slot : Type}

/-- Which keys are there, and which slots each of them holds. -/
abbrev Ledger (Key Slot : Type) := Key → Option (Set Slot)

/-- A key with the slots that it claims. -/
structure Claim (Key Slot : Type) where
  key : Key
  slots : Set Slot

/-- The claim concerns the slot of the key: it names the key, or it names the slot. -/
def Claim.Touches (claim : Claim Key Slot) (key : Key) (slot : Slot) : Prop :=
  claim.key = key ∨ slot ∈ claim.slots

namespace Ledger

/-- The key is there and holds the slot. -/
def Holds (ledger : Ledger Key Slot) (key : Key) (slot : Slot) : Prop :=
  ∃ slots, ledger key = some slots ∧ slot ∈ slots

/-- No slot is held by two keys. -/
def Exclusive (ledger : Ledger Key Slot) : Prop :=
  ∀ left right slot, ledger.Holds left slot → ledger.Holds right slot → left = right

/-- The last of the claims that concern the slot of the key gives it to the key. -/
def Gives (claims : List (Claim Key Slot)) (key : Key) (slot : Slot) : Prop :=
  ∃ before claim later, claims = before ++ claim :: later ∧ claim.key = key ∧ slot ∈ claim.slots
    ∧ ∀ other ∈ later, ¬ other.Touches key slot

/-- Claims of one key agree, and claims of different keys are apart. -/
structure Settled (claims : List (Claim Key Slot)) : Prop where
  agree
    : ∀ left ∈ claims, ∀ right ∈ claims, left.key = right.key → left.slots = right.slots
  apart
    : ∀ left ∈ claims, ∀ right ∈ claims, left.key ≠ right.key → Disjoint left.slots right.slots

-----------------------------------------------------------------------------------------
-- Who has the last word on a slot
-----------------------------------------------------------------------------------------

section Gives

variable {claim : Claim Key Slot} {claims : List (Claim Key Slot)} {key : Key} {slot : Slot}

/-- A last claim that concerns the slot of the key. -/
theorem gives_append_touching (touches : claim.Touches key slot)
    : Gives (claims ++ [claim]) key slot ↔ claim.key = key ∧ slot ∈ claim.slots := by
  constructor
  · intro given
    obtain ⟨before, giver, later, split, own, named, rest⟩ := given
    rcases List.eq_nil_or_concat later with rfl | ⟨init, last, rfl⟩
    · have same := (List.append_inj' split rfl).2
      cases same
      exact ⟨own, named⟩
    · obtain ⟨_, rfl⟩ : claims = before ++ giver :: init ∧ claim = last := by
        rw [List.concat_eq_append, ← List.cons_append, ← List.append_assoc] at split
        exact List.append_inj' split rfl |>.imp_right List.singleton_inj.mp
      exact absurd touches (rest claim (by simp))
  · intro given
    obtain ⟨own, named⟩ := given
    exact ⟨claims, claim, [], rfl, own, named, by simp⟩

/-- A last claim that does not concern the slot of the key. -/
theorem gives_append_idle (idle : ¬ claim.Touches key slot)
    : Gives (claims ++ [claim]) key slot ↔ Gives claims key slot := by
  constructor
  · intro given
    obtain ⟨before, giver, later, split, own, named, rest⟩ := given
    rcases List.eq_nil_or_concat later with rfl | ⟨init, last, rfl⟩
    · have same := (List.append_inj' split rfl).2
      cases same
      exact absurd (Or.inl own) idle
    · have front : claims = before ++ giver :: init := by
        rw [List.concat_eq_append, ← List.cons_append, ← List.append_assoc] at split
        exact (List.append_inj' split rfl).1
      exact ⟨before, giver, init, front, own, named,
        fun other member => rest other (by simp [member])⟩
  · intro given
    obtain ⟨before, giver, later, rfl, own, named, rest⟩ := given
    refine ⟨before, giver, later ++ [claim], by simp, own, named, ?_⟩
    intro other member
    rcases List.mem_append.mp member with old | new
    · exact rest other old
    · rwa [List.mem_singleton.mp new]

end Gives

-----------------------------------------------------------------------------------------
-- Claims and deletions
-----------------------------------------------------------------------------------------

section Operations

variable [DecidableEq Key]

/-- The key holds exactly these slots, and no other key holds any of them. -/
def assign (ledger : Ledger Key Slot) (claim : Claim Key Slot) : Ledger Key Slot :=
  fun other =>
    if other = claim.key then some claim.slots
    else (ledger other).map (· \ claim.slots)

/-- The key is gone, and its slots with it. -/
def delete (ledger : Ledger Key Slot) (key : Key) : Ledger Key Slot :=
  fun other => if other = key then none else ledger other

def assignAll (ledger : Ledger Key Slot) (claims : List (Claim Key Slot)) : Ledger Key Slot :=
  claims.foldl assign ledger

def deleteAll (ledger : Ledger Key Slot) (keys : List Key) : Ledger Key Slot :=
  keys.foldl delete ledger

variable {ledger : Ledger Key Slot} {claim : Claim Key Slot} {claims : List (Claim Key Slot)}
  {key other : Key} {slot : Slot} {keys : List Key}

theorem holds_assign
    : (ledger.assign claim).Holds key slot
      ↔ if key = claim.key then slot ∈ claim.slots
        else ledger.Holds key slot ∧ slot ∉ claim.slots := by
  unfold Holds assign
  split
  · simp
  · simp only [Option.map_eq_some_iff, exists_exists_and_eq_and, Set.mem_sdiff]
    constructor
    · intro given
      obtain ⟨slots, there, member, free⟩ := given
      exact ⟨⟨slots, there, member⟩, free⟩
    · intro given
      obtain ⟨⟨slots, there, member⟩, free⟩ := given
      exact ⟨slots, there, member, free⟩

@[simp] theorem assign_own : ledger.assign claim claim.key = some claim.slots := by
  simp [assign]

/-- A claim removes nobody. -/
theorem isSome_assign (there : (ledger key).isSome = true)
    : (ledger.assign claim key).isSome = true := by
  unfold assign
  split
  · rfl
  · simpa using there

/-- Whoever the claim does not concern keeps what it has. -/
theorem assign_other (different : key ≠ claim.key)
    (free : ∀ slot, ledger.Holds key slot → slot ∉ claim.slots)
    : ledger.assign claim key = ledger key := by
  rw [assign, if_neg different]
  cases there : ledger key with
  | none => rfl
  | some slots =>
      have apart : Disjoint slots claim.slots :=
        Set.disjoint_left.mpr (fun slot member => free slot ⟨slots, there, member⟩)
      rw [Option.map_some, apart.sdiff_eq_left]

theorem Exclusive.assign (exclusive : ledger.Exclusive) : (ledger.assign claim).Exclusive := by
  intro left right slot leftHolds rightHolds
  rw [holds_assign] at leftHolds rightHolds
  split at leftHolds <;> split at rightHolds
  · simp_all
  · exact absurd leftHolds rightHolds.2
  · exact absurd rightHolds leftHolds.2
  · exact exclusive left right slot leftHolds.1 rightHolds.1

theorem holds_delete
    : (ledger.delete key).Holds other slot ↔ other ≠ key ∧ ledger.Holds other slot := by
  unfold Holds delete
  split <;> simp_all

theorem Exclusive.delete (exclusive : ledger.Exclusive) : (ledger.delete key).Exclusive := by
  intro left right slot leftHolds rightHolds
  exact exclusive left right slot (holds_delete.mp leftHolds).2 (holds_delete.mp rightHolds).2

/-- The claims one after another, by induction on them. -/
theorem Exclusive.assignAll (exclusive : ledger.Exclusive)
    : (ledger.assignAll claims).Exclusive := by
  induction claims generalizing ledger with
  | nil => exact exclusive
  | cons claim rest ih => exact ih exclusive.assign

/-- Only the deleted keys are gone, by induction on them. -/
theorem deleteAll_apply (key : Key)
    : ledger.deleteAll keys key = if key ∈ keys then none else ledger key := by
  induction keys generalizing ledger with
  | nil => rfl
  | cons first rest ih =>
      change (ledger.delete first).deleteAll rest key = _
      rw [ih, delete]
      by_cases same : key = first <;> by_cases later : key ∈ rest <;> simp [same, later]

theorem isSome_assignAll (there : (ledger key).isSome = true)
    : (ledger.assignAll claims key).isSome = true := by
  induction claims generalizing ledger with
  | nil => exact there
  | cons claim rest ih => exact ih (isSome_assign there)

/-- After all claims a key holds what the last claim that concerns it gives, and else what it held
before, by induction on the claims from the last one on.
-/
theorem holds_assignAll
    : (ledger.assignAll claims).Holds key slot
      ↔ Gives claims key slot
        ∨ ((∀ claim ∈ claims, ¬ claim.Touches key slot) ∧ ledger.Holds key slot) := by
  induction claims using List.reverseRecOn with
  | nil =>
      have none : ¬ Gives ([] : List (Claim Key Slot)) key slot := by
        intro given
        obtain ⟨before, claim, later, split, _⟩ := given
        simp at split
      simp [assignAll, none]
  | append_singleton claims claim ih =>
      have last : ledger.assignAll (claims ++ [claim])
          = (ledger.assignAll claims).assign claim := by
        simp [assignAll]
      rw [last, holds_assign, ih]
      by_cases touches : claim.Touches key slot
      · rw [gives_append_touching touches]
        have some : ¬ ∀ other ∈ claims ++ [claim], ¬ other.Touches key slot :=
          fun all => all claim (by simp) touches
        simp only [some, false_and, or_false]
        split
        · rename_i own
          simp [own]
        · rename_i other
          have named := touches.resolve_left (Ne.symm other)
          simp [named, Ne.symm other]
      · rw [gives_append_idle touches]
        obtain ⟨different, free⟩ := not_or.mp touches
        rw [if_neg (Ne.symm different)]
        simp only [List.mem_append, List.mem_singleton, or_imp, forall_and,
          forall_eq, touches, not_false_eq_true, and_true, free]

/-- Nobody whom no claim concerns is affected, by induction on the claims. -/
theorem assignAll_other (different : ∀ claim ∈ claims, claim.key ≠ key)
    (free : ∀ claim ∈ claims, ∀ slot, ledger.Holds key slot → slot ∉ claim.slots)
    : ledger.assignAll claims key = ledger key := by
  induction claims generalizing ledger with
  | nil => rfl
  | cons claim rest ih =>
      have first : ledger.assign claim key = ledger key :=
        assign_other (Ne.symm (different claim List.mem_cons_self)) (free claim List.mem_cons_self)
      have holds : ∀ slot, (ledger.assign claim).Holds key slot ↔ ledger.Holds key slot := by
        intro slot
        rw [Holds, first, Holds]
      refine (ih (fun other later => different other (List.mem_cons_of_mem _ later)) ?_).trans first
      intro other later slot held
      exact free other (List.mem_cons_of_mem _ later) slot ((holds slot).mp held)

/-- Settled claims are all met in the end, by induction on them. -/
theorem Settled.assignAll (settled : Settled claims) (claimed : claim ∈ claims)
    : ledger.assignAll claims claim.key = some claim.slots := by
  have step : ∀ (rest : List (Claim Key Slot)) (reached : Ledger Key Slot),
      (∀ other ∈ rest, other ∈ claims) → (claim ∈ rest ∨ reached claim.key = some claim.slots)
        → reached.assignAll rest claim.key = some claim.slots := by
    intro rest
    induction rest with
    | nil => exact fun reached _ met => met.resolve_left (by simp)
    | cons first rest ih =>
        intro reached within met
        refine ih (reached.assign first)
          (fun other later => within other (List.mem_cons_of_mem _ later)) ?_
        have known := within first List.mem_cons_self
        by_cases own : claim.key = first.key
        · right
          rw [own, assign_own, settled.agree first known claim claimed own.symm]
        · rcases met with later | met
          · rcases List.mem_cons.mp later with rfl | later
            · exact absurd rfl own
            · exact Or.inl later
          · right
            rw [assign_other own, met]
            intro slot given
            obtain ⟨slots, there, member⟩ := given
            rw [met] at there
            cases there
            exact Set.disjoint_left.mp (settled.apart claim claimed first known own) member
  exact step claims ledger (fun _ member => member) (Or.inl claimed)

end Operations

end Ledger

end Ownership
