import Mathlib.Data.List.Basic

/-! Lists of changes in which a later one wins: the last item that says anything about a field. -/

namespace Records

variable {Item Value : Type} {reads : Item → Option Value} {items : List Item} {value : Value}

/-- The item is the last one of the list that has the property. -/
def LastOf (property : Item → Prop) (items : List Item) (item : Item) : Prop :=
  ∃ before after, items = before ++ item :: after ∧ property item ∧ ∀ later ∈ after, ¬ property later

/-- What the last item says that says anything. -/
def latest (reads : Item → Option Value) (items : List Item) : Option Value :=
  items.reverse.findSome? reads

@[simp] theorem latest_nil : latest reads [] = none := rfl

@[simp] theorem latest_cons (item : Item)
    : latest reads (item :: items) = (latest reads items).or (reads item) := by
  simp [latest, List.findSome?_append]

theorem latest_eq_none : latest reads items = none ↔ ∀ item ∈ items, reads item = none := by
  simp [latest]

/-- By induction on the list, from its end. -/
theorem latest_eq_some
    : latest reads items = some value
      ↔ ∃ item, LastOf (fun item => (reads item).isSome) items item ∧ reads item = some value := by
  rw [latest, List.findSome?_eq_some_iff]
  constructor
  · intro found
    obtain ⟨after, item, before, split, here, silent⟩ := found
    refine ⟨item, ⟨before.reverse, after.reverse, ?_, by simp [here], ?_⟩, here⟩
    · simpa using congrArg List.reverse split
    · intro later member
      simp [silent later (List.mem_reverse.mp member)]
  · intro found
    obtain ⟨item, ⟨before, after, split, _, silent⟩, here⟩ := found
    refine ⟨after.reverse, item, before.reverse, by simp [split], here, ?_⟩
    intro later member
    simpa using silent later (List.mem_reverse.mp member)

theorem latest_append (others : List Item)
    : latest reads (items ++ others) = (latest reads others).or (latest reads items) := by
  simp [latest, List.findSome?_append]

-----------------------------------------------------------------------------------------
-- Changes that take others back
-----------------------------------------------------------------------------------------

/-- The last of the items that have the property gives what the last valid item gives, if there is one. -/
def Reaches (property : Item → Prop) (reads : Item → Option Value) (items : List Item) : Prop :=
  ∀ item value, LastOf (fun item => (reads item).isSome) items item → reads item = some value →
    ∃ other, LastOf property items other ∧ reads other = some value

/-- What the items that have the property are read for, be it nothing. -/
def overwrites (property : Item → Prop) [DecidablePred property] (reads : Item → Option Value)
    (item : Item) : Option (Option Value) :=
  if property item then some (reads item) else none

theorem latest_overwrites_eq_some {property : Item → Prop} [DecidablePred property]
    {read : Option Value}
    : latest (overwrites property reads) items = some read
      ↔ ∃ item, LastOf property items item ∧ reads item = read := by
  have same : ∀ item, (overwrites property reads item).isSome = true ↔ property item := by
    intro item
    by_cases holds : property item <;> simp [overwrites, holds]
  simp only [latest_eq_some, LastOf, same]
  constructor
  · intro found
    obtain ⟨item, ⟨before, after, split, holds, last⟩, here⟩ := found
    rw [overwrites, if_pos holds] at here
    exact ⟨item, ⟨before, after, split, holds, last⟩, Option.some.inj here⟩
  · intro found
    obtain ⟨item, ⟨before, after, split, holds, last⟩, here⟩ := found
    exact ⟨item, ⟨before, after, split, holds, last⟩, by rw [overwrites, if_pos holds, here]⟩

/-- Overwriting loses nothing exactly where the last of the items that overwrite reaches. -/
theorem latest_overwrites_iff (property : Item → Prop) [DecidablePred property]
    : (latest (overwrites property reads) items).getD none = latest reads items
      ↔ Reaches property reads items := by
  constructor
  · intro same item value last here
    have settled : latest reads items = some value := latest_eq_some.mpr ⟨item, last, here⟩
    cases written : latest (overwrites property reads) items with
    | none => simp [written, settled] at same
    | some read =>
        obtain ⟨other, lastOther, there⟩ := latest_overwrites_eq_some.mp written
        refine ⟨other, lastOther, there.trans ?_⟩
        simpa [written, settled] using same
  · intro reaches
    cases settled : latest reads items with
    | none =>
        have silent := latest_eq_none.mp settled
        cases written : latest (overwrites property reads) items with
        | none => rfl
        | some read =>
            obtain ⟨other, ⟨before, after, split, _⟩, there⟩ := latest_overwrites_eq_some.mp written
            rw [silent other (split ▸ List.mem_append_right _ List.mem_cons_self)] at there
            rw [← there, Option.getD_some]
    | some value =>
        obtain ⟨item, last, here⟩ := latest_eq_some.mp settled
        obtain ⟨other, lastOther, there⟩ := reaches item value last here
        rw [latest_overwrites_eq_some.mpr ⟨other, lastOther, there⟩, Option.getD_some]

end Records
