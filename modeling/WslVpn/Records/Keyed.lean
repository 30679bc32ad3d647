import Mathlib.Data.Set.Insert

/-! Sets of records with a key, and what writing a list of records to one leaves: each write either
replaces what has its key, or gives way to it.
-/

namespace Records

variable {Item Key : Type} (key : Item → Key)

/-- Write a record over what has its key. -/
def put (stored : Set Item) (item : Item) : Set Item :=
  {other | other = item ∨ (other ∈ stored ∧ key other ≠ key item)}

/-- Write a record unless something has its key. -/
def keep (stored : Set Item) (item : Item) : Set Item :=
  {other | other ∈ stored ∨ (other = item ∧ ∀ held ∈ stored, key held ≠ key item)}

def putAll (stored : Set Item) (items : List Item) : Set Item := items.foldl (put key) stored

def keepAll (stored : Set Item) (items : List Item) : Set Item := items.foldl (keep key) stored

/-- The record is the last one of its key. -/
def Last (item : Item) : List Item → Prop
  | [] => False
  | head :: rest => Last item rest ∨ (item = head ∧ ∀ other ∈ rest, key other ≠ key item)

/-- The record is the first one of its key. -/
def First (item : Item) : List Item → Prop
  | [] => False
  | head :: rest => item = head ∨ (key head ≠ key item ∧ First item rest)

variable {key} {stored : Set Item} {item : Item}

theorem Last.mem {items : List Item} (last : Last key item items) : item ∈ items := by
  induction items with
  | nil => exact last.elim
  | cons head rest ih =>
      rcases last with later | ⟨rfl, _⟩
      · exact List.mem_cons_of_mem _ (ih later)
      · exact List.mem_cons_self

/-- Two last records of one key are one, by induction on the list. -/
theorem Last.unique {items : List Item} {other : Item} (last : Last key item items)
    (lastOther : Last key other items) (same : key item = key other)
    : item = other := by
  induction items with
  | nil => exact last.elim
  | cons head rest ih =>
      rcases last with later | ⟨rfl, none⟩
      · rcases lastOther with laterOther | ⟨rfl, none⟩
        · exact ih later laterOther
        · exact absurd same (none item later.mem)
      · rcases lastOther with laterOther | ⟨rfl, _⟩
        · exact absurd same.symm (none other laterOther.mem)
        · rfl

/-- The last records of each key, of which each is made of a source, by induction on the sources. -/
theorem last_filterMap {Source : Type} {sourceKey : Source → Option Key} {make : Source → Option Item}
    {sources : List Source}
    (made
      : ∀ source ∈ sources, ∃ item, make source = some item ∧ sourceKey source = some (key item))
    : Last key item (sources.filterMap make)
      ↔ ∃ source, Last sourceKey source sources ∧ make source = some item := by
  induction sources with
  | nil => simp [Last]
  | cons head rest ih =>
      obtain ⟨first, makes, keyed⟩ := made head List.mem_cons_self
      have others := fun source member => made source (List.mem_cons_of_mem head member)
      -- A later source has the key exactly if what is made of it has.
      have apart (sought : Key) : (∀ other ∈ rest.filterMap make, key other ≠ sought)
          ↔ ∀ other ∈ rest, sourceKey other ≠ some sought := by
        constructor
        · intro none other member same
          obtain ⟨item, makes, keyed⟩ := others other member
          rw [keyed] at same
          exact none item (List.mem_filterMap.mpr ⟨other, member, makes⟩) (Option.some.inj same)
        · intro none item member same
          obtain ⟨other, there, makes⟩ := List.mem_filterMap.mp member
          obtain ⟨item', makes', keyed⟩ := others other there
          obtain rfl := Option.some.inj (makes.symm.trans makes')
          exact none other there (keyed.trans (congrArg some same))
      rw [List.filterMap_cons_some makes, Last, ih others]
      constructor
      · intro last
        rcases last with ⟨source, later, makes⟩ | ⟨rfl, none⟩
        · exact ⟨source, Or.inl later, makes⟩
        · refine ⟨head, Or.inr ⟨rfl, ?_⟩, makes⟩
          rw [keyed]
          exact (apart (key item)).mp none
      · intro last
        obtain ⟨source, later | ⟨rfl, none⟩, source_makes⟩ := last
        · exact Or.inl ⟨source, later, source_makes⟩
        · obtain rfl := Option.some.inj (makes.symm.trans source_makes)
          rw [keyed] at none
          exact Or.inr ⟨rfl, (apart (key first)).mpr none⟩

/-- Writes replace: the last one of each key stays, and what no write has the key of. -/
theorem mem_putAll {items : List Item}
    : item ∈ putAll key stored items
      ↔ Last key item items ∨ (item ∈ stored ∧ ∀ other ∈ items, key other ≠ key item) := by
  induction items generalizing stored with
  | nil => simp [putAll, Last]
  | cons head rest ih =>
      have step : putAll key stored (head :: rest) = putAll key (put key stored head) rest := rfl
      rw [step, ih, Last, put, Set.mem_ofPred_eq]
      constructor
      · intro member
        rcases member with last | ⟨rfl | ⟨held, apart⟩, absent⟩
        · exact Or.inl (Or.inl last)
        · exact Or.inl (Or.inr ⟨rfl, absent⟩)
        · refine Or.inr ⟨held, ?_⟩
          intro other written
          rcases List.mem_cons.mp written with rfl | later
          · exact apart.symm
          · exact absent other later
      · intro member
        rcases member with (last | ⟨same, absent⟩) | ⟨held, absent⟩
        · exact Or.inl last
        · exact Or.inr ⟨Or.inl same, absent⟩
        · refine Or.inr ⟨Or.inr ⟨held, (absent head List.mem_cons_self).symm⟩, ?_⟩
          exact fun other later => absent other (List.mem_cons_of_mem _ later)

/-- Writes give way: what was stored stays, and the first write of each other key. -/
theorem mem_keepAll {items : List Item}
    : item ∈ keepAll key stored items
      ↔ item ∈ stored ∨ (First key item items ∧ ∀ held ∈ stored, key held ≠ key item) := by
  induction items generalizing stored with
  | nil => simp [keepAll, First]
  | cons head rest ih =>
      have step : keepAll key stored (head :: rest) = keepAll key (keep key stored head) rest := rfl
      rw [step, ih, First, keep, Set.mem_ofPred_eq]
      constructor
      · intro member
        rcases member with (held | ⟨rfl, free⟩) | ⟨first, free⟩
        · exact Or.inl held
        · exact Or.inr ⟨Or.inl rfl, free⟩
        · have apart : ∀ held ∈ stored, key held ≠ key item :=
            fun held there => free held (Or.inl there)
          refine Or.inr ⟨?_, apart⟩
          by_cases same : key head = key item
          · refine absurd same (free head (Or.inr ⟨rfl, ?_⟩))
            intro held there
            rw [same]
            exact apart held there
          · exact Or.inr ⟨same, first⟩
      · intro member
        rcases member with held | ⟨rfl | ⟨apart, first⟩, free⟩
        · exact Or.inl (Or.inl held)
        · exact Or.inl (Or.inr ⟨rfl, free⟩)
        · refine Or.inr ⟨first, ?_⟩
          intro held there
          rcases there with there | ⟨rfl, _⟩
          · exact free held there
          · exact apart

theorem putAll_append {first second : List Item}
    : putAll key stored (first ++ second) = putAll key (putAll key stored first) second :=
  List.foldl_append

theorem keepAll_append {first second : List Item}
    : keepAll key stored (first ++ second) = keepAll key (keepAll key stored first) second :=
  List.foldl_append

end Records
