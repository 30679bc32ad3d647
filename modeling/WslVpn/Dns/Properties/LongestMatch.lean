import WslVpn.Dns.Hosts

/-! What the table answers for a name: the exact entry, or else the wildcard of the longest suffix. Names
are compared label by label.
-/

open Separated

namespace WslVpn.Dns

/-- The name as the table knows it: in lower case, without dots at its end. -/
def soughtName (name : Text) : Text := toAsciiLowercase (trimEndDots name)

/-- The labels of the name end with those of the suffix, and there is one more at least. -/
def ProperSuffix (name suffix : Text) : Prop :=
  ∃ front, front ≠ [] ∧ name.splitOn '.' = front ++ suffix.splitOn '.'

/-- The entry that a name gets: its own one, or without that the wildcard of the proper suffix with the
most labels.
-/
inductive LongestMatch (table : Overrides) (name : Text) : Found → Prop where
  | exact {records} (stored : table.exact.get name = some records)
    : LongestMatch table name (.exact name records)
  | wildcard {suffix records} (noExact : table.exact.get name = none)
    (stored : table.wildcard.get suffix = some records) (proper : ProperSuffix name suffix)
    (longest
      : ∀ other, other ≠ suffix → table.wildcard.get other ≠ none → ProperSuffix name other
          → (other.splitOn '.').length < (suffix.splitOn '.').length)
    : LongestMatch table name (.wildcard suffix records)

section Lookup

variable {table : Overrides} {name suffix : Text} {records : Records} {found : Found}

/-- The loop over the labels, from one parent to the next. -/
theorem lookup_climbs (noExact : table.exact.get (soughtName name) = none)
    : table.lookup name
      = (climb '.' table.wildcard.get (soughtName name)).map
          (fun entry => .wildcard entry.1 entry.2) := by
  rw [climb_eq_firstBehind, Overrides.lookup, ← soughtName, noExact]

theorem lookup_exact (stored : table.exact.get (soughtName name) = some records)
    : table.lookup name = some (.exact (soughtName name) records) := by
  rw [Overrides.lookup, ← soughtName, stored]

/-- A wildcard whose suffix is the name itself does not match. -/
theorem ProperSuffix.ne (proper : ProperSuffix name suffix) : suffix ≠ name := by
  intro same
  obtain ⟨front, some, parts⟩ := proper
  have lengths := congrArg List.length parts
  rw [same, List.length_append] at lengths
  exact some (List.length_eq_zero_iff.mp (by omega))

/-- Of two proper suffixes, one with as many labels as the other is the other. -/
theorem ProperSuffix.unique {other : Text} (proper : ProperSuffix name suffix)
    (properOther : ProperSuffix name other)
    (same : (suffix.splitOn '.').length = (other.splitOn '.').length)
    : suffix = other :=
  behind_unique (behind_iff.mpr proper) (behind_iff.mpr properOther) same

/-- What the loop stops at is the longest suffix with a wildcard. -/
theorem longestMatch_of_climb (noExact : table.exact.get name = none)
    (found : climb '.' table.wildcard.get name = some (suffix, records))
    : LongestMatch table name (.wildcard suffix records) := by
  rw [climb_eq_firstBehind] at found
  obtain ⟨behind, stored, most⟩ := firstBehind_eq_some found
  have proper := behind_iff.mp behind
  refine .wildcard noExact stored proper ?_
  intro other different there properOther
  have few := most other (behind_iff.mpr properOther) there
  have unlike : (other.splitOn '.').length ≠ (suffix.splitOn '.').length :=
    fun same => different (properOther.unique proper same)
  omega

/-- There is one longest match at most. -/
theorem LongestMatch.unique {other : Found} (one : LongestMatch table name found)
    (another : LongestMatch table name other)
    : found = other := by
  cases one with
  | exact stored =>
      cases another with
      | exact stored' =>
          rw [stored] at stored'
          cases stored'
          rfl
      | wildcard noExact =>
          rw [stored] at noExact
          cases noExact
  | @wildcard suffix records noExact stored proper longest =>
      cases another with
      | exact stored' =>
          rw [noExact] at stored'
          cases stored'
      | @wildcard suffix' records' noExact' stored' proper' longest' =>
          have same : suffix = suffix' := by
            by_contra different
            have less := longest suffix' (Ne.symm different) (by simp [stored']) proper'
            have more := longest' suffix different (by simp [stored]) proper
            omega
          subst same
          rw [stored] at stored'
          cases stored'
          rfl

/-- Without a match, the name has no entry, and no proper suffix of it has a wildcard. -/
theorem lookup_none
    : table.lookup name = none
      ↔ table.exact.get (soughtName name) = none
        ∧ ∀ suffix, ProperSuffix (soughtName name) suffix → table.wildcard.get suffix = none := by
  cases stored : table.exact.get (soughtName name) with
  | some records => simp [lookup_exact stored]
  | none =>
      rw [lookup_climbs stored, Option.map_eq_none_iff, climb_eq_firstBehind, firstBehind_eq_none]
      simp only [behind_iff, true_and, ProperSuffix]

end Lookup

/-- The lookup of any name in any table gives the longest match, and nothing exactly when the name has
no entry and no proper suffix of it has a wildcard.
-/
theorem lookup_longest (table : Overrides) (name : Text)
    : (∀ found, table.lookup name = some found ↔ LongestMatch table (soughtName name) found)
      ∧ (table.lookup name = none
        ↔ table.exact.get (soughtName name) = none
          ∧ ∀ suffix, ProperSuffix (soughtName name) suffix → table.wildcard.get suffix = none) := by
  have sound : ∀ found, table.lookup name = some found
      → LongestMatch table (soughtName name) found := by
    intro found looked
    cases stored : table.exact.get (soughtName name) with
    | some records =>
        rw [lookup_exact stored] at looked
        cases looked
        exact .exact stored
    | none =>
        rw [lookup_climbs stored] at looked
        obtain ⟨pair, climbed, rfl⟩ := Option.map_eq_some_iff.mp looked
        exact longestMatch_of_climb stored climbed
  refine ⟨?_, lookup_none⟩
  intro found
  constructor
  · exact sound found
  · intro longest
    cases looked : table.lookup name with
    | some other => rw [(sound other looked).unique longest]
    | none =>
        obtain ⟨noExact, noWildcard⟩ := lookup_none.mp looked
        cases longest with
        | exact stored =>
            rw [noExact] at stored
            cases stored
        | wildcard _ stored proper =>
            rw [noWildcard _ proper] at stored
            cases stored

end WslVpn.Dns
