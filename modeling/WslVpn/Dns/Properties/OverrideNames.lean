import WslVpn.Dns.Entries
import WslVpn.Dns.Properties.LongestMatch
import WslVpn.Dns.Properties.NameMatching
import WslVpn.Dns.Properties.QueryGrammar

/-! When the resolver answers by name. Labels with a dot in them are the exception: their text is that
of other labels.
-/

open Separated

namespace WslVpn.Dns

/-- A name that can be taken for another one finds nothing in the table: an exact entry of its text, or
a suffix that reaches into the last label with a dot in it.
-/
structure TextNames (table : Overrides) (labels : List Bytes) : Prop where
  exact : (∀ label ∈ labels, dotted label = false) ∨ table.exact.get (soughtText labels) = none
  wildcard
    : ∀ suffix, table.wildcard.get suffix ≠ none → Behind '.' (soughtText labels) suffix
        → (suffix.splitOn '.').length ≤ (plainTail labels).length

/-- The query has the text of the probe's name. -/
def asksProbe (labels : List Bytes) : Prop :=
  toAsciiLowercase (Wire.dottedName labels) = toAsciiLowercase probeName

section Lookup

variable {table : Overrides} {labels : List Bytes} {found : Found} {name : Text} {records : Records}

theorem lookup_name
    : table.lookup (Wire.dottedName labels)
      = match table.exact.get (soughtText labels) with
        | some records => some (.exact (soughtText labels) records)
        | none =>
            (firstBehind '.' table.wildcard.get (soughtText labels)).map
              (fun (suffix, records) => .wildcard suffix records) :=
  rfl

/-- What the lookup finds: an exact entry of the text, or the longest wildcard behind a dot of it.
-/
theorem lookup_cases (looked : table.lookup (Wire.dottedName labels) = some found)
    : (∃ records, table.exact.get (soughtText labels) = some records
        ∧ found = .exact (soughtText labels) records)
      ∨ ∃ suffix records, table.exact.get (soughtText labels) = none
        ∧ found = .wildcard suffix records
        ∧ firstBehind '.' table.wildcard.get (soughtText labels) = some (suffix, records) := by
  rw [lookup_name] at looked
  cases stored : table.exact.get (soughtText labels) with
  | some records =>
      rw [stored] at looked
      cases looked
      exact Or.inl ⟨records, rfl, rfl⟩
  | none =>
      rw [stored] at looked
      obtain ⟨⟨suffix, records⟩, first, rfl⟩ := Option.map_eq_some_iff.mp looked
      exact Or.inr ⟨suffix, records, rfl, rfl, first⟩

theorem lookup_eq_none
    : table.lookup (Wire.dottedName labels) = none
      ↔ table.exact.get (soughtText labels) = none
        ∧ ∀ suffix, Behind '.' (soughtText labels) suffix → table.wildcard.get suffix = none := by
  simp only [behind_iff]
  exact lookup_none

variable (hosts : table.Hosts) (filled : ∀ label ∈ labels, label ≠ [])

include hosts filled

/-- An exact entry is for the query when it is for its text, and no label has a dot in it. -/
theorem same_sought (stored : table.exact.get name ≠ none)
    : SameName labels name ↔ soughtText labels = name ∧ ∀ label ∈ labels, dotted label = false := by
  obtain ⟨records, stored⟩ := Option.ne_none_iff_exists'.mp stored
  exact sameName_sought filled (hosts.exact name records stored)

theorem covers_stored (stored : table.wildcard.get name ≠ none)
    : Covers labels name
      ↔ Behind '.' (soughtText labels) name
        ∧ (name.splitOn '.').length ≤ (plainTail labels).length := by
  obtain ⟨records, stored⟩ := Option.ne_none_iff_exists'.mp stored
  exact covers_sought filled (hosts.wildcard name records stored)

/-- The override that the rules choose is found, since names are compared as text only where the
labels are the same.
-/
theorem TextNames.lookup (names : TextNames table labels) (chooses : Chooses table labels found)
    : table.lookup (Wire.dottedName labels) = some found := by
  rw [lookup_name]
  cases chooses with
  | @exact name records stored same =>
      obtain ⟨rfl, _⟩ := (same_sought hosts filled (by simp [stored])).mp same
      rw [stored]
  | @wildcard suffix records stored covers none longest =>
      have absent : table.exact.get (soughtText labels) = .none := by
        rcases names.exact with plain | absent
        · by_contra there
          exact none _ there ((same_sought hosts filled there).mpr ⟨rfl, plain⟩)
        · exact absent
      obtain ⟨behind, short⟩ := (covers_stored hosts filled (by simp [stored])).mp covers
      cases first : firstBehind '.' table.wildcard.get (soughtText labels) with
      | none =>
          rw [firstBehind_eq_none.mp first suffix behind] at stored
          cases stored
      | some entry =>
          obtain ⟨other, held⟩ := entry
          obtain ⟨otherBehind, otherStored, most⟩ := firstBehind_eq_some first
          have otherThere : table.wildcard.get other ≠ .none := by simp [otherStored]
          have otherCovers : Covers labels other :=
            (covers_stored hosts filled otherThere).mpr
              ⟨otherBehind, names.wildcard other otherThere otherBehind⟩
          have same : other = suffix := by
            refine behind_unique otherBehind behind (Nat.le_antisymm ?_ ?_)
            · exact longest other otherThere otherCovers
            · exact most suffix behind (by simp [stored])
          rw [same, stored] at otherStored
          cases otherStored
          rw [absent, same]
          rfl

/-- What is found is what the rules choose. -/
theorem TextNames.chooses (names : TextNames table labels)
    (looked : table.lookup (Wire.dottedName labels) = some found)
    : Chooses table labels found := by
  rcases lookup_cases looked with ⟨records, stored, rfl⟩ | ⟨suffix, records, none, rfl, first⟩
  · have there : table.exact.get (soughtText labels) ≠ none := by simp [stored]
    have plain : ∀ label ∈ labels, dotted label = false := by
      rcases names.exact with plain | absent
      · exact plain
      · exact absurd absent there
    exact .exact stored ((same_sought hosts filled there).mpr ⟨rfl, plain⟩)
  · obtain ⟨behind, stored, most⟩ := firstBehind_eq_some first
    have there : table.wildcard.get suffix ≠ .none := by simp [stored]
    have covers : Covers labels suffix :=
      (covers_stored hosts filled there).mpr ⟨behind, names.wildcard suffix there behind⟩
    refine .wildcard stored covers ?_ ?_
    · intro name there same
      obtain ⟨rfl, _⟩ := (same_sought hosts filled there).mp same
      exact there none
    · intro other otherThere otherCovers
      exact most other ((covers_stored hosts filled otherThere).mp otherCovers).1 otherThere

theorem chooses_iff (names : TextNames table labels)
    : Chooses table labels found ↔ table.lookup (Wire.dottedName labels) = some found :=
  ⟨fun chooses => names.lookup hosts filled chooses,
    fun looked => names.chooses hosts filled looked⟩

omit hosts in
/-- Without a dot in a label, no name is taken for another one. -/
theorem textNames_of_plain (plain : ∀ label ∈ labels, dotted label = false)
    : TextNames table labels :=
  ⟨Or.inl plain, fun _ _ behind => behind_short filled plain behind⟩

/-- If whatever is found is what the rules choose, no name is taken for another one. -/
theorem textNames_of_chooses
    (sound
      : ∀ found, table.lookup (Wire.dottedName labels) = some found → Chooses table labels found)
    : TextNames table labels := by
  cases stored : table.exact.get (soughtText labels) with
  | some records =>
      have looked : table.lookup (Wire.dottedName labels)
          = some (.exact (soughtText labels) records) := by
        rw [lookup_name, stored]
      have there : table.exact.get (soughtText labels) ≠ none := by simp [stored]
      cases sound _ looked with
      | exact _ same =>
          exact textNames_of_plain filled ((same_sought hosts filled there).mp same).2
  | none =>
      refine ⟨Or.inr stored, ?_⟩
      intro suffix there behind
      cases first : firstBehind '.' table.wildcard.get (soughtText labels) with
      | none => exact absurd (firstBehind_eq_none.mp first suffix behind) there
      | some entry =>
          obtain ⟨longest, records⟩ := entry
          have looked : table.lookup (Wire.dottedName labels)
              = some (.wildcard longest records) := by
            rw [lookup_name, stored, first]
            rfl
          obtain ⟨_, longestStored, most⟩ := firstBehind_eq_some first
          cases sound _ looked with
          | wildcard _ covers _ _ =>
              have short := ((covers_stored hosts filled (by simp [longestStored])).mp covers).2
              exact Nat.le_trans (most suffix behind there) short

end Lookup

-----------------------------------------------------------------------------------------
-- The probe's name
-----------------------------------------------------------------------------------------

theorem probeName_host : HostName probeName := by
  have all : (probeName.splitOn '.').all validLabel = true := by decide +kernel
  have lower : ∀ char ∈ probeName, char.toLower = char :=
    List.all_iff_forall_prop.mp (by decide +kernel)
  intro label member
  refine hostLabel_of_valid (List.all_eq_true.mp all label member) ?_
  exact fun char inside => lower char ((of_mem_splitOn member).2 char inside)

/-- The text of the probe's name is looked up as it is. -/
theorem asksProbe_sought {labels : List Bytes} (asks : asksProbe labels)
    : soughtText labels = probeName := by
  have lowered : toAsciiLowercase (Wire.dottedName labels) = probeName := by
    rw [asks]
    decide +kernel
  have kept : trimEndDots (Wire.dottedName labels) = Wire.dottedName labels := by
    refine trimEndDots_of_last ?_
    intro dot
    have last : (toAsciiLowercase (Wire.dottedName labels)).getLast? = some '.' := by
      rw [toAsciiLowercase, List.getLast?_map, dot]
      rfl
    rw [lowered] at last
    exact absurd last (by decide +kernel)
  rw [soughtText, kept, lowered]

/-- Without dots in its labels, a query for the probe's name has its text. -/
theorem probe_sameName {labels : List Bytes} (filled : ∀ label ∈ labels, label ≠ [])
    : SameName labels probeName
      ↔ soughtText labels = probeName ∧ ∀ label ∈ labels, dotted label = false :=
  sameName_sought filled probeName_host

-----------------------------------------------------------------------------------------
-- Overrides match names
-----------------------------------------------------------------------------------------

section Matches

variable {table : Overrides} {query : Query} {ttl : Nat}

theorem Query.filled (query : Query) : ∀ label ∈ query.labels, label ≠ [] := by
  intro label member empty
  have size := (query.label_length label member).1
  rw [empty] at size
  exact Nat.lt_irrefl 0 size

/-- What becomes of a query for another name than the probe's. -/
theorem handle_other (other : ¬ asksProbe query.labels)
    : ∃ question, handle ttl table query.bytes
        = match table.lookup (Wire.dottedName query.labels) with
          | some found => .answered question found ttl
          | none => .forwarded question := by
  obtain ⟨question, read, named⟩ := query.parse
  refine ⟨question, ?_⟩
  rw [asksProbe, ← named] at other
  rw [handle, read, ← named]
  exact if_neg other

theorem handle_probe (asks : asksProbe query.labels)
    : ∃ question, handle ttl table query.bytes = .probed question := by
  obtain ⟨question, read, named⟩ := query.parse
  refine ⟨question, ?_⟩
  rw [asksProbe, ← named] at asks
  rw [handle, read]
  exact if_pos asks

/-- The other queries are answered by name exactly when their names are not taken for other ones. -/
theorem matches_other (hosts : table.Hosts) (other : ¬ asksProbe query.labels)
    : MatchesNames ttl table query.labels (handle ttl table query.bytes)
      ↔ TextNames table query.labels := by
  obtain ⟨question, handled⟩ := @handle_other table query ttl other
  rw [handled]
  constructor
  · intro matchesNames
    refine textNames_of_chooses hosts query.filled ?_
    intro found looked
    refine matchesNames.only question found ttl ?_
    rw [looked]
  · intro names
    have chosen := fun {found} => @chooses_iff table query.labels found hosts query.filled names
    cases looked : table.lookup (Wire.dottedName query.labels) with
    | some found =>
        refine ⟨?_, ?_, ?_⟩
        · intro another chooses
          have same := chosen.mp chooses
          rw [looked] at same
          cases same
          exact ⟨question, rfl⟩
        · intro _ another _ same
          cases same
          exact chosen.mpr looked
        · intro nothing _
          exact absurd (chosen.mpr looked) (nothing found)
    | none =>
        refine ⟨?_, ?_, ?_⟩
        · intro another chooses
          have same := chosen.mp chooses
          rw [looked] at same
          cases same
        · intro _ another _ same
          cases same
        · intro _ _
          exact ⟨question, rfl⟩

/-- A query with the probe's text is answered by name exactly when it is for the probe and the table
has no override of it.
-/
theorem matches_probe (hosts : table.Hosts) (asks : asksProbe query.labels)
    : MatchesNames ttl table query.labels (handle ttl table query.bytes)
      ↔ (∀ label ∈ query.labels, dotted label = false) ∧ table.exact.get probeName = none
        ∧ ∀ suffix, table.wildcard.get suffix ≠ none → ¬ Behind '.' probeName suffix := by
  obtain ⟨question, handled⟩ := @handle_probe table query ttl asks
  have text := asksProbe_sought asks
  have chosen : (∀ label ∈ query.labels, dotted label = false) →
      ((∀ found, ¬ Chooses table query.labels found)
        ↔ table.exact.get probeName = none
          ∧ ∀ suffix, table.wildcard.get suffix ≠ none → ¬ Behind '.' probeName suffix) := by
    intro plain
    have names : TextNames table query.labels := textNames_of_plain query.filled plain
    have missed := @lookup_eq_none table query.labels
    rw [text] at missed
    have spelt : (∀ suffix, Behind '.' probeName suffix → table.wildcard.get suffix = none)
        ↔ ∀ suffix, table.wildcard.get suffix ≠ none → ¬ Behind '.' probeName suffix :=
      forall_congr' (fun suffix => not_imp_not.symm.trans (by simp))
    rw [← spelt, ← missed, Option.eq_none_iff_forall_ne_some]
    exact forall_congr' (fun found => not_congr (chooses_iff hosts query.filled names))
  rw [handled]
  constructor
  · intro matchesNames
    have nothing : ∀ found, ¬ Chooses table query.labels found := by
      intro found chooses
      obtain ⟨_, same⟩ := matchesNames.answers found chooses
      cases same
    have plain : ∀ label ∈ query.labels, dotted label = false := by
      by_contra isDotted
      have other : ¬ SameName query.labels probeName :=
        fun same => isDotted ((probe_sameName query.filled).mp same).2
      obtain ⟨_, same⟩ := matchesNames.forwards nothing other
      cases same
    exact ⟨plain, (chosen plain).mp nothing⟩
  · intro conditions
    obtain ⟨plain, absent⟩ := conditions
    have nothing := (chosen plain).mpr absent
    refine ⟨?_, ?_, ?_⟩
    · intro found chooses
      exact absurd chooses (nothing found)
    · intro _ found _ same
      cases same
    · intro _ other
      exact absurd ((probe_sameName query.filled).mpr ⟨text, plain⟩) other

end Matches

/-- A well-formed query is answered by name exactly when, for the probe's text, no label has a dot in it
and the table has no override of the probe; and otherwise, no label has a dot in it or no exact entry
has the text of the query, and each wildcard whose suffix stands behind a dot of the text has no more
labels than come behind the last one with a dot in it.
-/
theorem overrides_match_names_iff {table : Overrides} (reached : Reachable table) (query : Query)
    (ttl : Nat)
    : MatchesNames ttl table query.labels (handle ttl table query.bytes)
      ↔ (asksProbe query.labels →
          (∀ label ∈ query.labels, dotted label = false) ∧ table.exact.get probeName = none
            ∧ ∀ suffix, table.wildcard.get suffix ≠ none → ¬ Behind '.' probeName suffix)
        ∧ (¬ asksProbe query.labels → TextNames table query.labels) := by
  by_cases asks : asksProbe query.labels
  · simp only [asks, not_true_eq_false, false_implies, true_implies, and_true]
    exact matches_probe reached.hosts asks
  · simp only [asks, not_false_eq_true, false_implies, true_implies, true_and]
    exact matches_other reached.hosts asks

/-- A table with one exact entry. -/
def oneEntry : Overrides := ⟨[("a.example.com".toList, ⟨[.v4 0x0a000005]⟩)], []⟩

/-- A query for an address, with these labels. -/
def addressQuery (labels : List Bytes)
    (label_length : ∀ label ∈ labels, 0 < label.length ∧ label.length ≤ 63)
    (name_length : (labels.map (·.length + 1)).sum ≤ 255)
    : Query where
  header := [0x12, 0x34, 0x01, 0, 0, 1, 0, 0, 0, 0, 0, 0]
  labels
  rest := [0, 1, 0, 1]
  header_length := rfl
  flags := ⟨0x100, by decide⟩
  one_question := by decide
  label_length
  name_length
  rest_length := Nat.le_refl 4

/-- The labels `a`, `example` and `com`. -/
def threeLabels : Query :=
  addressQuery [[0x61], [0x65, 0x78, 0x61, 0x6d, 0x70, 0x6c, 0x65], [0x63, 0x6f, 0x6d]] (by decide)
    (by decide)

/-- The labels `a.example` and `com`. -/
def twoLabels : Query :=
  addressQuery [[0x61, 0x2e, 0x65, 0x78, 0x61, 0x6d, 0x70, 0x6c, 0x65], [0x63, 0x6f, 0x6d]]
    (by decide) (by decide)

theorem oneEntry_reachable : Reachable oneEntry :=
  @Reachable.parsed "10.0.0.5 a.example.com".toList _ (by decide +kernel)

theorem three_labels_match
    : MatchesNames 60 oneEntry threeLabels.labels (handle 60 oneEntry threeLabels.bytes) := by
  refine (overrides_match_names_iff oneEntry_reachable threeLabels 60).mpr ⟨?_, ?_⟩
  · intro asks
    exact absurd asks (by unfold asksProbe; decide +kernel)
  · intro _
    refine ⟨Or.inl (by decide), ?_⟩
    intro suffix there
    exact absurd rfl there

/-- A query for a name of two labels is answered from the entry of a name of three. -/
theorem two_labels_answered
    : Reachable oneEntry
      ∧ ¬ MatchesNames 60 oneEntry twoLabels.labels (handle 60 oneEntry twoLabels.bytes) := by
  refine ⟨oneEntry_reachable, ?_⟩
  intro matchesNames
  have answered : ∃ question, handle 60 oneEntry twoLabels.bytes
      = .answered question (.exact "a.example.com".toList ⟨[.v4 0x0a000005]⟩) 60 :=
    ⟨⟨0x1234, "a.example.com".toList, 1, 1, 0x100, twoLabels.bytes.drop 12⟩, by decide +kernel⟩
  obtain ⟨question, answered⟩ := answered
  cases matchesNames.only question _ 60 answered with
  | exact _ same => exact absurd (congrArg List.length same) (by decide +kernel)

end WslVpn.Dns
