import WslVpn.Dns.Text
import WslVpn.Separated.Parts
import WslVpn.Types

/-! The override table: a hosts file, with exact names and wildcards. -/

namespace WslVpn.Dns

open AddressSpace

/-- The addresses that one name resolves to. -/
structure Records where
  addresses : List IpAddr
  deriving DecidableEq

/-- A map from names to records. -/
abbrev NameMap := List (Text × Records)

namespace NameMap

def get (map : NameMap) (key : Text) : Option Records :=
  (map.find? (·.1 == key)).map (·.2)

def remove (map : NameMap) (key : Text) : NameMap := map.filter (·.1 != key)

/-- The entry of the key has these records from now on. -/
def put (map : NameMap) (key : Text) (records : Records) : NameMap :=
  (key, records) :: map.remove key

end NameMap

/-- A wildcard is kept under its suffix, without the leading `*.`. -/
structure Overrides where
  exact : NameMap
  wildcard : NameMap
  deriving DecidableEq

/-- A reference into the table: the entry, and the records that it has. -/
inductive Found where
  | exact (name : Text) (records : Records)
  | wildcard (suffix : Text) (records : Records)
  deriving DecidableEq

def Found.records : Found → Records
  | exact _ records | wildcard _ records => records

/-- A name that failed validation, with the line it came from. -/
structure ParseError where
  line : Nat
  message : String
  deriving DecidableEq

def wildcardStart : Text := ['*', '.']

def validLabel (label : Text) : Bool :=
  label ≠ [] && byteLength label ≤ 63 && label.head? ≠ some '-' && label.getLast? ≠ some '-'
    && label.all (fun char => char.isAlphanum || char == '-' || char == '_')

/-- Lower-case a name, drop its trailing dots, and refuse what is not a host name. -/
def normalise (name : Text) : Except String Text :=
  let lowered := toAsciiLowercase (trimEndDots (trim name))
  let (wild, host) := match stripStart wildcardStart lowered with
    | some rest => (true, rest)
    | none => (false, lowered)
  let invalid := "`" ++ String.ofList name ++ "` is not a valid host name"
  if host = [] ∨ 253 < byteLength host then .error invalid
  else if !(host.splitOn '.').all validLabel then .error invalid
  else if wild ∧ '.' ∉ host then
    .error ("`" ++ String.ofList name ++ "` is too broad: a wildcard needs at least two labels")
  else .ok (if wild then wildcardStart ++ host else host)

namespace Overrides

def empty : Overrides := ⟨[], []⟩

/-- The records with the address at their end, unless it is there. -/
def withAddress (address : IpAddr) (records : Option Records) : Records :=
  let addresses := (records.map Records.addresses).getD []
  ⟨if address ∈ addresses then addresses else addresses ++ [address]⟩

def insert (table : Overrides) (address : IpAddr) (name : Text) : Overrides :=
  match stripStart wildcardStart name with
  | some suffix =>
      { table with
        wildcard := table.wildcard.put suffix (withAddress address (table.wildcard.get suffix)) }
  | none =>
      { table with exact := table.exact.put name (withAddress address (table.exact.get name)) }

/-- One name of a line. -/
def parseName (lineNo : Nat) (address : IpAddr) (table : Overrides) (name : Text)
    : Except ParseError Overrides :=
  match normalise name with
  | .error message => .error ⟨lineNo, message⟩
  | .ok name => .ok (table.insert address name)

/-- One line of the file. -/
def parseLine (table : Overrides) (raw : Text) (lineNo : Nat) : Except ParseError Overrides :=
  let line := trim (raw.takeWhile (· ≠ '#'))
  if line = [] then .ok table
  else
    let fields := splitWhitespace line
    let addressText := fields.headD []
    match IpAddr.parse addressText with
    | none => .error ⟨lineNo, "`" ++ String.ofList addressText ++ "` is not an IP address"⟩
    | some address => do
        let table ← fields.tail.foldlM (parseName lineNo address) table
        if fields.tail = [] then
          .error ⟨lineNo, "`" ++ WslVpn.addressText address ++ "` has no names after it"⟩
        else .ok table

/-- An invalid line fails the whole parse. -/
def parse (text : Text) : Except ParseError Overrides :=
  ((lines text).zipIdx 1).foldlM (fun table (raw, lineNo) => table.parseLine raw lineNo) empty

/-- Remove every entry for a name, and tell whether there was one. -/
def remove (table : Overrides) (name : Text) : Bool × Overrides :=
  match normalise name with
  | .error _ => (false, table)
  | .ok name =>
      match stripStart wildcardStart name with
      | some suffix =>
          ((table.wildcard.get suffix).isSome,
            { table with wildcard := table.wildcard.remove suffix })
      | none => ((table.exact.get name).isSome, { table with exact := table.exact.remove name })

/-- The name answers with the address alone afterwards. -/
def set (table : Overrides) (name : Text) (address : IpAddr) : Except String Overrides := do
  let name ← normalise name
  return (table.remove name).2.insert address name

/-- The first wildcard on the walk up the labels is the one of the longest suffix. -/
def lookup (table : Overrides) (name : Text) : Option Found :=
  let name := toAsciiLowercase (trimEndDots name)
  match table.exact.get name with
  | some records => some (.exact name records)
  | none =>
      (Separated.firstBehind '.' table.wildcard.get name).map
        (fun (suffix, records) => .wildcard suffix records)

end Overrides

-----------------------------------------------------------------------------------------
-- Tables that can be reached
-----------------------------------------------------------------------------------------

/-- The tables that `parse`, `set` and `remove` make. -/
inductive Reachable : Overrides → Prop where
  | parsed {text table} (read : Overrides.parse text = .ok table) : Reachable table
  | changed {table after name address} (reached : Reachable table)
    (made : table.set name address = .ok after) : Reachable after
  | removed {table} (name : Text) (reached : Reachable table) : Reachable (table.remove name).2

/-- A label of a host name, in lower case. -/
def HostLabel (label : Text) : Prop :=
  label ≠ [] ∧ ∀ char ∈ label, char.toNat < 0x80 ∧ char.toLower = char

/-- A host name, in lower case. -/
def HostName (name : Text) : Prop := ∀ label ∈ name.splitOn '.', HostLabel label

/-- Only host names have entries. -/
structure Overrides.Hosts (table : Overrides) : Prop where
  exact : ∀ name records, table.exact.get name = some records → HostName name
  wildcard : ∀ suffix records, table.wildcard.get suffix = some records → HostName suffix

namespace NameMap

variable {map : NameMap} {key other : Text} {records : Records}

theorem get_remove : (map.remove key).get other = if other = key then none else map.get other := by
  simp only [get, remove, List.find?_filter]
  split
  · next same =>
      have none : map.find? (fun entry => decide ((entry.1 != key) = true ∧ (entry.1 == other) = true))
          = none := by
        refine List.find?_eq_none.mpr ?_
        intro entry _
        simp [same]
      rw [none]
      rfl
  · next apart =>
      have same : (fun entry : Text × Records =>
          decide ((entry.1 != key) = true ∧ (entry.1 == other) = true))
          = fun entry => entry.1 == other := by
        funext entry
        by_cases named : entry.1 = other
        · simp [named, apart]
        · simp [named]
      rw [same]

theorem get_put
    : (map.put key records).get other = if other = key then some records else map.get other := by
  rw [get, put, List.find?_cons]
  by_cases same : other = key
  · simp [same]
  · have apart : (key == other) = false := beq_eq_false_iff_ne.mpr (Ne.symm same)
    rw [apart, if_neg same]
    exact get_remove.trans (if_neg same)

end NameMap

/-- The name that an accepted name is entered under. -/
def entryName (name : Text) : Text := (stripStart wildcardStart name).getD name

theorem hostLabel_of_valid {label : Text} (valid : validLabel label = true)
    (lowered : ∀ char ∈ label, char.toLower = char)
    : HostLabel label := by
  simp only [validLabel, Bool.and_eq_true, decide_eq_true_eq, List.all_eq_true] at valid
  obtain ⟨⟨⟨⟨some, _⟩, _⟩, _⟩, all⟩ := valid
  refine ⟨by simpa using some, ?_⟩
  intro char member
  refine ⟨?_, lowered char member⟩
  have kind := all char member
  simp only [Bool.or_eq_true, beq_iff_eq] at kind
  exact hostChar_ascii (or_assoc.mp kind)

namespace Overrides

variable {table after : Overrides} {name : Text} {address : IpAddr}

/-- What each item of a list keeps is kept by the loop over it, by induction on the list. -/
theorem foldlM_keeps {State Item Error : Type} {inv : State → Prop}
    {act : State → Item → Except Error State} {items : List Item} {state final : State}
    (keeps : ∀ state item after, inv state → act state item = .ok after → inv after)
    (start : inv state) (ran : items.foldlM act state = .ok final)
    : inv final := by
  induction items generalizing state with
  | nil =>
      cases ran
      exact start
  | cons item rest ih =>
      rw [List.foldlM_cons] at ran
      cases first : act state item with
      | error error =>
          rw [first] at ran
          cases ran
      | ok between =>
          rw [first] at ran
          exact ih (keeps state item between start first) ran

variable {inv : Overrides → Prop}

/-- What every entered name keeps is kept by a line. -/
theorem parseLine_keeps {raw : Text} {lineNo : Nat}
    (insert : ∀ table address name result, normalise name = .ok result → inv table →
      inv (table.insert address result))
    (start : inv table) (ran : table.parseLine raw lineNo = .ok after)
    : inv after := by
  unfold Overrides.parseLine at ran
  simp only at ran
  split at ran
  · cases ran
    exact start
  · split at ran
    · cases ran
    · next address _ =>
        have named : ∀ (table : Overrides) (name : Text) (after : Overrides), inv table →
            parseName lineNo address table name = .ok after → inv after := by
          intro table name after before made
          unfold parseName at made
          split at made
          · cases made
          · next result accepted =>
              cases made
              exact insert table address name result accepted before
        cases looped : (splitWhitespace (trim (raw.takeWhile (· ≠ '#')))).tail.foldlM
            (parseName lineNo address) table with
        | error error =>
            rw [looped] at ran
            cases ran
        | ok between =>
            rw [looped] at ran
            change (if _ then _ else Except.ok between) = _ at ran
            split at ran
            · cases ran
            · cases ran
              exact foldlM_keeps named start looped

end Overrides

/-- What holds of the empty table, and is kept where a name is entered or removed, holds of every table
that can be reached.
-/
theorem Reachable.keeps {inv : Overrides → Prop} {table : Overrides} (empty : inv .empty)
    (insert : ∀ table address name result, normalise name = .ok result → inv table →
      inv (table.insert address result))
    (remove : ∀ table name, inv table → inv (table.remove name).2) (reached : Reachable table)
    : inv table := by
  induction reached with
  | parsed read =>
      refine Overrides.foldlM_keeps ?_ empty read
      intro table line after before ran
      exact Overrides.parseLine_keeps insert before ran
  | @changed table after name address reached made ih =>
      unfold Overrides.set at made
      cases accepted : normalise name with
      | error message =>
          rw [accepted] at made
          cases made
      | ok result =>
          rw [accepted] at made
          cases made
          exact insert _ address name result accepted (remove table result ih)
  | removed name reached ih => exact remove _ name ih

end WslVpn.Dns
