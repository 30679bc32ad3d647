import Mathlib
import WslVpn.Dns.NormalForm

/-! The entries of a table, in the order in which they are listed, saved and routed, and what every table
that can be reached keeps.
-/

open Separated

namespace WslVpn.Dns

open AddressSpace

/-- One line of the table. A wildcard keeps its leading `*.`. -/
structure Entry where
  address : IpAddr
  name : Text
  deriving DecidableEq

/-- The line that an entry is saved as. -/
def Entry.line (entry : Entry) : Text := entry.address.render ++ '\t' :: entry.name ++ ['\n']

/-- The map in the order of its names. -/
def NameMap.sorted (map : NameMap) : NameMap :=
  map.insertionSort (fun first second => first.1 ≤ second.1)

def NameMap.keys (map : NameMap) : List Text := map.map (·.1)

namespace Overrides

/-- Every name with its records, in a stable order. -/
def named (table : Overrides) : NameMap :=
  table.exact.sorted
    ++ table.wildcard.sorted.map (fun entry => (wildcardStart ++ entry.1, entry.2))

/-- Every entry, one per (address, name) pair. -/
def entries (table : Overrides) : List Entry :=
  table.named.flatMap (fun entry => entry.2.addresses.map (fun address => ⟨address, entry.1⟩))

def fileStart : Text :=
  "# Managed by WSL Zero Trust. One address, then the names it answers for.\n".toList

/-- Render back to hosts-file text, one line per entry. -/
def render (table : Overrides) : Text := fileStart ++ table.entries.flatMap Entry.line

/-- The domains that the operating system has to route to this resolver. -/
def routedDomains (table : Overrides) : List Text :=
  let domains := table.exact.sorted.keys ++ table.wildcard.sorted.keys
  (domains.insertionSort (· ≤ ·)).destutter (· ≠ ·)

/-- The records of a name or of a wildcard. -/
def slot (table : Overrides) (name : Text) : Option Records :=
  ((stripStart wildcardStart name).map table.wildcard.get).getD (table.exact.get name)

end Overrides

-----------------------------------------------------------------------------------------
-- Maps
-----------------------------------------------------------------------------------------

/-- A map has each key once, of a kind, and addresses for it, each of them once. -/
structure NameMap.Sound (kind : Text → Prop) (map : NameMap) : Prop where
  distinct : map.keys.Nodup
  keys : ∀ entry ∈ map, kind entry.1
  filled : ∀ entry ∈ map, entry.2.addresses ≠ []
  once : ∀ entry ∈ map, entry.2.addresses.Nodup

namespace NameMap

variable {map other : NameMap} {key : Text} {records : Records} {kind : Text → Prop}

theorem mem_of_get (found : map.get key = some records) : (key, records) ∈ map := by
  obtain ⟨entry, first, rfl⟩ := Option.map_eq_some_iff.mp found
  have same : entry.1 = key := by simpa using List.find?_some first
  rw [← same]
  exact List.mem_of_find?_eq_some first

theorem key_of_get (found : map.get key = some records) : key ∈ map.keys :=
  List.mem_map_of_mem (mem_of_get found)

theorem get_eq_none : map.get key = none ↔ key ∉ map.keys := by
  rw [get, Option.map_eq_none_iff, List.find?_eq_none, keys, List.mem_map, not_exists]
  constructor
  · intro none entry found
    exact absurd found.2 (by simpa using none entry found.1)
  · intro none entry member
    simpa using fun same => none entry ⟨member, same⟩

/-- Where each key is there once, an entry is found under its key. -/
theorem get_iff_mem (distinct : map.keys.Nodup)
    : map.get key = some records ↔ (key, records) ∈ map := by
  refine ⟨mem_of_get, ?_⟩
  intro member
  cases found : map.get key with
  | none =>
      exact absurd (List.mem_map_of_mem member) (get_eq_none.mp found)
  | some others =>
      have same := List.inj_on_of_nodup_map distinct (mem_of_get found) member rfl
      exact congrArg some (Prod.mk.inj same).2

/-- The order of the entries does not matter. -/
theorem get_perm (perm : map.Perm other) (distinct : map.keys.Nodup)
    : map.get key = other.get key := by
  have distinctOther : other.keys.Nodup := (perm.map _).nodup_iff.mp distinct
  refine Option.ext ?_
  intro records
  rw [get_iff_mem distinct, get_iff_mem distinctOther, perm.mem_iff]

theorem sorted_perm (map : NameMap) : map.sorted.Perm map := List.perm_insertionSort _ _

theorem get_cons {entry : Text × Records}
    : get (entry :: map) key = if key = entry.1 then some entry.2 else map.get key := by
  rw [get, List.find?_cons]
  by_cases same : key = entry.1
  · simp [same]
  · have apart : (entry.1 == key) = false := beq_eq_false_iff_ne.mpr (Ne.symm same)
    rw [apart, if_neg same]
    rfl

theorem get_append
    : get (map ++ other) key = (map.get key).or (other.get key) := by
  rw [get, List.find?_append, Option.map_or]
  rfl

namespace Sound

variable (sound : map.Sound kind)

include sound

theorem remove (key : Text) : (map.remove key).Sound kind where
  distinct := sound.distinct.sublist (List.filter_sublist.map _)
  keys entry member := sound.keys entry (List.mem_of_mem_filter member)
  filled entry member := sound.filled entry (List.mem_of_mem_filter member)
  once entry member := sound.once entry (List.mem_of_mem_filter member)

theorem put (ofKind : kind key) (filled : records.addresses ≠ []) (once : records.addresses.Nodup)
    : (map.put key records).Sound kind where
  distinct := by
    refine List.nodup_cons.mpr ⟨?_, (sound.remove key).distinct⟩
    intro member
    obtain ⟨entry, there, same⟩ := List.mem_map.mp member
    have apart := (List.mem_filter.mp there).2
    exact absurd same (by simpa using apart)
  keys := List.forall_mem_cons.mpr ⟨ofKind, (sound.remove key).keys⟩
  filled := List.forall_mem_cons.mpr ⟨filled, (sound.remove key).filled⟩
  once := List.forall_mem_cons.mpr ⟨once, (sound.remove key).once⟩

/-- An address that a key has already is not added. -/
theorem put_address (ofKind : kind key) (address : IpAddr)
    : (map.put key (Overrides.withAddress address (map.get key))).Sound kind := by
  refine sound.put ofKind ?_ ?_
  · rw [Overrides.withAddress]
    dsimp only
    split
    · next member => exact List.ne_nil_of_mem member
    · simp
  · have known : (((map.get key).map Records.addresses).getD []).Nodup := by
      cases found : map.get key with
      | none => exact List.nodup_nil
      | some records => exact sound.once _ (mem_of_get found)
    rw [Overrides.withAddress]
    dsimp only
    split
    · exact known
    · next fresh =>
        rw [← List.concat_eq_append]
        exact known.concat fresh

end Sound

end NameMap

-----------------------------------------------------------------------------------------
-- Tables
-----------------------------------------------------------------------------------------

/-- Names have host names as their keys, and wildcards suffixes of two labels at least. -/
structure Overrides.Sound (table : Overrides) : Prop where
  exact : table.exact.Sound HostText
  wildcard : table.wildcard.Sound (fun suffix => HostText suffix ∧ '.' ∈ suffix)

namespace Overrides

variable {table other : Overrides} {name suffix : Text} {address : IpAddr}

theorem Sound.empty : Overrides.empty.Sound where
  exact := ⟨List.nodup_nil, by simp [Overrides.empty], by simp [Overrides.empty],
    by simp [Overrides.empty]⟩
  wildcard := ⟨List.nodup_nil, by simp [Overrides.empty], by simp [Overrides.empty],
    by simp [Overrides.empty]⟩

theorem Sound.insert (sound : table.Sound) (normal : Normal name)
    : (table.insert address name).Sound := by
  cases normal with
  | host host =>
      rw [Overrides.insert, host.strip]
      exact ⟨sound.exact.put_address host address, sound.wildcard⟩
  | wildcard host two =>
      rw [Overrides.insert, stripStart_append]
      exact ⟨sound.exact, sound.wildcard.put_address ⟨host, two⟩ address⟩

theorem Sound.remove (sound : table.Sound) (name : Text) : (table.remove name).2.Sound := by
  rw [Overrides.remove]
  split
  · exact sound
  · split
    · exact ⟨sound.exact, sound.wildcard.remove _⟩
    · exact ⟨sound.exact.remove _, sound.wildcard⟩

@[simp] theorem slot_wildcard
    : table.slot (wildcardStart ++ suffix) = table.wildcard.get suffix := by
  rw [slot, stripStart_append]
  rfl

theorem slot_exact (plain : stripStart wildcardStart name = none)
    : table.slot name = table.exact.get name := by
  rw [slot, plain]
  rfl

end Overrides

/-- Every table that can be reached is sound. -/
theorem Reachable.sound {table : Overrides} (reached : Reachable table) : table.Sound := by
  refine reached.keeps .empty ?_ (fun table name sound => sound.remove name)
  intro table address name result accepted sound
  exact sound.insert (normal_of_normalise accepted)

/-- In every table that can be reached, only host names have entries. -/
theorem Reachable.hosts {table : Overrides} (reached : Reachable table) : table.Hosts where
  exact _ _ found := (reached.sound.exact.keys _ (NameMap.mem_of_get found)).hostName
  wildcard _ _ found := (reached.sound.wildcard.keys _ (NameMap.mem_of_get found)).1.hostName

end WslVpn.Dns
