import WslVpn.Dns.Lines
import WslVpn.Dns.Numerals
import WslVpn.Dns.Entries
import WslVpn.Dns.Server

/-! Saving a table and loading it again. Each line enters one address for one name, so that the addresses
of a name come back in their order.
-/

open Separated

namespace WslVpn.Dns

open AddressSpace

/-- The tables have the same records for every name and every wildcard. -/
structure Overrides.Same (table other : Overrides) : Prop where
  exact : ∀ name, table.exact.get name = other.exact.get name
  wildcard : ∀ suffix, table.wildcard.get suffix = other.wildcard.get suffix

/-- The table that entries are entered into, one after the other. -/
def Overrides.enter (table : Overrides) (entries : List Entry) : Overrides :=
  entries.foldl (fun table entry => table.insert entry.address entry.name) table

-----------------------------------------------------------------------------------------
-- Lines
-----------------------------------------------------------------------------------------

section Lines

variable {table : Overrides} {entry : Entry} {entries : List Entry}

/-- The line of an entry, without its end. -/
def Entry.text (entry : Entry) : Text := entry.address.render ++ '\t' :: entry.name

theorem address_visible {address : IpAddr}
    : ∀ char ∈ address.render, isWhitespace char = false ∧ char ≠ '#' := by
  intro char member
  have plain := (numerals_address address char member).plain
  exact ⟨plain.1, plain.2.1⟩

theorem address_filled {address : IpAddr} : address.render ≠ [] := by
  intro nothing
  have parsed := IpAddr.parse_render address
  rw [nothing] at parsed
  cases parsed

variable (normal : Normal entry.name)

include normal

/-- The tab is the only white space of a line, and no comment begins in it. -/
theorem text_chars {char : Char} (member : char ∈ entry.text)
    : char ≠ '#' ∧ (char = '\t' ∨ isWhitespace char = false) := by
  rcases List.mem_append.mp member with inAddress | behind
  · have visible := address_visible char inAddress
    exact ⟨visible.2, Or.inr visible.1⟩
  · rcases List.mem_cons.mp behind with rfl | inName
    · exact ⟨by decide, Or.inl rfl⟩
    · have plain := normal.plain char inName
      exact ⟨plain.uncommented, Or.inr plain.visible⟩

theorem text_last : ∀ char ∈ entry.text.getLast?, isWhitespace char = false := by
  intro char last
  rw [Entry.text, List.getLast?_append_of_ne_nil _ (List.cons_ne_nil _ _),
    List.getLast?_cons_of_ne_nil normal.filled] at last
  exact (normal.plain char (List.mem_of_getLast? last)).visible

theorem trim_text : trim entry.text = entry.text := by
  refine trimBy_of_trimmed ⟨?_, text_last normal⟩
  intro char first
  rw [Entry.text, List.head?_append_of_ne_nil _ address_filled] at first
  exact (address_visible char (List.mem_of_head? first)).1

theorem fields_text : splitWhitespace entry.text = [entry.address.render, entry.name] := by
  rw [splitWhitespace, Entry.text,
    List.splitOnP_append_cons_of_forall_mem (fun char member => (address_visible char member).1)
      '\t' (by decide),
    List.splitOnP_eq_singleton (fun char member => (normal.plain char member).visible)]
  simp [address_filled, normal.filled]

/-- A line with one name enters the address for it. -/
theorem parseLine_text (lineNo : Nat)
    : table.parseLine entry.text lineNo = .ok (table.insert entry.address entry.name) := by
  have uncommented : entry.text.takeWhile (· ≠ '#') = entry.text := by
    apply List.takeWhile_eq_self_iff.mpr
    intro char member
    exact decide_eq_true (text_chars normal member).1
  have filled : entry.text ≠ [] := by simp [Entry.text]
  have one : Overrides.parseName lineNo entry.address table entry.name
      = .ok (table.insert entry.address entry.name) := by
    rw [Overrides.parseName, normal.normalise]
  unfold Overrides.parseLine
  rw [uncommented, trim_text normal, if_neg filled, fields_text normal]
  simp only [List.headD_cons, List.tail_cons, IpAddr.parse_render, List.foldlM_cons, one]
  rfl

theorem unbroken_text : '\n' ∉ entry.text := by
  intro member
  rcases (text_chars normal member).2 with tab | white
  · cases tab
  · cases white

theorem dropReturn_text : dropReturn entry.text = entry.text := by
  refine if_neg ?_
  intro returns
  have white := text_last normal '\r' returns
  cases white

omit normal

/-- The lines of entries are entered one after the other, by induction on the entries. -/
theorem parse_lines (normal : ∀ entry ∈ entries, Normal entry.name) (lineNo : Nat)
    : ((lines (entries.flatMap Entry.line)).zipIdx lineNo).foldlM
        (fun table line => table.parseLine line.1 line.2) table
      = .ok (table.enter entries) := by
  induction entries generalizing table lineNo with
  | nil => rfl
  | cons entry entries ih =>
      obtain ⟨first, normal⟩ := List.forall_mem_cons.mp normal
      have shape : (entry :: entries).flatMap Entry.line
          = entry.text ++ '\n' :: entries.flatMap Entry.line := by
        simp [Entry.line, Entry.text]
      rw [shape, lines_cons (unbroken_text first), dropReturn_text first, List.zipIdx_cons,
        List.foldlM_cons]
      dsimp only
      rw [parseLine_text first]
      exact ih normal (lineNo + 1)

theorem parse_entries (normal : ∀ entry ∈ entries, Normal entry.name)
    : Overrides.parse (entries.flatMap Entry.line) = .ok (Overrides.empty.enter entries) :=
  parse_lines normal 1

/-- The first line of a saved table is a comment. -/
theorem parse_saved (normal : ∀ entry ∈ entries, Normal entry.name)
    : Overrides.parse (Overrides.fileStart ++ entries.flatMap Entry.line)
      = .ok (Overrides.empty.enter entries) := by
  have shape : Overrides.fileStart ++ entries.flatMap Entry.line
      = Overrides.fileStart.dropLast ++ '\n' :: entries.flatMap Entry.line := by
    have whole : Overrides.fileStart = Overrides.fileStart.dropLast ++ ['\n'] := by decide +kernel
    conv_lhs => rw [whole]
    simp
  have unbroken : '\n' ∉ Overrides.fileStart.dropLast := by decide +kernel
  have kept : dropReturn Overrides.fileStart.dropLast = Overrides.fileStart.dropLast := by
    decide +kernel
  have comment : Overrides.empty.parseLine Overrides.fileStart.dropLast 1 = .ok .empty := by
    decide +kernel
  rw [shape, Overrides.parse, lines_cons unbroken, kept, List.zipIdx_cons, List.foldlM_cons]
  change Overrides.empty.parseLine Overrides.fileStart.dropLast 1 >>= _ = _
  rw [comment]
  exact parse_lines normal 2

end Lines

-----------------------------------------------------------------------------------------
-- Entering
-----------------------------------------------------------------------------------------

namespace Overrides

variable {table again : Overrides} {name other suffix : Text} {address : IpAddr}
  {addresses known : List IpAddr}

/-- A name more changes what is known of it alone. -/
theorem slot_insert
    : (table.insert address name).slot other
      = if other = name then some (withAddress address (table.slot name)) else table.slot other := by
  rw [insert]
  cases stripped : stripStart wildcardStart name with
  | none =>
      rw [slot_exact stripped]
      cases strippedOther : stripStart wildcardStart other with
      | none =>
          rw [slot_exact strippedOther, slot_exact strippedOther]
          exact NameMap.get_put
      | some suffix =>
          obtain rfl := stripStart_some strippedOther
          have apart : wildcardStart ++ suffix ≠ name := by
            intro same
            rw [← same, stripStart_append] at stripped
            cases stripped
          rw [if_neg apart, slot_wildcard, slot_wildcard]
  | some suffix =>
      obtain rfl := stripStart_some stripped
      rw [slot_wildcard]
      cases strippedOther : stripStart wildcardStart other with
      | none =>
          have apart : other ≠ wildcardStart ++ suffix := by
            intro same
            rw [same, stripStart_append] at strippedOther
            cases strippedOther
          rw [if_neg apart, slot_exact strippedOther, slot_exact strippedOther]
      | some suffix' =>
          obtain rfl := stripStart_some strippedOther
          simp only [slot_wildcard, NameMap.get_put, List.append_cancel_left_eq]

/-- The entries of one name. -/
def entriesOf (name : Text) (addresses : List IpAddr) : List Entry :=
  addresses.map (fun address => ⟨address, name⟩)

/-- The entries of a name are nothing to other names, by induction on the addresses. -/
theorem slot_enter_other (apart : other ≠ name)
    : (table.enter (entriesOf name addresses)).slot other = table.slot other := by
  induction addresses generalizing table with
  | nil => rfl
  | cons address addresses ih =>
      refine (@ih (table.insert address name)).trans ?_
      rw [slot_insert, if_neg apart]

/-- Addresses that are different are all kept, in their order, by induction on them. -/
theorem slot_enter_more (found : table.slot name = some ⟨known⟩)
    (distinct : (known ++ addresses).Nodup)
    : (table.enter (entriesOf name addresses)).slot name = some ⟨known ++ addresses⟩ := by
  induction addresses generalizing table known with
  | nil =>
      rw [List.append_nil]
      exact found
  | cons address addresses ih =>
      have fresh : address ∉ known := by
        intro member
        exact List.disjoint_of_nodup_append distinct member List.mem_cons_self
      have next := @ih (table.insert address name) (known ++ [address])
      rw [List.append_assoc, List.singleton_append] at next
      refine next ?_ distinct
      rw [slot_insert, if_pos rfl, found, withAddress]
      simp [fresh]

/-- The entries of a new name are what it has afterwards. -/
theorem slot_enter_new (new : table.slot name = none) (filled : addresses ≠ [])
    (distinct : addresses.Nodup)
    : (table.enter (entriesOf name addresses)).slot other
      = if other = name then some ⟨addresses⟩ else table.slot other := by
  split
  · next same =>
      rw [same]
      cases addresses with
      | nil => exact absurd rfl filled
      | cons address addresses =>
          have first : (table.insert address name).slot name = some ⟨[address]⟩ := by
            rw [slot_insert, if_pos rfl, new]
            rfl
          exact slot_enter_more first distinct
  · next apart => exact slot_enter_other apart

/-- A table is filled name by name, by induction on the names. -/
theorem slot_enter {kind : Text → Prop} {names : NameMap} (sound : names.Sound kind)
    (new : ∀ entry ∈ names, table.slot entry.1 = none)
    : (table.enter (names.flatMap (fun entry => entriesOf entry.1 entry.2.addresses))).slot other
      = (names.get other).or (table.slot other) := by
  induction names generalizing table with
  | nil => rfl
  | cons first rest ih =>
      obtain ⟨fresh, distinct⟩ := List.nodup_cons.mp sound.distinct
      obtain ⟨here, keys⟩ := List.forall_mem_cons.mp sound.keys
      obtain ⟨filled, othersFilled⟩ := List.forall_mem_cons.mp sound.filled
      obtain ⟨once, othersOnce⟩ := List.forall_mem_cons.mp sound.once
      obtain ⟨firstNew, othersNew⟩ := List.forall_mem_cons.mp new
      have entered {other : Text} := @slot_enter_new table first.1 other _ firstNew filled once
      have later : ∀ entry ∈ rest,
          (table.enter (entriesOf first.1 first.2.addresses)).slot entry.1 = none := by
        intro entry member
        have apart : entry.1 ≠ first.1 := by
          intro same
          exact fresh (List.mem_map.mpr ⟨entry, member, same⟩)
        rw [entered, if_neg apart]
        exact othersNew entry member
      have next := ih ⟨distinct, keys, othersFilled, othersOnce⟩ later
      rw [List.flatMap_cons, enter, List.foldl_append]
      refine next.trans ?_
      rw [entered, NameMap.get_cons]
      split
      · next same =>
          have absent : NameMap.get rest other = none := by
            rw [same]
            exact NameMap.get_eq_none.mpr fresh
          rw [absent, Option.none_or, Option.some_or]
      · rfl

/-- A map of wildcards under their full names. -/
theorem get_starred {map : NameMap}
    : NameMap.get (map.map (fun entry => (wildcardStart ++ entry.1, entry.2))) name
      = (stripStart wildcardStart name).bind map.get := by
  induction map with
  | nil => cases stripStart wildcardStart name <;> rfl
  | cons first rest ih =>
      rw [List.map_cons, NameMap.get_cons, ih]
      cases stripped : stripStart wildcardStart name with
      | none =>
          have apart : name ≠ wildcardStart ++ first.1 := by
            intro same
            rw [same, stripStart_append] at stripped
            cases stripped
          rw [if_neg apart, Option.bind_none, Option.bind_none]
      | some suffix =>
          obtain rfl := stripStart_some stripped
          rw [Option.bind_some, Option.bind_some, NameMap.get_cons]
          simp only [List.append_cancel_left_eq]

namespace Sound

variable (sound : table.Sound)

include sound

/-- No name that begins as a wildcard does is there as an exact one. -/
theorem exact_starred : table.exact.get (wildcardStart ++ suffix) = none := by
  cases found : table.exact.get (wildcardStart ++ suffix) with
  | none => rfl
  | some records =>
      have plain := (sound.exact.keys _ (NameMap.mem_of_get found)).strip
      rw [stripStart_append] at plain
      cases plain

/-- Every name is listed with what is known of it. -/
theorem get_named : table.named.get name = table.slot name := by
  have exact := @NameMap.get_perm _ _ name table.exact.sorted_perm.symm sound.exact.distinct
  have wildcard (suffix : Text) :=
    @NameMap.get_perm _ _ suffix table.wildcard.sorted_perm.symm sound.wildcard.distinct
  rw [named, NameMap.get_append, get_starred, ← exact]
  cases stripped : stripStart wildcardStart name with
  | none => rw [slot_exact stripped, Option.bind_none, Option.or_none]
  | some suffix =>
      obtain rfl := stripStart_some stripped
      rw [sound.exact_starred, slot_wildcard, Option.bind_some, Option.none_or, wildcard]

/-- The listed names are in normal form and all different. -/
theorem named_sound : table.named.Sound Normal where
  distinct := by
    rw [NameMap.keys, named, List.map_append, List.map_map]
    refine List.nodup_append.mpr ⟨?_, ?_, ?_⟩
    · exact (table.exact.sorted_perm.map _).nodup_iff.mpr sound.exact.distinct
    · have distinct : (table.wildcard.sorted.map (·.1)).Nodup :=
        (table.wildcard.sorted_perm.map _).nodup_iff.mpr sound.wildcard.distinct
      have starred := distinct.map (List.append_right_injective wildcardStart)
      rwa [List.map_map] at starred
    · intro name member other memberOther same
      obtain ⟨entry, there, rfl⟩ := List.mem_map.mp member
      obtain ⟨entry', _, rfl⟩ := List.mem_map.mp memberOther
      have plain := (sound.exact.keys entry (table.exact.sorted_perm.mem_iff.mp there)).strip
      rw [same, Function.comp_apply, stripStart_append] at plain
      cases plain
  keys entry member := by
    rcases List.mem_append.mp member with exact | wild
    · exact .host (sound.exact.keys entry (table.exact.sorted_perm.mem_iff.mp exact))
    · obtain ⟨entry, there, rfl⟩ := List.mem_map.mp wild
      have host := sound.wildcard.keys entry (table.wildcard.sorted_perm.mem_iff.mp there)
      exact .wildcard host.1 host.2
  filled entry member := by
    rcases List.mem_append.mp member with exact | wild
    · exact sound.exact.filled entry (table.exact.sorted_perm.mem_iff.mp exact)
    · obtain ⟨entry, there, rfl⟩ := List.mem_map.mp wild
      exact sound.wildcard.filled entry (table.wildcard.sorted_perm.mem_iff.mp there)
  once entry member := by
    rcases List.mem_append.mp member with exact | wild
    · exact sound.exact.once entry (table.exact.sorted_perm.mem_iff.mp exact)
    · obtain ⟨entry, there, rfl⟩ := List.mem_map.mp wild
      exact sound.wildcard.once entry (table.wildcard.sorted_perm.mem_iff.mp there)

/-- Entered into an empty table, the entries of a table make the same table again. -/
theorem slot_entries : (Overrides.empty.enter table.entries).slot name = table.slot name := by
  have new : ∀ entry ∈ table.named, Overrides.empty.slot entry.1 = none := by
    intro entry _
    rw [slot]
    cases stripStart wildcardStart entry.1 <;> rfl
  have nothing : Overrides.empty.slot name = none := by
    rw [slot]
    cases stripStart wildcardStart name <;> rfl
  have entered := @slot_enter .empty name _ _ sound.named_sound new
  rw [nothing, Option.or_none, sound.get_named] at entered
  exact entered

/-- Tables that know the same of every name are the same. -/
theorem same (soundAgain : again.Sound) (slots : ∀ name, table.slot name = again.slot name)
    : table.Same again where
  wildcard suffix := by
    have starred := slots (wildcardStart ++ suffix)
    rwa [slot_wildcard, slot_wildcard] at starred
  exact name := by
    cases stripped : stripStart wildcardStart name with
    | none =>
        have plain := slots name
        rwa [slot_exact stripped, slot_exact stripped] at plain
    | some suffix =>
        obtain rfl := stripStart_some stripped
        rw [sound.exact_starred, soundAgain.exact_starred]

end Sound

/-- The same table answers every name in the same way. -/
theorem Same.lookup (same : table.Same again) (name : Text)
    : table.lookup name = again.lookup name := by
  have wildcard : table.wildcard.get = again.wildcard.get := funext same.wildcard
  rw [Overrides.lookup, Overrides.lookup, same.exact, wildcard]

theorem Same.handle (same : table.Same again) (ttl : Nat) (query : Bytes)
    : handle ttl table query = handle ttl again query := by
  unfold Dns.handle
  simp only [same.lookup]

end Overrides

/-- A table that can be reached is loaded again as it was saved, and every query is answered as before.
-/
theorem load_saved {table : Overrides} (reached : Reachable table)
    : ∃ reloaded, Overrides.parse table.render = .ok reloaded ∧ reloaded.Same table
        ∧ ∀ ttl query, handle ttl reloaded query = handle ttl table query := by
  have sound := reached.sound
  have normal : ∀ entry ∈ table.entries, Normal entry.name := by
    intro entry member
    obtain ⟨named, there, inside⟩ := List.mem_flatMap.mp member
    obtain ⟨address, _, rfl⟩ := List.mem_map.mp inside
    exact sound.named_sound.keys named there
  have parsed := parse_saved normal
  have soundReloaded := (Reachable.parsed parsed).sound
  have same : (Overrides.empty.enter table.entries).Same table :=
    soundReloaded.same sound (fun name => sound.slot_entries)
  exact ⟨_, parsed, same, same.handle⟩

/-- A file with two names and a wildcard, of which one name is changed and the other one removed. -/
def sampleFile : Text :=
  "10.0.0.5 b.example.com a.example.com *.example.com
fd00::5 A.example.com.
".toList

def sampleTable : Overrides where
  exact := [
    ("a.example.com".toList, ⟨[.v4 0x0a000005, .v6 0xfd000000000000000000000000000005]⟩),
    ("b.example.com".toList, ⟨[.v4 0x0a000005]⟩)]
  wildcard := [("example.com".toList, ⟨[.v4 0x0a000005]⟩)]

theorem sampleTable_parsed : Overrides.parse sampleFile = .ok sampleTable := by decide +kernel

def changedTable : Overrides where
  exact := [("a.example.com".toList, ⟨[.v4 0x7f000001]⟩), ("b.example.com".toList, ⟨[.v4 0x0a000005]⟩)]
  wildcard := sampleTable.wildcard

theorem load_saved_sample
    : ∃ reloaded, Overrides.parse (changedTable.remove "B.example.com.".toList).2.render = .ok reloaded
        ∧ reloaded.Same (changedTable.remove "B.example.com.".toList).2
        ∧ ∀ ttl query, handle ttl reloaded query
          = handle ttl (changedTable.remove "B.example.com.".toList).2 query := by
  have changed : sampleTable.set "a.example.com".toList (.v4 0x7f000001) = .ok changedTable := by
    decide +kernel
  exact load_saved (.removed _ (.changed (.parsed sampleTable_parsed) changed))

end WslVpn.Dns
