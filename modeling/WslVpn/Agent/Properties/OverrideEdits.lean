import WslVpn.Agent.Properties.OverrideRoutes

/-! What a command that succeeds has done: the table in the file is the edited one, and the routes are
those that it wants. And which edits ask for no privilege.
-/

namespace WslVpn.Agent.DnsRouting

open AddressSpace
open Dns
open Fallible

-----------------------------------------------------------------------------------------
-- Tables
-----------------------------------------------------------------------------------------

section Tables

variable {table edited other : Overrides} {name normal known : Text} {address : IpAddr}

/-- A name that is removed is no longer known, and all others are as before. -/
theorem slot_remove (accepted : Dns.normalise name = .ok normal)
    : (table.remove name).2.slot known = if known = normal then none else table.slot known := by
  rw [Overrides.remove, accepted]
  dsimp only
  cases stripped : stripStart wildcardStart normal with
  | none =>
      cases strippedKnown : stripStart wildcardStart known with
      | none =>
          rw [Overrides.slot_exact strippedKnown, Overrides.slot_exact strippedKnown]
          exact NameMap.get_remove
      | some suffix =>
          obtain rfl := stripStart_some strippedKnown
          have apart : wildcardStart ++ suffix ≠ normal := by
            intro same
            rw [← same, stripStart_append] at stripped
            cases stripped
          rw [if_neg apart, Overrides.slot_wildcard, Overrides.slot_wildcard]
  | some suffix =>
      obtain rfl := stripStart_some stripped
      cases strippedKnown : stripStart wildcardStart known with
      | none =>
          have apart : known ≠ wildcardStart ++ suffix := by
            intro same
            rw [same, stripStart_append] at strippedKnown
            cases strippedKnown
          rw [if_neg apart, Overrides.slot_exact strippedKnown, Overrides.slot_exact strippedKnown]
      | some suffix' =>
          obtain rfl := stripStart_some strippedKnown
          simp only [Overrides.slot_wildcard, NameMap.get_remove, List.append_cancel_left_eq]

theorem remove_found (found : (table.remove name).1 = true)
    : ∃ normal, Dns.normalise name = .ok normal ∧ table.slot normal ≠ none := by
  rw [Overrides.remove] at found
  cases accepted : Dns.normalise name with
  | error message =>
      rw [accepted] at found
      cases found
  | ok normal =>
      rw [accepted] at found
      refine ⟨normal, rfl, ?_⟩
      rw [Overrides.slot]
      cases stripped : stripStart wildcardStart normal with
      | none =>
          simp only [stripped] at found
          exact Option.isSome_iff_ne_none.mp found
      | some suffix =>
          simp only [stripped] at found
          exact Option.isSome_iff_ne_none.mp found

/-- A name that is set answers with the address alone, and all others as before. -/
theorem slot_set (made : table.set name address = .ok edited)
    : ∃ normal, Dns.normalise name = .ok normal
        ∧ ∀ known, edited.slot known
          = if known = normal then some ⟨[address]⟩ else table.slot known := by
  rw [Overrides.set] at made
  cases accepted : Dns.normalise name with
  | error message =>
      rw [accepted] at made
      cases made
  | ok normal =>
      rw [accepted] at made
      cases made
      refine ⟨normal, rfl, fun known => ?_⟩
      have again := (normal_of_normalise accepted).normalise
      rw [Overrides.slot_insert, slot_remove again, slot_remove again]
      by_cases same : known = normal
      · simp [same, Overrides.withAddress]
      · simp [same]

theorem set_sound (sound : table.Sound) (made : table.set name address = .ok edited)
    : edited.Sound := by
  rw [Overrides.set] at made
  cases accepted : Dns.normalise name with
  | error message =>
      rw [accepted] at made
      cases made
  | ok normal =>
      rw [accepted] at made
      cases made
      exact (sound.remove normal).insert (normal_of_normalise accepted)

/-- Tables that know the same names want the same routes. -/
theorem routedDomains_congr (sound : table.Sound) (soundOther : other.Sound)
    (slots : ∀ name, table.slot name = none ↔ other.slot name = none)
    : table.routedDomains = other.routedDomains := by
  have distinct (table : Overrides) : table.routedDomains.Nodup := by
    rw [routedDomains_eq]
    exact List.nodup_dedup _
  have sorted (table : Overrides) : table.routedDomains.Pairwise (· ≤ ·) := by
    rw [routedDomains_eq]
    exact (List.pairwise_insertionSort _ _).sublist (List.dedup_sublist _)
  have inside {table other : Overrides} (sound : table.Sound)
      (slots : ∀ name, table.slot name = none ↔ other.slot name = none) {domain : Text}
      (routed : domain ∈ table.routedDomains) : domain ∈ other.routedDomains := by
    refine mem_routedDomains.mpr ((mem_routedDomains.mp routed).imp ?_ ?_)
    · intro exact
      obtain ⟨entry, member, rfl⟩ := List.mem_map.mp exact
      have plain := (sound.exact.keys entry member).strip
      by_contra missing
      have none := NameMap.get_eq_none.mpr missing
      rw [← Overrides.slot_exact plain, ← slots, Overrides.slot_exact plain] at none
      exact NameMap.get_eq_none.mp none exact
    · intro wildcard
      by_contra missing
      have none := NameMap.get_eq_none.mpr missing
      rw [← Overrides.slot_wildcard, ← slots, Overrides.slot_wildcard] at none
      exact NameMap.get_eq_none.mp none wildcard
  have perm : table.routedDomains.Perm other.routedDomains := by
    rw [List.perm_ext_iff_of_nodup (distinct table) (distinct other)]
    exact fun domain => ⟨inside sound slots, inside soundOther (fun name => (slots name).symm)⟩
  exact perm.eq_of_pairwise' (sorted table) (sorted other)

/-- A saved table is loaded with all that it knows. -/
theorem tableIn_render (sound : table.Sound)
    : ∃ reloaded, tableIn (some table.render) = .ok reloaded ∧ reloaded.Sound
        ∧ ∀ name, reloaded.slot name = table.slot name := by
  have normal : ∀ entry ∈ table.entries, Normal entry.name := by
    intro entry member
    obtain ⟨named, there, inside⟩ := List.mem_flatMap.mp member
    obtain ⟨address, _, rfl⟩ := List.mem_map.mp inside
    exact sound.named_sound.keys named there
  have parsed := parse_saved normal
  exact ⟨_, parsed, (Reachable.parsed parsed).sound, fun name => sound.slot_entries⟩

end Tables

-----------------------------------------------------------------------------------------
-- Commands that succeed
-----------------------------------------------------------------------------------------

/-- The file holds a table with these records, and where overrides are on its domains are routed. -/
structure Kept (site : Site) (machine after : Machine) (slot : Text → Option Records) : Prop where
  table
    : ∃ table, tableIn after.hosts = .ok table ∧ (∀ name, table.slot name = slot name)
        ∧ (site.supported = true → after.job.isSome →
            Follows machine.resolvers after.resolvers table.routedDomains)

/-- What the command was to do. -/
def Obeyed (site : Site) (machine after : Machine) : DnsCommand → Prop
  | .set name address =>
      ∃ table normal, tableIn machine.hosts = .ok table ∧ Dns.normalise name = .ok normal
        ∧ Kept site machine after (fun known => if known = normal then some ⟨[address]⟩ else table.slot known)
  | .remove name =>
      ∃ table normal, tableIn machine.hosts = .ok table ∧ Dns.normalise name = .ok normal
        ∧ table.slot normal ≠ none
        ∧ Kept site machine after (fun known => if known = normal then none else table.slot known)
  | .apply =>
      ∃ table, tableIn machine.hosts = .ok table ∧ after.job.isSome
        ∧ Kept site machine after table.slot
  | .disable =>
      after.hosts = machine.hosts
        ∧ (site.supported = true → routed after.resolvers = [] ∧ after.job = none)

section Success

variable {site : Site} {outside : Outside} {machine : Machine} {table : Overrides}
  {hosts : Option Text} {resolvers : Directory}

theorem follows_routed (wanted : List Text) (same : routed resolvers = wanted)
    : Follows resolvers resolvers wanted where
  only _ member := same ▸ member
  all _ member _ := same ▸ member
  same _ := same

theorem route_follows (sound : table.Sound)
    : Triple (fun machine => (machine.hosts = hosts ∧ machine.resolvers = resolvers) ∧ machine.job.isSome)
        (route site outside table.routedDomains)
        (fun _ after => after.hosts = hosts ∧ after.job.isSome
          ∧ Follows resolvers after.resolvers table.routedDomains)
        (fun _ => True) := by
  have accepted := wantedOf_routedDomains sound
  have sorted : table.routedDomains.Pairwise (· ≤ ·) := by
    rw [routedDomains_eq]
    exact (List.pairwise_insertionSort _ _).sublist (List.dedup_sublist _)
  refine .forEach (fun machine holds => route_triple.mono ?_ (fun _ _ => trivial))
  rintro _ after ⟨report, synced, same⟩
  obtain ⟨middle, ran⟩ := sync_ran accepted synced
  obtain ⟨⟨sameHosts, rfl⟩, installed⟩ := holds
  refine ⟨?_, ?_, follows accepted sorted ran⟩
  · rw [same]
    exact sameHosts
  · rw [same]
    exact installed

theorem start_kept
    : Triple (fun machine => machine.hosts = hosts ∧ machine.resolvers = resolvers) (start site outside)
        (fun _ machine => (machine.hosts = hosts ∧ machine.resolvers = resolvers) ∧ machine.job.isSome)
        (fun _ => True) :=
  (start_triple (fun _ _ same => same)).mono (fun _ _ done => done) (fun _ _ => trivial)

/-- What is routed behind an edit is what the table wants that is in the file. -/
theorem reconcile_follows (read : tableIn hosts = .ok table)
    : Triple (fun machine => machine.hosts = hosts ∧ machine.resolvers = resolvers)
        (reconcile site outside)
        (fun _ after => after.hosts = hosts
          ∧ (site.supported = true → after.job.isSome →
              Follows resolvers after.resolvers table.routedDomains))
        (fun _ => True) := by
  refine .get_bind (fun seen holds => .ite (fun off => .pure ?_) (fun _ => ?_))
  · rintro _ rfl
    refine ⟨holds.1, fun supported installed => ?_⟩
    simp [supported, Option.isNone_iff_eq_none] at off
    simp [off] at installed
  · refine .bind (load_triple.mono (fun _ _ loaded => loaded) (fun _ _ => trivial))
      (fun overrides => ?_)
    refine .forEach (fun machine loaded => ?_)
    obtain ⟨rfl, found⟩ := loaded
    rw [holds.1, read] at found
    cases found
    refine .ite (fun same => .pure ?_) (fun _ => ?_)
    · rintro _ rfl
      exact ⟨holds.1, fun _ _ => holds.2 ▸ follows_routed _ same⟩
    · refine .bind (start_kept.strengthen (fun _ same => same ▸ holds)) (fun _ => ?_)
      refine .bind (route_follows (tableIn_sound read)) (fun _ => ?_)
      exact .pure (fun _ done => ⟨done.1, fun _ _ => done.2.2⟩)

/-- The edited table is in the file, and the routes follow it. -/
theorem save_kept (sound : table.Sound)
    : Triple (fun now => now = machine) (do
          save outside table
          reconcile site outside)
        (fun _ after => Kept site machine after table.slot) (fun _ => True) := by
  obtain ⟨reloaded, read, _, slots⟩ := tableIn_render sound
  have saved : Triple (fun now => now = machine) (save outside table)
      (fun _ now => now.hosts = some table.render ∧ now.resolvers = machine.resolvers) (fun _ => True) := by
    refine .ite (fun _ => .modify ?_) (fun _ => .throw (fun _ _ => trivial))
    rintro _ rfl
    exact ⟨rfl, rfl⟩
  refine .bind saved (fun _ => (reconcile_follows read).mono ?_ (fun _ _ => trivial))
  rintro _ after ⟨same, follows⟩
  exact ⟨reloaded, same ▸ read, slots, follows⟩

/-- The edit of a table that has been loaded changes nothing yet. -/
theorem edit_triple {name : Text} {address : IpAddr}
    : Triple (fun now => now = machine)
        (liftExcept ((table.set name address).mapError Failure.name) : Act Overrides)
        (fun edited now => now = machine ∧ table.set name address = .ok edited)
        (fun now => now = machine) := by
  refine .liftExcept ?_ (fun _ same => same)
  intro edited state made same
  refine ⟨same, ?_⟩
  cases result : table.set name address with
  | error message =>
      rw [result] at made
      cases made
  | ok value =>
      rw [result] at made
      cases made
      rfl

theorem set_obeyed (name : Text) (address : IpAddr)
    : Triple (fun now => now = machine) (setOverride site outside name address)
        (fun _ after => Obeyed site machine after (.set name address)) (fun _ => True) := by
  refine .bind (load_triple.mono (fun _ _ loaded => loaded) (fun _ _ => trivial)) (fun table => ?_)
  refine .forEach (fun now loaded => ?_)
  obtain ⟨rfl, read⟩ := loaded
  refine .bind (edit_triple.mono (fun _ _ made => made) (fun _ _ => trivial)) (fun edited => ?_)
  refine .forEach (fun state made => ?_)
  obtain ⟨rfl, made⟩ := made
  obtain ⟨normal, accepted, slots⟩ := slot_set made
  refine (save_kept (set_sound (tableIn_sound read) made)).mono ?_ (fun _ _ => trivial)
  intro _ after kept
  exact ⟨table, normal, read, accepted, (funext slots) ▸ kept⟩

theorem remove_obeyed (name : Text)
    : Triple (fun now => now = machine) (removeOverride site outside name)
        (fun _ after => Obeyed site machine after (.remove name)) (fun _ => True) := by
  refine .bind (load_triple.mono (fun _ _ loaded => loaded) (fun _ _ => trivial)) (fun table => ?_)
  refine .forEach (fun now loaded => ?_)
  obtain ⟨rfl, read⟩ := loaded
  refine .ite (fun _ => .throw (fun _ _ => trivial)) (fun found => ?_)
  obtain ⟨normal, accepted, known⟩ := remove_found (by simpa using found)
  refine (save_kept ((tableIn_sound read).remove name)).mono ?_ (fun _ _ => trivial)
  intro _ after kept
  exact ⟨table, normal, read, accepted, known,
    (funext (fun _ => slot_remove accepted) : (table.remove name).2.slot = _) ▸ kept⟩

theorem apply_obeyed
    : Triple (fun now => now = machine) (apply site outside)
        (fun status after => Obeyed site machine after .apply
          ∧ status = DnsRouting.status site outside after) (fun _ => True) := by
  refine .ite (fun _ => .throw (fun _ _ => trivial)) (fun _ => ?_)
  refine .bind (load_triple.mono (fun _ _ loaded => loaded) (fun _ _ => trivial)) (fun table => ?_)
  refine .forEach (fun now loaded => ?_)
  obtain ⟨rfl, read⟩ := loaded
  have starts := (@start_kept site outside now.hosts now.resolvers).strengthen
    (fun state (same : state = now) => same ▸ ⟨rfl, rfl⟩)
  refine .bind starts (fun _ => ?_)
  have routes : Triple
      (fun machine => (machine.hosts = now.hosts ∧ machine.resolvers = now.resolvers) ∧ machine.job.isSome)
      (routeChanged site outside table.routedDomains)
      (fun _ after => after.hosts = now.hosts ∧ after.job.isSome
        ∧ Follows now.resolvers after.resolvers table.routedDomains) (fun _ => True) := by
    refine .get_bind (fun seen holds => .ite (fun same => .pure ?_) (fun _ => ?_))
    · rintro _ rfl
      exact ⟨holds.1.1, holds.2, holds.1.2 ▸ follows_routed _ same⟩
    · exact (route_follows (tableIn_sound read)).strengthen (fun _ same => same ▸ holds)
  refine .bind routes (fun _ => .get_bind (fun after done => .pure ?_))
  rintro _ rfl
  obtain ⟨sameHosts, installed, follows⟩ := done
  exact ⟨⟨table, read, installed, table, sameHosts ▸ read, fun _ => rfl, fun _ _ => follows⟩, rfl⟩

theorem disable_obeyed
    : Triple (fun now => now = machine) (disable site outside)
        (fun status after => Obeyed site machine after .disable
          ∧ status = DnsRouting.status site outside after) (fun _ => True) := by
  have unroutes : Triple (fun now => now = machine) (unroute site outside)
      (fun _ now => now.hosts = machine.hosts ∧ (site.supported = true → routed now.resolvers = []))
      (fun _ => True) := by
    refine .ite (fun _ => .get_bind (fun seen same => ?_)) (fun unsupported => .pure ?_)
    · subst same
      refine .ite (fun none => .pure ?_) (fun _ => route_triple.mono ?_ (fun _ _ => trivial))
      · rintro _ rfl
        exact ⟨rfl, fun _ => none⟩
      · rintro _ now ⟨report, synced, same⟩
        have none := (@sync_nothing seen.resolvers Site.listenIp site.port).2
        rw [synced] at none
        exact ⟨by rw [same]; rfl, fun _ => none⟩
    · rintro _ rfl
      exact ⟨rfl, fun supported => absurd supported unsupported⟩
  have stops : Triple
      (fun now => now.hosts = machine.hosts ∧ (site.supported = true → routed now.resolvers = []))
      (stop site outside) (fun _ after => Obeyed site machine after .disable) (fun _ => True) := by
    refine .ite (fun unsupported => .pure ?_) (fun _ => .get_bind (fun seen holds => ?_))
    · exact fun _ holds => ⟨holds.1, fun supported => by simp [supported] at unsupported⟩
    · refine .ite (fun missing => .pure ?_)
        (fun _ => .ite (fun _ => .modify ?_) (fun _ => .throw ?_))
      · rintro _ rfl
        exact ⟨holds.1, fun supported => ⟨holds.2 supported, Option.isNone_iff_eq_none.mp missing⟩⟩
      · rintro _ rfl
        exact ⟨holds.1, fun supported => ⟨holds.2 supported, rfl⟩⟩
      · exact fun _ _ => trivial
  refine .bind unroutes (fun _ => .bind stops (fun _ => .get_bind (fun after done => .pure ?_)))
  rintro _ rfl
  exact ⟨done, rfl⟩

end Success

/-- A command that succeeds has done what it was to do: the table in the file knows what was asked for and
everything else as before, and with overrides on its domains are routed, as far as nobody else has their
files; turned off, nothing is routed.
-/
theorem command_obeyed {site : Site} {outside : Outside} {machine after : Machine}
    {command : DnsCommand}
    (ran : exec (runCommand site outside command) machine = (.ok ⟨⟩, after))
    : Obeyed site machine after command := by
  suffices obeyed : Triple (fun now => now = machine) (runCommand site outside command)
      (fun _ after => Obeyed site machine after command) (fun _ => True) from obeyed.ok rfl ran
  cases command with
  | set name address => exact .bind (set_obeyed name address) (fun _ => .pure (fun _ obeyed => obeyed))
  | remove name => exact .bind (remove_obeyed name) (fun _ => .pure (fun _ obeyed => obeyed))
  | apply => exact .bind apply_obeyed (fun _ => .pure (fun _ obeyed => obeyed.1))
  | disable => exact .bind disable_obeyed (fun _ => .pure (fun _ obeyed => obeyed.1))

/-- A wildcard is added while overrides are off. -/
theorem command_obeyed_wildcard
    : ∃ after, Obeyed exampleSite (exampleMachine [] List.nodup_nil) after
        (.set "*.B.example.com.".toList (.v4 0x0a000002)) := by
  have succeeded : (exec (runCommand exampleSite allWell
      (.set "*.B.example.com.".toList (.v4 0x0a000002)))
      (exampleMachine [] List.nodup_nil)).1.toOption = some ⟨⟩ := by
    decide +kernel
  rcases ran : exec (runCommand exampleSite allWell (.set "*.B.example.com.".toList (.v4 0x0a000002)))
      (exampleMachine [] List.nodup_nil) with ⟨result, after⟩
  rw [ran] at succeeded
  obtain rfl : result = .ok ⟨⟩ := eq_ok succeeded
  exact ⟨after, command_obeyed ran⟩

-----------------------------------------------------------------------------------------
-- Edits without privilege
-----------------------------------------------------------------------------------------

/-- The routes are those that the table in the file wants. -/
def Settled (machine : Machine) : Prop :=
  ∃ table, tableIn machine.hosts = .ok table ∧ routed machine.resolvers = table.routedDomains

/-- The command adds no name to the table and takes none from it. -/
inductive Quiet (machine : Machine) : DnsCommand → Prop where
  | apply : Quiet machine .apply
  | set {table name normal} (address : IpAddr) (read : tableIn machine.hosts = .ok table)
    (accepted : Dns.normalise name = .ok normal) (known : table.slot normal ≠ none)
    : Quiet machine (.set name address)

/-- A command that adds and takes no name, wherever it runs and however it ends. -/
inductive QuietStep : Machine → Machine → Prop where
  | command {machine} (site : Site) (outside : Outside) {command : DnsCommand}
    (quiet : Quiet machine command)
    : QuietStep machine (exec (runCommand site outside command) machine).2

/-- No privilege was asked for and no route was changed, and the routes are still those of the
table.
-/
structure Untouched (machine after : Machine) : Prop where
  settled : Settled after
  resolvers : after.resolvers = machine.resolvers
  privileged : after.privileged = machine.privileged

section Quiet

variable {site : Site} {outside : Outside} {machine : Machine} {name : Text} {address : IpAddr}

/-- Where the routes are settled, bringing them up to date does nothing. -/
theorem apply_untouched : Keeps (Untouched machine) (apply site outside) := by
  refine .ite (fun _ => .throw (fun _ holds => holds))
    (fun _ => .bind load_triple (fun overrides => ?_))
  have starts : Triple
      (fun now => Untouched machine now ∧ tableIn now.hosts = .ok overrides) (start site outside)
      (fun _ now => Untouched machine now ∧ tableIn now.hosts = .ok overrides) (Untouched machine) :=
    (start_triple (fun _ _ holds =>
      ⟨⟨holds.1.settled, holds.1.resolvers, holds.1.privileged⟩, holds.2⟩)).mono
        (fun _ _ done => done.1) (fun _ holds => holds.1)
  have routes : Triple (fun now => Untouched machine now ∧ tableIn now.hosts = .ok overrides)
      (routeChanged site outside overrides.routedDomains) (fun _ => Untouched machine)
      (Untouched machine) := by
    refine .get_bind (fun seen holds => ?_)
    obtain ⟨table, read, settled⟩ := holds.1.settled
    rw [holds.2] at read
    cases read
    exact .ite (fun _ => .pure (fun _ same => same ▸ holds.1))
      (fun changed => absurd settled changed)
  refine .bind starts (fun _ => .bind routes (fun _ => .get_bind (fun _ holds => .pure ?_)))
  exact fun _ same => same ▸ holds

theorem reconcile_untouched : Keeps (Untouched machine) (reconcile site outside) := by
  refine .get_bind (fun seen holds => .ite (fun _ => .pure (fun _ same => same ▸ holds)) (fun _ => ?_))
  refine .bind (load_triple.mono (fun _ _ loaded => loaded) (fun _ same => same ▸ holds))
    (fun overrides => ?_)
  refine .forEach (fun now loaded => ?_)
  obtain ⟨rfl, read⟩ := loaded
  obtain ⟨table, found, settled⟩ := holds.settled
  rw [read] at found
  cases found
  exact .ite (fun _ => .pure (fun _ same => same ▸ holds)) (fun changed => absurd settled changed)

/-- The table with another address for a name that it knows wants the same routes. -/
theorem save_untouched {table edited : Overrides} (sound : edited.Sound)
    (settled : routed machine.resolvers = table.routedDomains)
    (same : edited.routedDomains = table.routedDomains) (holds : Untouched machine machine)
    : Triple (fun now => now = machine) (save outside edited) (fun _ => Untouched machine)
        (Untouched machine) := by
  refine .ite (fun _ => .modify ?_) (fun _ => .throw (fun _ same => same ▸ holds))
  rintro _ rfl
  obtain ⟨reloaded, read, soundAgain, slots⟩ := tableIn_render sound
  have again := routedDomains_congr soundAgain sound (fun name => by rw [slots name])
  exact ⟨⟨reloaded, read, by rw [settled, again, same]⟩, rfl, rfl⟩

theorem set_untouched {table : Overrides} {normal : Text} (holds : Untouched machine machine)
    (read : tableIn machine.hosts = .ok table) (accepted : Dns.normalise name = .ok normal)
    (known : table.slot normal ≠ none)
    : Triple (fun now => now = machine) (setOverride site outside name address)
        (fun _ => Untouched machine) (Untouched machine) := by
  obtain ⟨other, found, settled⟩ := holds.settled
  rw [read] at found
  cases found
  refine .bind (load_triple.mono (fun _ _ loaded => loaded) (fun _ same => same ▸ holds))
    (fun loaded => .forEach (fun now found => ?_))
  obtain ⟨rfl, again⟩ := found
  rw [read] at again
  cases again
  refine .bind (edit_triple.mono (fun _ _ made => made) (fun _ same => same ▸ holds))
    (fun edited => ?_)
  refine .forEach (fun state made => ?_)
  obtain ⟨rfl, made⟩ := made
  obtain ⟨normal', accepted', slots⟩ := slot_set made
  rw [accepted] at accepted'
  cases accepted'
  have sound := tableIn_sound read
  have soundEdited := set_sound sound made
  have same : edited.routedDomains = table.routedDomains := by
    refine routedDomains_congr soundEdited sound (fun other => ?_)
    rw [slots]
    split
    · next here => simp [here, known]
    · exact Iff.rfl
  exact .bind (save_untouched soundEdited settled same holds) (fun _ => reconcile_untouched)

end Quiet

/-- Whoever changes the addresses of names that are there already, or brings the routes up to date, is
never asked for privilege once the routes are those of the table, however often and whatever fails.
-/
theorem quiet_run {machine after : Machine} (settled : Settled machine)
    (run : Relation.ReflTransGen QuietStep machine after)
    : Untouched machine after := by
  induction run with
  | refl => exact ⟨settled, rfl, rfl⟩
  | @tail between last _ step ih =>
      have here : Untouched between between := ⟨ih.settled, rfl, rfl⟩
      suffices moved : Untouched between last from
        ⟨moved.settled, moved.resolvers.trans ih.resolvers, moved.privileged.trans ih.privileged⟩
      cases step with
      | command site outside quiet =>
          cases quiet with
          | apply => exact Triple.exec (.bind apply_untouched (fun _ => .pure (fun _ holds => holds))) here
          | set address read accepted known =>
              have sets :=
                @set_untouched site outside between _ address _ _ here read accepted known
              exact Triple.exec (.bind sets (fun _ => .pure (fun _ holds => holds))) rfl

/-- The one override is pointed elsewhere, and cannot be saved. -/
theorem quiet_run_unsaved
    : let machine := exampleMachine [⟨Dns.fileName exampleDomain, .file (bodyOf (.v4 0) 1).toByteArray true true⟩]
        (List.nodup_singleton _)
      Untouched machine (exec (runCommand exampleSite { allWell with saved := false }
        (.set "A.example.com".toList (.v4 0x0a000002))) machine).2 := by
  have read : tableIn (some "10.0.0.1 a.example.com\n".toList)
      = .ok ⟨[(exampleDomain, ⟨[.v4 0x0a000001]⟩)], []⟩ := eq_ok (by decide +kernel)
  have marked : ours ⟨Dns.fileName exampleDomain, .file (bodyOf (.v4 0) 1).toByteArray true true⟩
      = true :=
    ours_iff.mpr ⟨_, _, rfl, isOurs_body _ _⟩
  have settled : Settled (exampleMachine
      [⟨Dns.fileName exampleDomain, .file (bodyOf (.v4 0) 1).toByteArray true true⟩]
      (List.nodup_singleton _)) := by
    refine ⟨_, read, ?_⟩
    rw [routed, exampleMachine, List.filter_cons_of_pos marked]
    decide +kernel
  have accepted : Dns.normalise "A.example.com".toList = .ok exampleDomain :=
    eq_ok (by decide +kernel)
  exact quiet_run settled (.single (.command exampleSite { allWell with saved := false }
    (.set (.v4 0x0a000002) read accepted (by decide +kernel))))

end WslVpn.Agent.DnsRouting
