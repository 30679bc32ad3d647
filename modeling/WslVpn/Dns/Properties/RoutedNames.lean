import WslVpn.Paths.Components
import WslVpn.Dns.Properties.LongestMatch
import WslVpn.Dns.Properties.ResolverSync
import WslVpn.Dns.Properties.SavedTables

/-! Every override is routed to the resolver, and every routed domain can be the name of a file in the
resolver directory.
-/

namespace WslVpn.Dns

open AddressSpace
open Directory

/-- A domain that the operating system can be told to route. -/
structure Routable (domain : Text) : Prop where
  normal : normalise domain = .ok domain
  noWildcard : stripStart wildcardStart domain = none
  component : Paths.Component domain

/-- Whatever the table answers is one of the domains, or below one of them. -/
structure Routes (table : Overrides) (domains : List Text) : Prop where
  covers
    : ∀ name found, table.lookup name = some found →
        ∃ domain ∈ domains, domain = soughtName name ∨ ProperSuffix (soughtName name) domain
  routable : ∀ domain ∈ domains, Routable domain

/-- What is in the place of the domain's file cannot be written. -/
def Directory.Barred (dir : Directory) (domain : Text) : Prop :=
  ∃ node, dir.find (fileName domain) = some node
    ∧ ∀ bytes readable, node.content ≠ .file bytes readable true

/-- The sync takes all of the domains, and the files that it writes are directly inside the directory. It is
refused by the file system alone: where a file that has to be written is barred.
-/
structure SyncsInside (dir : Directory) (domains : List Text) (address : IpAddr) (port : Fin 65536)
    : Prop where
  accepted
    : (∀ domain ∈ domains, dir.rewrites (bodyOf address port) domain = true → ¬ dir.Barred domain) →
        ∃ report after, sync dir domains address port = (.ok report, after)
  refused
    : ∀ message after, sync dir domains address port = (.error message, after) →
        ∃ domain ∈ domains, dir.rewrites (bodyOf address port) domain = true ∧ dir.Barred domain
          ∧ message = "writing " ++ dir.path ++ "/" ++ String.ofList domain
  reported
    : ∀ report after, sync dir domains address port = (.ok report, after) →
        report.written = domains.filter (dir.rewrites (bodyOf address port))
        ∧ report.skipped = domains.filter dir.skips
  routed
    : ∀ report after, sync dir domains address port = (.ok report, after) →
        ∀ domain ∈ domains, dir.skips domain = false →
          (∀ node ∈ dir.nodes, dir.Leads (fileName domain) node → node.name = fileName domain) →
            ∃ readable writable,
              (⟨fileName domain, .file (bodyOf address port).toByteArray readable writable⟩ : Node)
                ∈ after.nodes
  inside
    : ∀ node ∈ (sync dir domains address port).2.nodes, node ∉ dir.nodes →
        ∃ domain ∈ domains, dir.Leads (fileName domain) node
          ∧ Paths.components (Paths.join dir.path.toList domain)
            = Paths.components dir.path.toList ++ [domain]

-----------------------------------------------------------------------------------------
-- Domains
-----------------------------------------------------------------------------------------

section Domains

variable {table : Overrides} {name domain : Text} {found : Found}

theorem HostText.component (host : HostText name) : Paths.Component name where
  filled := host.filled
  whole member := absurd rfl (hostChar_plain (host.kind member)).2.2
  notHere same := host.last (by rw [same]; rfl)
  notAbove same := host.last (by rw [same]; rfl)

theorem HostText.routable (host : HostText name) : Routable name where
  normal := (Normal.host host).normalise
  noWildcard := host.strip
  component := host.component

/-- A sorted list loses its repetitions where they stand together. -/
theorem routedDomains_eq
    : table.routedDomains
      = ((table.exact.sorted.keys ++ table.wildcard.sorted.keys).insertionSort (· ≤ ·)).dedup :=
  (List.pairwise_insertionSort _ _).destutter_eq_dedup

theorem mem_routedDomains
    : domain ∈ table.routedDomains ↔ domain ∈ table.exact.keys ∨ domain ∈ table.wildcard.keys := by
  rw [routedDomains_eq, List.mem_dedup, List.mem_insertionSort, List.mem_append]
  exact or_congr (table.exact.sorted_perm.map _).mem_iff (table.wildcard.sorted_perm.map _).mem_iff

theorem Overrides.Sound.routed (sound : table.Sound) (routed : domain ∈ table.routedDomains)
    : HostText domain := by
  rcases mem_routedDomains.mp routed with exact | wildcard
  · obtain ⟨entry, member, rfl⟩ := List.mem_map.mp exact
    exact sound.exact.keys entry member
  · obtain ⟨entry, member, rfl⟩ := List.mem_map.mp wildcard
    exact (sound.wildcard.keys entry member).1

/-- What is found of a name is routed as the name itself or as its suffix. -/
theorem routed_of_lookup (looked : table.lookup name = some found)
    : ∃ domain ∈ table.routedDomains, domain = soughtName name
        ∨ ProperSuffix (soughtName name) domain := by
  cases ((lookup_longest table name).1 found).mp looked with
  | exact stored =>
      exact ⟨_, mem_routedDomains.mpr (Or.inl (NameMap.key_of_get stored)), Or.inl rfl⟩
  | wildcard noExact stored proper longest =>
      exact ⟨_, mem_routedDomains.mpr (Or.inr (NameMap.key_of_get stored)), Or.inr proper⟩

end Domains

-----------------------------------------------------------------------------------------
-- The sync of the domains
-----------------------------------------------------------------------------------------

section Sync

variable {table : Overrides} {dir after : Directory} {body : String} {wanted : List Text}
  {report : SyncReport} {node : Node} {address : IpAddr} {port : Fin 65536}

/-- What an action leaves as it is comes out of the loop over it, by induction on the items. -/
theorem mapM_fixed {Item Error : Type} {act : Item → Except Error Item} {items : List Item}
    (fixed : ∀ item ∈ items, act item = .ok item)
    : items.mapM act = .ok items := by
  induction items with
  | nil => rfl
  | cons item items ih =>
      obtain ⟨first, fixed⟩ := List.forall_mem_cons.mp fixed
      rw [List.mapM_cons, first, ih fixed]
      rfl

/-- The routed domains are wanted as they are: each once, in order, and no wildcard among them. -/
theorem wantedOf_routedDomains (sound : table.Sound)
    : wantedOf table.routedDomains = .ok table.routedDomains := by
  have fixed : table.routedDomains.mapM normalise = .ok table.routedDomains :=
    mapM_fixed (fun domain routed => (sound.routed routed).routable.normal)
  have distinct : table.routedDomains.Nodup := by
    rw [routedDomains_eq]
    exact List.nodup_dedup _
  have sorted : table.routedDomains.Pairwise (· ≤ ·) := by
    rw [routedDomains_eq]
    exact (List.pairwise_insertionSort _ _).sublist (List.dedup_sublist _)
  have plain : table.routedDomains.find? (fun domain => domain.head? = some '*') = none := by
    refine List.find?_eq_none.mpr ?_
    intro domain routed star
    have kind := (sound.routed routed).kind (List.mem_of_head? (of_decide_eq_true star))
    exact absurd rfl (hostChar_plain kind).2.1
  unfold wantedOf
  rw [fixed]
  simp only [bind, Except.bind, distinct.dedup, sorted.insertionSort_eq, plain]
  rfl

/-- Only the places of wanted domains are written to, by induction on the domains. -/
theorem routeAll_nodes (member : node ∈ (routeAll body wanted dir report).2.nodes)
    : node ∈ dir.nodes ∨ ∃ domain ∈ wanted, dir.Leads (fileName domain) node := by
  induction wanted generalizing dir report with
  | nil => exact Or.inl member
  | cons domain rest ih =>
      have later {report : SyncReport} (member : node ∈ (routeAll body rest dir report).2.nodes)
          : node ∈ dir.nodes ∨ ∃ other ∈ domain :: rest, dir.Leads (fileName other) node := by
        refine (ih member).imp_right ?_
        intro found
        obtain ⟨other, there, leads⟩ := found
        exact ⟨other, List.mem_cons_of_mem _ there, leads⟩
      rw [routeAll] at member
      split at member
      · exact later member
      · split at member
        · exact later member
        · split at member
          · exact Or.inl member
          · next after done =>
              obtain ⟨readable, rfl, _⟩ := write_cases done
              rcases ih member with old | ⟨other, there, leads⟩
              · rcases Directory.mem_put.mp old with new | ⟨old, _⟩
                · refine Or.inr ⟨domain, List.mem_cons_self, ?_⟩
                  rw [new]
                  exact Directory.written_leads
                · exact Or.inl old
              · rw [Directory.Leads, Directory.put_caseSensitive] at leads
                exact Or.inr ⟨other, List.mem_cons_of_mem _ there, leads⟩

/-- What is left after removals was there before, by induction on them. -/
theorem mem_of_removed {nodes : List Node}
    (member : node ∈ (nodes.foldl (fun dir node => dir.remove node.name) dir).nodes)
    : node ∈ dir.nodes := by
  induction nodes generalizing dir with
  | nil => exact member
  | cons first rest ih => exact List.mem_of_mem_filter (ih member)

theorem sync_nodes {domains : List Text} (accepted : wantedOf domains = .ok wanted)
    (member : node ∈ (sync dir domains address port).2.nodes)
    : node ∈ dir.nodes ∨ ∃ domain ∈ wanted, dir.Leads (fileName domain) node := by
  unfold sync at member
  simp only [accepted] at member
  split at member
  · next looped =>
      have loop := @routeAll_nodes dir (bodyOf address port) wanted ⟨[], [], []⟩ node
      rw [bodyOf, looped] at loop
      exact loop member
  · next looped =>
      have loop := @routeAll_nodes dir (bodyOf address port) wanted ⟨[], [], []⟩ node
      rw [bodyOf, looped] at loop
      exact loop (mem_of_removed member)

/-- A write fails where the file is barred. -/
theorem barred_of_write {bytes : ByteArray} (failed : dir.write (fileName domain) bytes = none)
    : dir.Barred domain := by
  unfold Directory.write at failed
  cases found : dir.find (fileName domain) with
  | none =>
      rw [found] at failed
      cases failed
  | some node =>
      refine ⟨node, found, ?_⟩
      intro bytes readable content
      rw [found, Option.map_some, content] at failed
      cases failed

/-- The loop fails at a domain whose file was barred from the start, by induction on the domains: a file that
is written before is none of the others'.
-/
theorem routeAll_barred {message : String}
    (apart : wanted.Pairwise (fun first second => ¬ dir.Meet (fileName second) (fileName first)))
    (failed : routeAll body wanted dir report = (.error message, after))
    : ∃ domain ∈ wanted, dir.rewrites body domain = true ∧ dir.Barred domain
        ∧ message = "writing " ++ dir.path ++ "/" ++ String.ofList domain := by
  induction wanted generalizing dir report with
  | nil => cases failed
  | cons first rest ih =>
      obtain ⟨here, others⟩ := List.pairwise_cons.mp apart
      rw [routeAll] at failed
      split at failed
      · obtain ⟨domain, member, barred⟩ := ih others failed
        exact ⟨domain, List.mem_cons_of_mem _ member, barred⟩
      · next taken =>
          have unskipped : dir.skips first = false := Bool.eq_false_of_not_eq_true taken
          split at failed
          · obtain ⟨domain, member, barred⟩ := ih others failed
            exact ⟨domain, List.mem_cons_of_mem _ member, barred⟩
          · next different =>
              have writes : dir.rewrites body first = true := by
                simp [Directory.rewrites, unskipped, different]
              split at failed
              · next unwritten =>
                  cases failed
                  exact ⟨first, List.mem_cons_self, writes, barred_of_write unwritten, rfl⟩
              · next middle wrote =>
                  obtain ⟨readable, put, _⟩ := write_cases wrote
                  obtain ⟨_, _, found⟩ := rewritten_of_write wrote
                  have unmet : rest.Pairwise
                      (fun one other => ¬ middle.Meet (fileName other) (fileName one)) := by
                    refine others.imp ?_
                    intro one other unmet meet
                    rw [put, Directory.Meet, put_caseSensitive] at meet
                    exact unmet meet
                  obtain ⟨domain, member, writes, barred, text⟩ := ih unmet failed
                  have same : middle.find (fileName domain) = dir.find (fileName domain) := by
                    rw [found, if_neg (here domain member)]
                  rw [rewrites_congr same] at writes
                  rw [Directory.Barred, same] at barred
                  rw [put, put_path] at text
                  exact ⟨domain, List.mem_cons_of_mem _ member, writes, barred, text⟩

/-- A sync of domains that are wanted as they are fails in its loop alone. -/
theorem sync_refused {domains : List Text} {message : String} (accepted : wantedOf domains = .ok wanted)
    (failed : sync dir domains address port = (.error message, after))
    : ∃ domain ∈ wanted, dir.rewrites (bodyOf address port) domain = true ∧ dir.Barred domain
        ∧ message = "writing " ++ dir.path ++ "/" ++ String.ofList domain := by
  unfold sync at failed
  simp only [accepted] at failed
  split at failed
  · next looped =>
      cases failed
      exact routeAll_barred (pairwise_apart accepted dir) looped
  · cases failed

/-- The file of a domain that is not skipped has the body behind a sync. -/
theorem Ran.routes {middle : Directory} (ran : Ran dir wanted body report middle after)
    (lowered : ∀ domain ∈ wanted, Lowered domain) (wants : domain ∈ wanted)
    (unskipped : dir.skips domain = false)
    (named : ∀ node ∈ dir.nodes, dir.Leads (fileName domain) node → node.name = fileName domain)
    : ∃ readable writable,
        (⟨fileName domain, .file body.toByteArray readable writable⟩ : Node) ∈ after.nodes := by
  have fresh := fresh_of_wanted lowered wants
  suffices looped : ∃ readable writable, middle.find (fileName domain)
      = some ⟨fileName domain, .file body.toByteArray readable writable⟩ by
    obtain ⟨readable, writable, found⟩ := looped
    exact ⟨readable, writable, (find_eq_some.mp (ran.find_iff.mpr ⟨found, fresh _⟩)).1⟩
  cases writes : dir.rewrites body domain with
  | true =>
      obtain ⟨node, rewritten, found⟩ := ran.routed.rewritten domain wants writes
      rcases rewritten with ⟨_, rfl⟩ | ⟨old, bytes, readable, before, _, rfl⟩
      · exact ⟨true, true, found⟩
      · obtain ⟨there, leads⟩ := find_eq_some.mp before
        rw [named old there leads] at found
        exact ⟨readable, true, found⟩
  | false =>
      have read : dir.read (fileName domain) = some body := by
        simpa [Directory.rewrites, unskipped] using writes
      obtain ⟨node, writable, found, content⟩ := read_eq_some.mp read
      obtain ⟨there, leads⟩ := find_eq_some.mp found
      have distinct : ∀ other ∈ wanted, dir.Meet (fileName domain) (fileName other) → domain = other :=
        fun other there => (meet_fileName (lowered domain wants) (lowered other there)).mp
      refine ⟨true, writable, ?_⟩
      rw [ran.kept distinct writes, found, ← named node there leads, ← content]

theorem syncsInside (sound : table.Sound) (dir : Directory) (address : IpAddr) (port : Fin 65536)
    : SyncsInside dir table.routedDomains address port where
  accepted free := by
    rcases ended : sync dir table.routedDomains address port with ⟨message | report, after⟩
    · obtain ⟨domain, routed, writes, barred, _⟩ := sync_refused (wantedOf_routedDomains sound) ended
      exact absurd barred (free domain routed writes)
    · exact ⟨report, after, rfl⟩
  refused message after failed := sync_refused (wantedOf_routedDomains sound) failed
  reported report after done := by
    obtain ⟨middle, ran⟩ := sync_ran (wantedOf_routedDomains sound) done
    have written := ran.routed.written
    rw [List.nil_append] at written
    exact ⟨written, ran.skipped⟩
  routed report after done domain routed unskipped named := by
    obtain ⟨middle, ran⟩ := sync_ran (wantedOf_routedDomains sound) done
    obtain ⟨_, lowered⟩ := wantedOf_spec (wantedOf_routedDomains sound)
    exact ran.routes lowered routed unskipped named
  inside node member new := by
    rcases sync_nodes (wantedOf_routedDomains sound) member with old | ⟨domain, routed, leads⟩
    · exact absurd old new
    · exact ⟨domain, routed, leads, (sound.routed routed).component.inside _⟩

end Sync

/-- Every override of a table that can be reached is routed, and the sync takes all of its domains and writes
inside the directory alone.
-/
theorem overrides_routed {table : Overrides} (reached : Reachable table)
    : Routes table table.routedDomains
      ∧ ∀ dir address port, SyncsInside dir table.routedDomains address port where
  left := {
    covers := fun _ _ looked => routed_of_lookup looked
    routable := fun _ routed => (reached.sound.routed routed).routable }
  right := syncsInside reached.sound

/-- A resolver directory that nobody uses yet. -/
def unusedDirectory : Directory where
  path := "/etc/resolver"
  caseSensitive := false
  nodes := []
  distinct := List.nodup_nil

theorem sampleTable_routed
    : sampleTable.routedDomains
      = ["a.example.com".toList, "b.example.com".toList, "example.com".toList] := by
  decide +kernel

/-- In an unused directory the sync writes a file for each domain of the sample. -/
theorem overrides_routed_sample
    : Routes sampleTable sampleTable.routedDomains
      ∧ ∃ report after,
        sync unusedDirectory sampleTable.routedDomains (.v4 2130706433) 15353 = (.ok report, after)
        ∧ report.written
          = ["a.example.com".toList, "b.example.com".toList, "example.com".toList]
        ∧ ∀ domain ∈ report.written, ∃ node ∈ after.nodes, node.name = fileName domain := by
  obtain ⟨routes, syncs⟩ := overrides_routed (.parsed sampleTable_parsed)
  have inside := syncs unusedDirectory (.v4 2130706433) 15353
  have free : ∀ domain ∈ sampleTable.routedDomains,
      unusedDirectory.rewrites (bodyOf (.v4 2130706433) 15353) domain = true →
        ¬ unusedDirectory.Barred domain := by
    intro domain _ _ barred
    obtain ⟨node, found, _⟩ := barred
    cases found
  obtain ⟨report, after, done⟩ := inside.accepted free
  have written : report.written = sampleTable.routedDomains := by
    rw [(inside.reported report after done).1]
    exact List.filter_eq_self.mpr (fun domain _ => rfl)
  refine ⟨routes, report, after, done, written.trans sampleTable_routed, ?_⟩
  intro domain member
  obtain ⟨readable, writable, there⟩ := inside.routed report after done domain (written ▸ member) rfl
    (fun node member => absurd member List.not_mem_nil)
  exact ⟨_, there, rfl⟩

end WslVpn.Dns
