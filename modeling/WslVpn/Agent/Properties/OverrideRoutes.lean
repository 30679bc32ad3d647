import WslVpn.Fallible.Triples
import WslVpn.Agent.Properties.RoutedFiles

/-! The routes and the job over whole runs. As long as a domain is routed the job is installed that answers
for it, and a command that succeeds leaves the routes that the table wants.
-/

namespace WslVpn.Agent.DnsRouting

open Dns
open Fallible

/-- Nothing is routed to a resolver that is not there, and only valid domains are routed with
privilege.
-/
structure Orderly (machine : Machine) : Prop where
  installed : routed machine.resolvers ≠ [] → machine.job.isSome
  privileged
    : ∀ step ∈ machine.privileged, ∃ program domains port, step = syncStep program domains port
        ∧ ∀ domain ∈ domains, Routable domain

/-- The user runs a command; or somebody edits the table, or files that do not have the marker. -/
inductive Step : Machine → Machine → Prop where
  | command {machine} (site : Site) (outside : Outside) (command : DnsCommand)
    : Step machine (exec (runCommand site outside command) machine).2
  | elsewhere {machine} (hosts : Option Text) (resolvers : Directory)
    (same : routed resolvers = routed machine.resolvers)
    : Step machine { machine with hosts, resolvers }

abbrev Run : Machine → Machine → Prop := Relation.ReflTransGen Step

-----------------------------------------------------------------------------------------
-- What each part of a command does
-----------------------------------------------------------------------------------------

section Parts

variable {site : Site} {outside : Outside} {before failed inv : Machine → Prop} {domains : List Text}
  {machine after : Machine} {overrides : Overrides}

theorem tableIn_sound {hosts : Option Text} (read : tableIn hosts = .ok overrides)
    : overrides.Sound := by
  cases hosts with
  | none =>
      cases read
      exact .empty
  | some text => exact (Reachable.parsed read).sound

/-- Loading changes nothing. -/
theorem load_triple
    : Triple before load (fun overrides machine => before machine ∧ tableIn machine.hosts = .ok overrides)
        before := by
  refine .get_bind (fun seen holds => .liftExcept ?_ (fun _ same => same ▸ holds))
  rintro overrides state read rfl
  refine ⟨holds, ?_⟩
  cases table : tableIn state.hosts with
  | error error =>
      rw [table] at read
      cases read
  | ok found =>
      rw [table] at read
      cases read
      rfl

theorem writeJob_triple (written : Writing) (plist : Text)
    (stays : ∀ machine plist, inv machine → inv { machine with job := some plist })
    : Triple inv (writeJob written plist) (fun _ machine => inv machine ∧ machine.job.isSome) inv := by
  cases written with
  | done => exact .modify (fun machine holds => ⟨stays machine plist holds, rfl⟩)
  | unopened => exact .throw (fun _ holds => holds)
  | cut left =>
      have cut : Triple inv
          (modify fun machine => { machine with job := some left } : Act PUnit) (fun _ => inv) inv :=
        .modify (fun machine holds => stays machine left holds)
      exact .bind cut (fun _ => .throw (fun _ holds => holds))

/-- Starting changes nothing but the job, which is installed once it is started. -/
theorem start_triple (stays : ∀ machine plist, inv machine → inv { machine with job := some plist })
    : Triple inv (start site outside) (fun _ machine => inv machine ∧ machine.job.isSome) inv := by
  refine .ite (fun _ => .throw (fun _ holds => holds)) (fun _ => .get_bind (fun seen holds => ?_))
  refine .ite (fun same => .pure ?_) (fun _ => ?_)
  · rintro _ rfl
    exact ⟨holds, by rw [same.1]; rfl⟩
  · refine .bind ((writeJob_triple _ _ stays).strengthen (fun _ same => same ▸ holds)) (fun _ => ?_)
    refine .ite (fun _ => .throw (fun _ holds => holds.1)) (fun _ => ?_)
    exact .ite (fun _ => .throw (fun _ holds => holds.1)) (fun _ => .pure (fun _ holds => holds))

/-- The sync of the files, if it is run. -/
theorem syncResolvers_triple
    : Triple (· = machine) (syncResolvers site domains)
        (fun _ after => ∃ report,
          sync machine.resolvers domains Site.listenIp site.port = (.ok report, after.resolvers)
          ∧ after = { machine with resolvers := after.resolvers })
        (fun after => after = { machine with resolvers := after.resolvers }) := by
  refine .get_bind (fun seen start => ?_)
  subst start
  have synced : Triple (· = seen)
      (modify fun machine => { machine with
        resolvers := (sync seen.resolvers domains Site.listenIp site.port).2 } : Act PUnit)
      (fun _ after => after = { seen with
        resolvers := (sync seen.resolvers domains Site.listenIp site.port).2 })
      (fun after => after = { seen with resolvers := after.resolvers }) := by
    refine .modify ?_
    rintro _ rfl
    rfl
  refine .bind synced (fun _ => ?_)
  cases result : (sync seen.resolvers domains Site.listenIp site.port).1 with
  | error message =>
      refine .throw ?_
      rintro _ rfl
      rfl
  | ok report =>
      refine .pure ?_
      rintro _ rfl
      exact ⟨report, Prod.ext result rfl, rfl⟩

/-- The step is asked for, whether or not it is run. -/
def Machine.asked (machine : Machine) (site : Site) (domains : List Text) : Machine :=
  { machine with privileged := machine.privileged ++ [syncStep site.program domains site.port] }

/-- A route that succeeds has run the sync. Otherwise the files may have changed, and nothing else. -/
theorem route_triple
    : Triple (· = machine) (route site outside domains)
        (fun _ after => ∃ report,
          sync machine.resolvers domains Site.listenIp site.port = (.ok report, after.resolvers)
          ∧ after = { machine.asked site domains with resolvers := after.resolvers })
        (fun after => after = { machine.asked site domains with resolvers := after.resolvers }) := by
  have asked : Triple (· = machine)
      (modify fun machine => { machine with
        privileged := machine.privileged ++ [syncStep site.program domains site.port] } : Act PUnit)
      (fun _ after => after = machine.asked site domains)
      (fun after => after = { machine.asked site domains with resolvers := after.resolvers }) := by
    refine .modify ?_
    rintro _ rfl
    rfl
  refine .bind asked (fun _ => ?_)
  cases outside.escalated with
  | denied =>
      refine .throw ?_
      rintro _ rfl
      rfl
  | unknown =>
      refine .bind syncResolvers_triple (fun _ => .throw ?_)
      rintro after ⟨_, _, same⟩
      exact same
  | ran => exact syncResolvers_triple

end Parts

-----------------------------------------------------------------------------------------
-- No command leaves a route without the job
-----------------------------------------------------------------------------------------

section Orderly

variable {site : Site} {outside : Outside} {domains : List Text} {name : Text} {overrides : Overrides}

/-- Where the job is installed, valid domains may be routed. -/
theorem Orderly.route {machine : Machine} (orderly : Orderly machine)
    (valid : ∀ domain ∈ domains, Routable domain) (resolvers : Directory)
    (installed : routed resolvers ≠ [] → machine.job.isSome)
    : Orderly { machine.asked site domains with resolvers } where
  installed := installed
  privileged step member := by
    rcases List.mem_append.mp member with old | new
    · exact orderly.privileged step old
    · exact ⟨_, _, _, List.mem_singleton.mp new, valid⟩

theorem route_orderly (valid : ∀ domain ∈ domains, Routable domain)
    : Triple (fun machine => Orderly machine ∧ machine.job.isSome) (route site outside domains)
        (fun _ => Orderly) Orderly := by
  refine .forEach (fun machine holds => route_triple.mono ?_ ?_)
  · rintro _ after ⟨_, _, same⟩
    rw [same]
    exact holds.1.route valid _ (fun _ => holds.2)
  · intro after same
    rw [same]
    exact holds.1.route valid _ (fun _ => holds.2)

theorem routeChanged_orderly (valid : ∀ domain ∈ domains, Routable domain)
    : Triple (fun machine => Orderly machine ∧ machine.job.isSome) (routeChanged site outside domains)
        (fun _ => Orderly) Orderly := by
  refine .get_bind (fun machine holds => .ite (fun _ => .pure (fun _ same => same ▸ holds.1)) (fun _ => ?_))
  exact (route_orderly valid).strengthen (fun _ same => same ▸ holds)

/-- Unrouting succeeds only if nothing is routed any more. -/
theorem unroute_orderly
    : Triple Orderly (unroute site outside)
        (fun _ machine => Orderly machine ∧ (site.supported = true → routed machine.resolvers = []))
        Orderly := by
  have nothing : ∀ domain ∈ ([] : List Text), Routable domain := by simp
  refine .ite (fun _ => .get_bind (fun machine orderly => ?_)) (fun unsupported => .pure ?_)
  · refine .ite (fun none => .pure ?_) (fun some => route_triple.mono ?_ ?_)
    · rintro _ rfl
      exact ⟨orderly, fun _ => none⟩
    · rintro _ after ⟨report, synced, same⟩
      have none := (@sync_nothing machine.resolvers Site.listenIp site.port).2
      rw [synced] at none
      rw [same]
      exact ⟨orderly.route nothing _ (fun some => absurd none some), fun _ => none⟩
    · intro after same
      rw [same]
      exact orderly.route nothing _ (fun _ => orderly.installed some)
  · exact fun machine orderly => ⟨orderly, fun supported => absurd supported unsupported⟩

theorem stop_orderly
    : Triple (fun machine => Orderly machine ∧ (site.supported = true → routed machine.resolvers = []))
        (stop site outside) (fun _ => Orderly) Orderly := by
  refine .ite (fun _ => .pure (fun _ holds => holds.1)) (fun supported => .get_bind ?_)
  intro seen holds
  refine .ite (fun _ => .pure (fun _ same => same ▸ holds.1)) (fun _ => ?_)
  refine .ite (fun _ => .modify ?_) (fun _ => .throw (fun _ same => same ▸ holds.1))
  rintro machine rfl
  have none : routed machine.resolvers = [] := holds.2 (by simpa using supported)
  exact ⟨fun some => absurd none some, holds.1.privileged⟩

theorem load_orderly
    : Triple Orderly load
        (fun overrides machine => Orderly machine ∧ ∀ domain ∈ overrides.routedDomains, Routable domain)
        Orderly :=
  load_triple.mono
    (fun _ _ loaded =>
      ⟨loaded.1, fun _ routed => ((tableIn_sound loaded.2).routed routed).routable⟩)
    (fun _ holds => holds)

theorem start_orderly
    : Triple Orderly (start site outside) (fun _ machine => Orderly machine ∧ machine.job.isSome)
        Orderly :=
  start_triple (fun _ _ orderly => ⟨fun _ => rfl, orderly.privileged⟩)

theorem apply_orderly : Keeps Orderly (apply site outside) := by
  refine .ite (fun _ => .throw (fun _ holds => holds)) (fun _ => .bind load_orderly (fun overrides => ?_))
  refine .forEach (fun machine holds => ?_)
  refine .bind (start_orderly.strengthen (fun _ same => same ▸ holds.1)) (fun _ => ?_)
  refine .bind (routeChanged_orderly holds.2) (fun _ => .get_bind (fun _ orderly => .pure ?_))
  exact fun _ same => same ▸ orderly

theorem disable_orderly : Keeps Orderly (disable site outside) := by
  refine Triple.bind unroute_orderly (fun _ => Triple.bind stop_orderly (fun _ => .get_bind ?_))
  exact fun _ orderly => .pure (fun _ same => same ▸ orderly)

theorem reconcile_orderly : Keeps Orderly (reconcile site outside) := by
  refine .get_bind (fun seen orderly => .ite (fun _ => .pure (fun _ same => same ▸ orderly)) (fun _ => ?_))
  refine .bind (load_orderly.strengthen (fun _ same => same ▸ orderly)) (fun overrides => ?_)
  refine .ite (fun _ => .pure (fun _ holds => holds.1)) (fun _ => .forEach (fun machine holds => ?_))
  refine .bind (start_orderly.strengthen (fun _ same => same ▸ holds.1)) (fun _ => ?_)
  exact .bind (route_orderly holds.2) (fun _ => .pure (fun _ orderly => orderly))

theorem save_orderly : Keeps Orderly (save outside overrides) :=
  .ite (fun _ => .modify (fun _ orderly => ⟨orderly.installed, orderly.privileged⟩))
    (fun _ => .throw (fun _ orderly => orderly))

/-- Whatever is edited, and however it ends. -/
theorem runCommand_orderly (command : DnsCommand) : Keeps Orderly (runCommand site outside command) := by
  have loaded : Keeps Orderly load := load_triple.mono (fun _ _ loaded => loaded.1) (fun _ holds => holds)
  have saved {overrides : Overrides} : Keeps Orderly (do
      save outside overrides
      reconcile site outside) :=
    save_orderly.bind (fun _ => reconcile_orderly)
  have finished {Value : Type} {command : Act Value} (keeps : Keeps Orderly command)
      : Keeps Orderly (do
          let _ ← command
          pure ⟨⟩ : Act PUnit) :=
    keeps.bind (fun _ => Triple.pure (fun _ holds => holds))
  cases command with
  | set name address =>
      refine finished (loaded.bind (fun overrides => ?_))
      exact .bind (.liftExcept (fun _ _ _ holds => holds) (fun _ holds => holds)) (fun _ => saved)
  | remove name =>
      refine finished (loaded.bind (fun overrides => ?_))
      exact .ite (fun _ => .throw (fun _ holds => holds)) (fun _ => saved)
  | apply => exact finished apply_orderly
  | disable => exact finished disable_orderly

end Orderly

/-- In whatever order commands run, however they end and whatever else is edited: nothing is routed to a
resolver whose job is not installed, and what runs with privilege routes valid domains alone.
-/
theorem run_orderly {machine after : Machine} (orderly : Orderly machine) (run : Run machine after)
    : Orderly after := by
  induction run with
  | refl => exact orderly
  | tail _ step ih =>
      cases step with
      | command site outside command => exact Triple.exec (runCommand_orderly command) ih
      | elsewhere hosts resolvers same => exact ⟨fun some => ih.installed (same ▸ some), ih.privileged⟩

def exampleSite : Site :=
  ⟨true, "/usr/local/bin/wsl".toList, "/hosts".toList, "/log".toList, ⟨15353, by decide⟩⟩

/-- Everything goes well outside. -/
def allWell : Outside := ⟨true, false, .done, true, true, .ran, true, true⟩

/-- A machine with one override, and with these files in the directory. -/
def exampleMachine (nodes : List Node) (distinct : (nodes.map (fun node => fold false node.name)).Nodup)
    : Machine where
  hosts := some "10.0.0.1 a.example.com\n".toList
  resolvers := ⟨"/etc/resolver", false, nodes, distinct⟩
  job := none
  privileged := []

/-- Overrides are turned on, and when they are to be turned off again the user is not there. -/
theorem run_orderly_denied
    : Orderly (exec (runCommand exampleSite { allWell with escalated := .denied } .disable)
        (exec (runCommand exampleSite allWell .apply) (exampleMachine [] List.nodup_nil)).2).2 :=
  run_orderly ⟨fun some => absurd rfl some, by simp [exampleMachine]⟩
    (.tail (.single (.command exampleSite allWell .apply))
      (.command exampleSite { allWell with escalated := .denied } .disable))

end WslVpn.Agent.DnsRouting
