import WslVpn.Dns.Refresh

/-! The table in force follows the hosts file, whatever the order in which a bind, the refreshes and the
edits take their steps.
-/

namespace WslVpn.Dns

open Resolver

variable {Time : Type}

-----------------------------------------------------------------------------------------
-- What holds at every moment
-----------------------------------------------------------------------------------------

/-- The overrides are what the hosts file is loaded as, or it is not loaded at all. -/
def Reflects (resolver : Resolver Time) (overrides : Overrides) : Prop :=
  ∀ others, resolver.loads = .ok others → overrides = others

/-- The hosts file was loaded as the overrides at some time. -/
def Earlier (resolver : Resolver Time) (overrides : Overrides) : Prop :=
  ∃ disk ∈ resolver.disk :: resolver.past, load resolver.hosts disk = .ok overrides

/-- Overrides that are right as long as the file has this modification time. -/
structure Matches (resolver : Resolver Time) (overrides : Overrides) (stamp : Option Time)
    : Prop where
  current : stamp = modified resolver.disk → Reflects resolver overrides
  empty : stamp = none → overrides = .empty

/-- The modification time that the call has. -/
def Refresh.now : Refresh Time → Option (Option Time)
  | .looked now | .differs now | .reloading now => some now
  | _ => none

structure Sound (resolver : Resolver Time) : Prop where
  idle : (∀ table, resolver.server ≠ .serving table) → resolver.refreshes = []
  known : ∀ (call : Nat) refresh time, resolver.refreshes[call]? = some refresh →
    refresh.now = some (some time) → time ∈ resolver.times
  stamped : ∀ table time, resolver.server = .serving table → table.modified = some time →
    time ∈ resolver.times
  alone : ∀ (call other : Nat) refresh refresh', resolver.refreshes[call]? = some refresh →
    resolver.refreshes[other]? = some refresh' → refresh.writes = true → refresh'.writes = true →
      call = other
  holds : ∀ (call : Nat) now table, resolver.refreshes[call]? = some (.reloading now) →
    resolver.server = .serving table → table.modified = now
  loaded : ∀ overrides, resolver.server = .loaded overrides → Earlier resolver overrides
  served : ∀ table, resolver.server = .serving table → Earlier resolver table.overrides
  reread : ∀ (call : Nat) overrides, resolver.refreshes[call]? = some (.reloaded (.ok overrides)) →
    Earlier resolver overrides
  fits : ∀ table, resolver.server = .serving table → resolver.locked = false →
    Matches resolver table.overrides table.modified
  pending : ∀ (call : Nat) table result, resolver.server = .serving table →
    resolver.refreshes[call]? = some (.reloaded result) →
      Matches resolver (result.toOption.getD table.overrides) table.modified

/-- The step does not put a table under a modification time that another content of the file has: a bind
that comes to look at the file finds what it loaded, unless that is not loaded; and a refresh that found
no file leaves the empty table.
-/
def Pairs (resolver : Resolver Time) : Action Time → Prop
  | .bindLooks => ∀ overrides, resolver.server = .loaded overrides → Reflects resolver overrides
  | .reads call => ∀ table, resolver.server = .serving table →
      resolver.refreshes[call]? = some (.reloading none) →
        resolver.loads.toOption.getD table.overrides = .empty
  | _ => True

section Steps

variable {resolver : Resolver Time} {overrides : Overrides} {stamp : Option Time} {call : Nat}
  {old refresh : Refresh Time} {table table' : Table Time}

/-- The resolver behind a change of the hosts file. -/
def Resolver.edited (resolver : Resolver Time) (disk : Option (HostsFile Time)) : Resolver Time :=
  { resolver with disk, past := resolver.disk :: resolver.past }

theorem times_edited {disk : Option (HostsFile Time)} {time : Time} (known : time ∈ resolver.times)
    : time ∈ (resolver.edited disk).times := by
  rw [times, List.mem_filterMap] at known ⊢
  obtain ⟨before, member, same⟩ := known
  exact ⟨before, List.mem_cons_of_mem _ member, same⟩

theorem Earlier.edited {disk : Option (HostsFile Time)} (earlier : Earlier resolver overrides)
    : Earlier (resolver.edited disk) overrides := by
  obtain ⟨before, member, loaded⟩ := earlier
  exact ⟨before, List.mem_cons_of_mem _ member, loaded⟩

/-- What the file is loaded as now. -/
theorem Earlier.now (loaded : resolver.loads = .ok overrides) : Earlier resolver overrides :=
  ⟨resolver.disk, List.mem_cons_self, loaded⟩

/-- No modification time comes back. -/
theorem Matches.replaced {file : HostsFile Time} (right : Matches resolver overrides stamp)
    (known : ∀ time, stamp = some time → time ∈ resolver.times)
    (new : file.modified ∉ resolver.times)
    : Matches (resolver.edited (some file)) overrides stamp := by
  refine ⟨?_, right.empty⟩
  intro same
  exact absurd (known file.modified same) new

theorem Matches.deleted (right : Matches resolver overrides stamp)
    : Matches (resolver.edited none) overrides stamp := by
  refine ⟨?_, right.empty⟩
  intro same others loaded
  cases loaded
  exact right.empty same

/-- An edit, if what is right of the table stays right. -/
theorem Sound.edited {disk : Option (HostsFile Time)} (sound : Sound resolver)
    (still : ∀ {overrides stamp}, Matches resolver overrides stamp →
      (∀ time, stamp = some time → time ∈ resolver.times)
        → Matches (resolver.edited disk) overrides stamp)
    : Sound (resolver.edited disk) where
  idle := sound.idle
  known := fun call refresh time found now => times_edited (sound.known call refresh time found now)
  stamped := fun table time serving same => times_edited (sound.stamped table time serving same)
  alone := sound.alone
  holds := sound.holds
  loaded := fun overrides loaded => (sound.loaded overrides loaded).edited
  served := fun table serving => (sound.served table serving).edited
  reread := fun call overrides found => (sound.reread call overrides found).edited
  fits := fun table serving unlocked =>
    still (sound.fits table serving unlocked) (fun time => sound.stamped table time serving)
  pending := fun call table result serving found =>
    still (sound.pending call table result serving found) (fun time => sound.stamped table time serving)

/-- The other calls do not hold the write lock. -/
def OthersWait (resolver : Resolver Time) (call : Nat) : Prop :=
  ∀ other refresh, other ≠ call → resolver.refreshes[other]? = some refresh → refresh.writes = false

theorem others_of_unlocked (unlocked : resolver.locked = false) : OthersWait resolver call :=
  fun other refresh _ found => unlocked_iff.mp unlocked other refresh found

theorem others_of_writes (sound : Sound resolver) (found : resolver.refreshes[call]? = some old)
    (writes : old.writes = true) : OthersWait resolver call := by
  intro other refresh apart there
  refine Bool.eq_false_iff.mpr ?_
  intro also
  exact apart (sound.alone other call refresh old there found also writes)

/-- A call that goes on, perhaps with another table, while no other call holds the write lock. -/
theorem Sound.proceeded (sound : Sound resolver) (here : resolver.refreshes[call]? = some old)
    (others : OthersWait resolver call)
    (known : ∀ time, refresh.now = some (some time) → time ∈ resolver.times)
    (stamped : ∀ time, table.modified = some time → time ∈ resolver.times)
    (holds : ∀ now, refresh = .reloading now → table.modified = now)
    (served : Earlier resolver table.overrides)
    (reread : ∀ overrides, refresh = .reloaded (.ok overrides) → Earlier resolver overrides)
    (fits : refresh.writes = false → Matches resolver table.overrides table.modified)
    (pending : ∀ result, refresh = .reloaded result →
      Matches resolver (result.toOption.getD table.overrides) table.modified)
    : Sound { resolver.proceed call refresh with server := .serving table } := by
  constructor
  case idle =>
    intro none
    exact absurd rfl (none table)
  case known =>
    intro other found time there now
    rcases proceed_cases there with ⟨_, rfl⟩ | ⟨_, there⟩
    · exact known time now
    · exact sound.known other found time there now
  case stamped =>
    intro table' time serving same
    cases serving
    exact stamped time same
  case alone =>
    intro first second one two there there' writes writes'
    rcases proceed_cases there with ⟨first, _⟩ | ⟨apart, there⟩
    · rcases proceed_cases there' with ⟨second, _⟩ | ⟨apart', there'⟩
      · exact first.trans second.symm
      · rw [others _ _ apart' there'] at writes'
        cases writes'
    · rw [others _ _ apart there] at writes
      cases writes
  case holds =>
    intro other now table' there serving
    cases serving
    rcases proceed_cases there with ⟨_, same⟩ | ⟨apart, there⟩
    · exact holds now same.symm
    · cases others _ _ apart there
  case loaded =>
    intro overrides loaded
    cases loaded
  case served =>
    intro table' serving
    cases serving
    exact served
  case reread =>
    intro other overrides there
    rcases proceed_cases there with ⟨_, same⟩ | ⟨apart, there⟩
    · exact reread overrides same.symm
    · exact sound.reread other overrides there
  case fits =>
    intro table' serving unlocked
    cases serving
    have bound := (List.getElem?_eq_some_iff.mp here).1
    have right := fits (unlocked_iff.mp unlocked call refresh (List.getElem?_set_self bound))
    exact ⟨right.current, right.empty⟩
  case pending =>
    intro other table' result serving there
    cases serving
    rcases proceed_cases there with ⟨_, same⟩ | ⟨apart, there⟩
    · have right := pending result same.symm
      exact ⟨right.current, right.empty⟩
    · cases others _ _ apart there

theorem proceed_serving (serving : resolver.server = .serving table)
    : { resolver.proceed call refresh with server := .serving table }
      = resolver.proceed call refresh := by
  rw [← serving]
  rfl

/-- A call goes on, and the table is as it was. -/
theorem Sound.compared (sound : Sound resolver) (serving : resolver.server = .serving table)
    (unlocked : resolver.locked = false) (here : resolver.refreshes[call]? = some old)
    (waits : refresh.writes = false)
    (known : ∀ time, refresh.now = some (some time) → time ∈ resolver.times)
    : Sound (resolver.proceed call refresh) := by
  rw [← proceed_serving serving]
  apply sound.proceeded here (others_of_unlocked unlocked) known
  case stamped => exact fun time => sound.stamped table time serving
  case served => exact sound.served table serving
  case fits => exact fun _ => sound.fits table serving unlocked
  case holds =>
    intro now same
    rw [same] at waits
    cases waits
  case reread =>
    intro overrides same
    rw [same] at waits
    cases waits
  case pending =>
    intro result same
    rw [same] at waits
    cases waits

/-- A call is there once the table is. -/
theorem Sound.serving (sound : Sound resolver) (here : resolver.refreshes[call]? = some old)
    : ∃ table, resolver.server = .serving table := by
  by_contra none
  rw [sound.idle (fun table serving => none ⟨table, serving⟩)] at here
  cases here

theorem mem_times {time : Time} (same : modified resolver.disk = some time)
    : time ∈ resolver.times :=
  List.mem_filterMap.mpr ⟨resolver.disk, List.mem_cons_self, same⟩

theorem modified_eq_none
    : modified resolver.disk = none ↔ resolver.disk = none := Option.map_eq_none_iff

/-- A stage of the bind, with or without a table. -/
theorem Sound.staged {server : Server Time} (sound : Sound resolver)
    (none : resolver.refreshes = [])
    (loaded : ∀ overrides, server = .loaded overrides → Earlier resolver overrides)
    (served : ∀ table, server = .serving table →
      (∀ time, table.modified = some time → time ∈ resolver.times)
        ∧ Earlier resolver table.overrides
        ∧ Matches resolver table.overrides table.modified)
    : Sound { resolver with server } := by
  have never {call : Nat} {refresh : Refresh Time} : resolver.refreshes[call]? ≠ some refresh := by
    rw [none]
    simp
  constructor
  case idle => exact fun _ => none
  case known => exact sound.known
  case stamped => exact fun table time serving => (served table serving).1 time
  case alone => exact sound.alone
  case holds => exact fun _ _ _ found _ => absurd found never
  case loaded => exact loaded
  case served => exact fun table serving => (served table serving).2.1
  case reread => exact fun _ _ found => absurd found never
  case fits =>
    intro table serving _
    have right := (served table serving).2.2
    exact ⟨right.current, right.empty⟩
  case pending => exact fun _ _ _ _ found => absurd found never

theorem looked_cases {found : Refresh Time}
    (there : (resolver.refreshes ++ [refresh])[call]? = some found)
    : resolver.refreshes[call]? = some found
      ∨ (call = resolver.refreshes.length ∧ found = refresh) := by
  rw [List.getElem?_append] at there
  split at there
  · exact Or.inl there
  · next after =>
      obtain ⟨bound, same⟩ := List.getElem?_eq_some_iff.mp there
      have bound' : call - resolver.refreshes.length < 1 := bound
      refine Or.inr ⟨by omega, ?_⟩
      rw [List.getElem_singleton] at same
      exact same.symm

/-- One more call looks at the file. -/
theorem Sound.looked (sound : Sound resolver) (serving : resolver.server = .serving table)
    : Sound { resolver with refreshes := resolver.refreshes ++ [.looked (modified resolver.disk)] } := by
  have earlier {call : Nat} {found : Refresh Time} (there
      : (resolver.refreshes ++ [.looked (modified resolver.disk)])[call]? = some found)
      (other : found ≠ .looked (modified resolver.disk)) : resolver.refreshes[call]?
        = some found := by
    rcases looked_cases there with there | ⟨_, same⟩
    · exact there
    · exact absurd same other
  have writing {found : Refresh Time} (writes : found.writes = true)
      : found ≠ .looked (modified resolver.disk) := by
    intro same
    rw [same] at writes
    cases writes
  constructor
  case idle =>
    intro none
    exact absurd serving (none table)
  case known =>
    intro call refresh time there now
    rcases looked_cases there with there | ⟨_, rfl⟩
    · exact sound.known call refresh time there now
    · exact mem_times (Option.some.inj now)
  case stamped => exact sound.stamped
  case alone =>
    intro call other one two there there' writes writes'
    exact sound.alone call other one two (earlier there (writing writes))
      (earlier there' (writing writes'))
      writes writes'
  case holds =>
    intro call now table there serving
    exact sound.holds call now table (earlier there (writing rfl)) serving
  case loaded => exact sound.loaded
  case served => exact sound.served
  case reread =>
    intro call overrides there
    exact sound.reread call overrides (earlier there (writing rfl))
  case fits =>
    intro table serving unlocked
    have before : resolver.locked = false := by
      rw [locked, List.any_append, Bool.or_eq_false_iff] at unlocked
      exact unlocked.1
    have right := sound.fits table serving before
    exact ⟨right.current, right.empty⟩
  case pending =>
    intro call table result serving there
    have right := sound.pending call table result serving (earlier there (writing rfl))
    exact ⟨right.current, right.empty⟩

theorem sound_start (hosts : String) (disk : Option (HostsFile Time))
    : Sound (start hosts disk) := by
  constructor
  case idle => exact fun _ => rfl
  all_goals simp [start]

variable [DecidableEq Time] {after : Resolver Time} {action : Action Time}

/-- By cases on the step. -/
theorem Sound.step (sound : Sound resolver) (pairs : Pairs resolver action)
    (taken : resolver.step action = some after) : Sound after := by
  cases takes_of_step taken with
  | replace new => exact sound.edited (fun right known => right.replaced known new)
  | delete => exact sound.edited (fun right _ => right.deleted)
  | bindLoads bound loaded =>
      refine sound.staged (sound.idle (by simp [bound])) ?_ (fun _ serving => by cases serving)
      intro overrides same
      cases same
      exact Earlier.now loaded
  | bindFails bound failed =>
      exact sound.staged (sound.idle (by simp [bound])) (fun _ same => by cases same)
        (fun _ serving => by cases serving)
  | @bindLooks overrides loaded =>
      refine sound.staged (sound.idle (by simp [loaded])) (fun _ same => by cases same) ?_
      intro table same
      cases same
      have right := pairs overrides loaded
      refine ⟨fun time => mem_times, sound.loaded overrides loaded, fun _ => right, ?_⟩
      intro missing
      refine right .empty ?_
      rw [loads, modified_eq_none.mp missing, load]
  | refreshLooks serving => exact sound.looked serving
  | agrees serving compares unlocked same =>
      rcases compares with ⟨_, here⟩ | ⟨_, here⟩
      · exact sound.compared serving unlocked here rfl (fun _ now => by cases now)
      · exact sound.compared serving unlocked here rfl (fun _ now => by cases now)
  | @differs call table now serving looked unlocked =>
      exact sound.compared serving unlocked looked rfl
        (fun time same => sound.known call (.looked now) time looked same)
  | @locks call table now serving found unlocked =>
      have known (time : Time) (same : now = some time) : time ∈ resolver.times :=
        sound.known call _ time found (congrArg some same)
      apply sound.proceeded found (others_of_unlocked unlocked)
      case known => exact fun time same => known time (Option.some.inj same)
      case stamped => exact known
      case holds =>
        intro now' same
        cases same
        rfl
      case served => exact sound.served table serving
      case reread => exact fun _ same => by cases same
      case fits => exact fun waits => by cases waits
      case pending => exact fun _ same => by cases same
  | @reads call now found =>
      obtain ⟨table, serving⟩ := sound.serving found
      rw [← proceed_serving serving]
      apply sound.proceeded found (others_of_writes sound found rfl)
      case known => exact fun _ same => by cases same
      case stamped => exact fun time => sound.stamped table time serving
      case holds => exact fun _ same => by cases same
      case served => exact sound.served table serving
      case reread =>
        intro overrides same
        exact Earlier.now (Refresh.reloaded.inj same)
      case fits => exact fun waits => by cases waits
      case pending =>
        intro result same
        cases same
        constructor
        · intro _ others loaded
          rw [loaded]
          rfl
        · intro missing
          refine pairs table serving ?_
          rw [← missing, sound.holds call now table found serving]
          exact found
  | @stores call table result serving found =>
      apply sound.proceeded found (others_of_writes sound found rfl)
      case known => exact fun _ same => by cases same
      case stamped => exact fun time => sound.stamped table time serving
      case holds => exact fun _ same => by cases same
      case served =>
        cases result with
        | error error => exact sound.served table serving
        | ok overrides => exact sound.reread call overrides found
      case reread => exact fun _ same => by cases same
      case fits => exact fun _ => sound.pending call table result serving found
      case pending => exact fun _ same => by cases same

end Steps

-----------------------------------------------------------------------------------------
-- After the last edit
-----------------------------------------------------------------------------------------

def Action.edits : Action Time → Bool
  | .replace _ | .delete => true
  | _ => false

/-- What the calls have read is what the hosts file is loaded as now. -/
def Current (resolver : Resolver Time) : Prop :=
  ∀ (call : Nat) result, resolver.refreshes[call]? = some (.reloaded result)
    → result = resolver.loads

/-- How far a call has brought the table that came to look at the file after the last edit. -/
structure Brings (resolver : Resolver Time) (refresh : Refresh Time) : Prop where
  now : ∀ now, refresh = .looked now ∨ refresh = .differs now → now = modified resolver.disk
  current : (∀ now, refresh ≠ .looked now) → Current resolver
  settled : refresh = .returned → ∀ table, resolver.server = .serving table →
    Reflects resolver table.overrides

def Progress (call : Nat) (resolver : Resolver Time) : Prop :=
  ∀ refresh, resolver.refreshes[call]? = some refresh → Brings resolver refresh

section Quiet

variable {resolver : Resolver Time} {call watched : Nat} {refresh old : Refresh Time}
  {table : Table Time}

theorem current_of_unlocked (unlocked : resolver.locked = false) : Current resolver := by
  intro call result found
  cases unlocked_iff.mp unlocked call _ found

/-- A call goes on, perhaps with another table. -/
theorem Progress.proceeded (progress : Progress watched resolver)
    (read : ∀ result, refresh = .reloaded result → result = resolver.loads)
    (others : Current resolver →
      (∀ before, resolver.server = .serving before → Reflects resolver before.overrides) →
        Reflects resolver table.overrides)
    (own : call = watched →
      (∀ now, refresh = .looked now ∨ refresh = .differs now → now = modified resolver.disk)
      ∧ Current resolver ∧ (refresh = .returned → Reflects resolver table.overrides))
    : Progress watched { resolver.proceed call refresh with server := .serving table } := by
  have still (current : Current resolver)
      : Current { resolver.proceed call refresh with server := .serving table } := by
    intro other result there
    rcases proceed_cases there with ⟨_, same⟩ | ⟨_, there⟩
    · exact read result same.symm
    · exact current other result there
  intro found there
  rcases proceed_cases there with ⟨same, rfl⟩ | ⟨_, there⟩
  · obtain ⟨now, current, settled⟩ := own same.symm
    refine ⟨now, fun _ => still current, ?_⟩
    intro returned table' serving
    cases serving
    exact settled returned
  · have brings := progress found there
    refine ⟨brings.now, fun apart => still (brings.current apart), ?_⟩
    intro returned table' serving
    cases serving
    refine others (brings.current ?_) (brings.settled returned)
    rw [returned]
    exact fun _ same => by cases same

variable [DecidableEq Time] {after : Resolver Time} {action : Action Time}

/-- Without an edit a call only gets on, by cases on the step. -/
theorem Progress.step (progress : Progress watched resolver) (sound : Sound resolver)
    (quiet : action.edits = false)
    (taken : resolver.step action = some after) : Progress watched after := by
  have waiting (none : resolver.refreshes = []) (server : Server Time)
      : Progress watched { resolver with server } := by
    intro found there
    rw [none] at there
    cases there
  -- A call that compares goes on with the table as it was.
  have compared {call : Nat} {refresh : Refresh Time} {table : Table Time}
      (serving : resolver.server = .serving table) (unlocked : resolver.locked = false)
      (waits : refresh.writes = false)
      (own : call = watched →
        (∀ now, refresh = .looked now ∨ refresh = .differs now → now = modified resolver.disk)
        ∧ (refresh = .returned → Reflects resolver table.overrides))
      : Progress watched (resolver.proceed call refresh) := by
    rw [← proceed_serving serving]
    refine progress.proceeded ?_ (fun _ right => right table serving) ?_
    · intro result same
      rw [same] at waits
      cases waits
    · intro same
      exact ⟨(own same).1, current_of_unlocked unlocked, (own same).2⟩
  cases takes_of_step taken with
  | replace => cases quiet
  | delete => cases quiet
  | bindLoads bound => exact waiting (sound.idle (by simp [bound])) _
  | bindFails bound => exact waiting (sound.idle (by simp [bound])) _
  | bindLooks loaded => exact waiting (sound.idle (by simp [loaded])) _
  | refreshLooks serving =>
      have still (current : Current resolver)
          : Current { resolver with refreshes := resolver.refreshes ++ [.looked (modified resolver.disk)] } := by
        intro call result there
        rcases looked_cases there with there | ⟨_, same⟩
        · exact current call result there
        · cases same
      intro found there
      rcases looked_cases there with there | ⟨_, rfl⟩
      · have brings := progress found there
        exact ⟨brings.now, fun apart => still (brings.current apart), brings.settled⟩
      · refine ⟨?_, fun apart => absurd rfl (apart _), fun same => by cases same⟩
        intro now same
        rcases same with same | same
        · exact (Refresh.looked.inj same).symm
        · cases same
  | @agrees _ call table now serving compares unlocked same =>
      refine compared serving unlocked rfl ?_
      intro own
      subst own
      refine ⟨fun _ same => by simp at same, fun _ => (sound.fits table serving unlocked).current ?_⟩
      rw [same]
      rcases compares with ⟨_, here⟩ | ⟨_, here⟩
      · exact (progress _ here).now now (Or.inl rfl)
      · exact (progress _ here).now now (Or.inr rfl)
  | @differs call table now serving looked unlocked =>
      refine compared serving unlocked rfl ?_
      intro own
      subst own
      refine ⟨?_, fun same => by cases same⟩
      intro now' same
      have own : now = now' := by simpa using same
      exact own ▸ (progress _ looked).now now (Or.inl rfl)
  | @locks call table now serving found unlocked =>
      refine progress.proceeded (fun _ same => by cases same) (fun _ right => right table serving)
        ?_
      intro _
      exact ⟨fun _ same => by simp at same, current_of_unlocked unlocked, fun same => by cases same⟩
  | @reads call now found =>
      obtain ⟨table, serving⟩ := sound.serving found
      rw [← proceed_serving serving]
      refine progress.proceeded ?_ (fun _ right => right table serving) ?_
      · intro result same
        exact (Refresh.reloaded.inj same).symm
      · intro own
        subst own
        exact ⟨fun _ same => by simp at same, (progress _ found).current (fun _ same => by cases same),
          fun same => by cases same⟩
  | @stores call table result serving found =>
      have right (current : Current resolver)
          : Reflects resolver (result.toOption.getD table.overrides) := by
        intro others loaded
        rw [current call result found, loaded]
        rfl
      refine progress.proceeded (fun _ same => by cases same) (fun current _ => right current) ?_
      intro own
      subst own
      have current := (progress _ found).current (fun _ same => by cases same)
      exact ⟨fun _ same => by simp at same, current, fun _ => right current⟩

/-- By induction on the steps without an edit. -/
theorem settles {during : List (Action Time)} (sound : Sound resolver)
    (progress : Progress watched resolver)
    (quiet : ∀ action ∈ during, action.edits = false)
    (pairs : Runs.Along step Pairs resolver during)
    (ran : Runs.run step resolver during = some after) : Sound after ∧ Progress watched after := by
  induction during generalizing resolver with
  | nil =>
      cases ran
      exact ⟨sound, progress⟩
  | cons action rest ih =>
      obtain ⟨next, taken, ran⟩ := Runs.run_cons.mp ran
      have still := progress.step sound (quiet action List.mem_cons_self) taken
      exact ih (sound.step pairs.1 taken) still
        (fun later member => quiet later (List.mem_cons_of_mem _ member))
        (pairs.2 next taken) ran

/-- In a run that pairs no table with another content's modification time, the table is the one of the
hosts file once a refresh has come and gone after the last edit.
-/
theorem table_catches_up {hosts : String} {disk : Option (HostsFile Time)}
    {before during : List (Action Time)} {middle after : Resolver Time} {call : Nat}
    (ran : Runs.run step (start hosts disk) before = some middle)
    (quiet : ∀ action ∈ during, action.edits = false)
    (ran' : Runs.run step middle during = some after)
    (pairs : Runs.Along step Pairs (start hosts disk) (before ++ during))
    (began : middle.refreshes.length ≤ call) (completed : after.refreshes[call]? = some .returned)
    : ∃ table, after.server = .serving table ∧ Reflects after table.overrides
      ∧ Earlier after table.overrides := by
  obtain ⟨first, second⟩ := Runs.along_append ran pairs
  have sound : Sound middle :=
    Runs.keeps (fun _ _ _ sound pairs taken => sound.step pairs taken) (sound_start hosts disk) ran first
  have early : Progress call middle := by
    intro refresh there
    have bound := (List.getElem?_eq_some_iff.mp there).1
    omega
  obtain ⟨sound', progress⟩ := settles sound early quiet second ran'
  obtain ⟨table, serving⟩ := sound'.serving completed
  exact ⟨table, serving, (progress _ completed).settled rfl table serving,
    sound'.served table serving⟩

end Quiet

def exampleHosts : HostsFile Nat := ⟨"10.0.0.5 a.example.com".toByteArray, 1⟩

/-- The refresh after the first edit. -/
theorem table_catches_up_first
    : ∃ table, Server.serving ⟨(load "hosts" (some exampleHosts)).toOption.getD .empty, some 1⟩
      = .serving table
      ∧ Reflects ⟨"hosts", some exampleHosts, [none],
          .serving ⟨(load "hosts" (some exampleHosts)).toOption.getD .empty, some 1⟩, [.returned]⟩ table.overrides
      ∧ Earlier ⟨"hosts", some exampleHosts, [none],
          .serving ⟨(load "hosts" (some exampleHosts)).toOption.getD .empty, some 1⟩, [.returned]⟩
          table.overrides := by
  have pairs : Runs.Along step Pairs (start "hosts" none)
      ([.bindLoads, .bindLooks, .replace exampleHosts]
        ++ [.refreshLooks, .checks 0, .locks 0, .reads 0, .stores 0]) := by
    refine Runs.along_cons rfl trivial (Runs.along_cons rfl ?_ (Runs.along_cons rfl trivial
      (Runs.along_cons rfl trivial (Runs.along_cons rfl trivial (Runs.along_cons rfl trivial
        (Runs.along_cons rfl ?_ (Runs.along_cons rfl trivial trivial)))))))
    · intro overrides loaded others same
      cases loaded
      cases same
      rfl
    · intro table _ found
      cases found
  exact @table_catches_up Nat _ "hosts" none [.bindLoads, .bindLooks, .replace exampleHosts]
    [.refreshLooks, .checks 0, .locks 0, .reads 0, .stores 0] _ _ 0 rfl (by decide) rfl pairs
    (Nat.le_refl 0) rfl

/-- The file is created between a bind's load and its look at the modification time: the refresh after
that finds the time that the empty table has.
-/
theorem bind_misses_edit
    : ∃ middle after,
      Runs.run step (start "hosts" none) [.bindLoads, .replace exampleHosts, .bindLooks]
        = some middle
      ∧ Runs.run step middle [.refreshLooks, .checks 0] = some after
      ∧ middle.refreshes.length ≤ 0 ∧ after.refreshes[0]? = some .returned
      ∧ ¬ ∃ table, after.server = .serving table ∧ Reflects after table.overrides
        ∧ Earlier after table.overrides := by
  refine ⟨⟨"hosts", some exampleHosts, [none], .serving ⟨.empty, some 1⟩, []⟩,
    ⟨"hosts", some exampleHosts, [none], .serving ⟨.empty, some 1⟩, [.returned]⟩, rfl, rfl,
    Nat.le_refl 0, rfl, ?_⟩
  intro caught
  obtain ⟨table, serving, right, _⟩ := caught
  cases serving
  have read : (load "hosts" (some exampleHosts)).toOption.isSome = true
      ∧ (load "hosts" (some exampleHosts)).toOption ≠ some .empty := by
    decide +kernel
  cases loaded : load "hosts" (some exampleHosts) with
  | error error =>
      rw [loaded] at read
      cases read.1
  | ok overrides =>
      have same : Overrides.empty = overrides := right overrides loaded
      rw [loaded, ← same] at read
      exact read.2 rfl

end WslVpn.Dns
