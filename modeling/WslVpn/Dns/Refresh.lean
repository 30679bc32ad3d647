import Mathlib
import WslVpn.Dns.Hosts
import WslVpn.Interleaving.Runs

/-! The table that the resolver answers from, and how it follows the hosts file: `Server::bind` and any
number of concurrent refreshes, a step for each moment at which they look at the file or at the table.
-/

namespace WslVpn.Dns

/-- The hosts file. Whoever changes it replaces it whole. -/
structure HostsFile (Time : Type) where
  content : ByteArray
  modified : Time
  deriving DecidableEq

variable {Time : Type}

/-- `None` without a file. -/
def modified (disk : Option (HostsFile Time)) : Option Time := disk.map HostsFile.modified

inductive LoadCause where
  | notUtf8
  | invalid (error : ParseError)
  deriving DecidableEq

structure LoadError where
  context : String
  cause : LoadCause
  deriving DecidableEq

/-- A missing file is an empty table, not an error: no overrides yet. -/
def load (path : String) (disk : Option (HostsFile Time)) : Except LoadError Overrides :=
  match disk with
  | none => .ok .empty
  | some file =>
      match String.fromUTF8? file.content with
      | none => .error ⟨"reading " ++ path, .notUtf8⟩
      | some text => (Overrides.parse text.toList).mapError (fun error => ⟨"reading " ++ path, .invalid error⟩)

/-- The table behind the lock. -/
structure Table (Time : Type) where
  overrides : Overrides
  modified : Option Time
  deriving DecidableEq

/-- How far `Server::bind` is. -/
inductive Server (Time : Type) where
  /-- The sockets are bound. -/
  | bound
  | loaded (overrides : Overrides)
  | failed (error : LoadError)
  | serving (table : Table Time)
  deriving DecidableEq

/-- How far a call of `refresh` is. -/
inductive Refresh (Time : Type) where
  /-- It has `now`, and is to compare it under the read lock. -/
  | looked (now : Option Time)
  /-- It waits for the write lock. -/
  | differs (now : Option Time)
  /-- It holds the write lock and has put `now` into the table. -/
  | reloading (now : Option Time)
  /-- It holds the write lock and has read the file. -/
  | reloaded (result : Except LoadError Overrides)
  | returned

/-- The call holds the write lock. -/
def Refresh.writes : Refresh Time → Bool
  | .reloading _ | .reloaded _ => true
  | _ => false

structure Resolver (Time : Type) where
  /-- The path of the hosts file. -/
  hosts : String
  disk : Option (HostsFile Time)
  /-- What was there before, which no step reads. -/
  past : List (Option (HostsFile Time))
  server : Server Time
  refreshes : List (Refresh Time)

inductive Action (Time : Type) where
  /-- `save` renames another file into place. -/
  | replace (file : HostsFile Time)
  | delete
  | bindLoads
  | bindLooks
  | refreshLooks
  | checks (call : Nat)
  | locks (call : Nat)
  | reads (call : Nat)
  | stores (call : Nat)

namespace Resolver

def start (hosts : String) (disk : Option (HostsFile Time)) : Resolver Time :=
  ⟨hosts, disk, [], .bound, []⟩

/-- What the hosts file is loaded as now. -/
def loads (resolver : Resolver Time)
    : Except LoadError Overrides := load resolver.hosts resolver.disk

/-- The modification times of the file, now and before. -/
def times (resolver : Resolver Time)
    : List Time := (resolver.disk :: resolver.past).filterMap modified

def locked (resolver : Resolver Time) : Bool := resolver.refreshes.any Refresh.writes

/-- The call goes on. -/
def proceed (resolver : Resolver Time) (call : Nat) (refresh : Refresh Time) : Resolver Time :=
  { resolver with refreshes := resolver.refreshes.set call refresh }

/-- A call behind a step of another one or of its own. -/
theorem proceed_cases {resolver : Resolver Time} {call other : Nat} {refresh found : Refresh Time}
    (there : (resolver.proceed call refresh).refreshes[other]? = some found)
    : (other = call ∧ found = refresh)
      ∨ (other ≠ call ∧ resolver.refreshes[other]? = some found) := by
  rw [proceed, List.getElem?_set] at there
  split at there
  · next same =>
      split at there
      · exact Or.inl ⟨same.symm, (Option.some.inj there).symm⟩
      · cases there
  · next apart => exact Or.inr ⟨Ne.symm apart, there⟩

/-- No call holds the write lock. -/
theorem unlocked_iff {resolver : Resolver Time}
    : resolver.locked = false
      ↔ ∀ (call : Nat) refresh, resolver.refreshes[call]? = some refresh
        → refresh.writes = false := by
  rw [locked, List.any_eq_false]
  constructor
  · intro none call refresh found
    exact Bool.eq_false_iff.mpr (none refresh (List.mem_of_getElem? found))
  · intro none refresh member
    obtain ⟨call, found⟩ := List.getElem?_of_mem member
    exact Bool.eq_false_iff.mp (none call refresh found)

variable [DecidableEq Time]

/-- A step that can be taken. -/
def step (resolver : Resolver Time) : Action Time → Option (Resolver Time)
  | .replace file =>
      if file.modified ∈ resolver.times then none
      else some { resolver with disk := some file, past := resolver.disk :: resolver.past }
  | .delete => some { resolver with disk := none, past := resolver.disk :: resolver.past }
  | .bindLoads =>
      match resolver.server with
      | .bound =>
          match resolver.loads with
          | .ok overrides => some { resolver with server := .loaded overrides }
          | .error error => some { resolver with server := .failed error }
      | _ => none
  | .bindLooks =>
      match resolver.server with
      | .loaded overrides =>
          some { resolver with server := .serving ⟨overrides, modified resolver.disk⟩ }
      | _ => none
  | .refreshLooks =>
      match resolver.server with
      | .serving _ =>
          some { resolver with refreshes := resolver.refreshes ++ [.looked (modified resolver.disk)] }
      | _ => none
  | .checks call =>
      match resolver.server, resolver.refreshes[call]? with
      | .serving table, some (.looked now) =>
          if resolver.locked then none
          else if table.modified = now then some (resolver.proceed call .returned)
          else some (resolver.proceed call (.differs now))
      | _, _ => none
  | .locks call =>
      match resolver.server, resolver.refreshes[call]? with
      | .serving table, some (.differs now) =>
          if resolver.locked then none
          else if table.modified = now then some (resolver.proceed call .returned)
          else
            some { resolver.proceed call (.reloading now) with server := .serving { table with modified := now } }
      | _, _ => none
  | .reads call =>
      match resolver.refreshes[call]? with
      | some (.reloading _) => some (resolver.proceed call (.reloaded resolver.loads))
      | _ => none
  | .stores call =>
      match resolver.server, resolver.refreshes[call]? with
      | .serving table, some (.reloaded result) =>
          let overrides := result.toOption.getD table.overrides
          some { resolver.proceed call .returned with server := .serving { table with overrides } }
      | _, _ => none

-----------------------------------------------------------------------------------------
-- What a step can do
-----------------------------------------------------------------------------------------

/-- The call compares `now` with the table, for the first time or once more. -/
def Compares (resolver : Resolver Time) (action : Action Time) (call : Nat) (now : Option Time)
    : Prop :=
  (action = .checks call ∧ resolver.refreshes[call]? = some (.looked now))
  ∨ (action = .locks call ∧ resolver.refreshes[call]? = some (.differs now))

inductive Takes (resolver : Resolver Time) : Action Time → Resolver Time → Prop where
  | replace {file} (new : file.modified ∉ resolver.times)
    : Takes resolver (.replace file)
        { resolver with disk := some file, past := resolver.disk :: resolver.past }
  | delete : Takes resolver .delete { resolver with disk := none, past := resolver.disk :: resolver.past }
  | bindLoads {overrides} (bound : resolver.server = .bound) (loaded : resolver.loads = .ok overrides)
    : Takes resolver .bindLoads { resolver with server := .loaded overrides }
  | bindFails {error} (bound : resolver.server = .bound) (failed : resolver.loads = .error error)
    : Takes resolver .bindLoads { resolver with server := .failed error }
  | bindLooks {overrides} (loaded : resolver.server = .loaded overrides)
    : Takes resolver .bindLooks
        { resolver with server := .serving ⟨overrides, modified resolver.disk⟩ }
  | refreshLooks {table} (serving : resolver.server = .serving table)
    : Takes resolver .refreshLooks
        { resolver with refreshes := resolver.refreshes ++ [.looked (modified resolver.disk)] }
  | agrees {action call table now} (serving : resolver.server = .serving table)
    (compares : resolver.Compares action call now) (unlocked : resolver.locked = false)
    (same : table.modified = now)
    : Takes resolver action (resolver.proceed call .returned)
  | differs {call table now} (serving : resolver.server = .serving table)
    (looked : resolver.refreshes[call]? = some (.looked now)) (unlocked : resolver.locked = false)
    : Takes resolver (.checks call) (resolver.proceed call (.differs now))
  | locks {call table now} (serving : resolver.server = .serving table)
    (found : resolver.refreshes[call]? = some (.differs now)) (unlocked : resolver.locked = false)
    : Takes resolver (.locks call)
        { resolver.proceed call (.reloading now) with server := .serving { table with modified := now } }
  | reads {call now} (found : resolver.refreshes[call]? = some (.reloading now))
    : Takes resolver (.reads call) (resolver.proceed call (.reloaded resolver.loads))
  | stores {call table result} (serving : resolver.server = .serving table)
    (found : resolver.refreshes[call]? = some (.reloaded result))
    : Takes resolver (.stores call)
        { resolver.proceed call .returned with
          server := .serving { table with overrides := result.toOption.getD table.overrides } }

/-- A step is one of these, by cases on the action and on what it looks at. -/
theorem takes_of_step {resolver after : Resolver Time} {action : Action Time}
    (taken : resolver.step action = some after) : resolver.Takes action after := by
  cases action with
  | replace file =>
      rw [step, Option.ite_none_left_eq_some] at taken
      obtain ⟨new, same⟩ := taken
      cases same
      exact .replace new
  | delete =>
      cases taken
      exact .delete
  | bindLoads =>
      rw [step] at taken
      split at taken
      · next bound =>
          split at taken
          · next loaded =>
              cases taken
              exact .bindLoads bound loaded
          · next failed =>
              cases taken
              exact .bindFails bound failed
      · cases taken
  | bindLooks =>
      rw [step] at taken
      split at taken
      · next loaded =>
          cases taken
          exact .bindLooks loaded
      · cases taken
  | refreshLooks =>
      rw [step] at taken
      split at taken
      · next serving =>
          cases taken
          exact .refreshLooks serving
      · cases taken
  | checks call =>
      rw [step] at taken
      split at taken
      · next serving looked =>
          rw [Option.ite_none_left_eq_some, Bool.not_eq_true] at taken
          obtain ⟨unlocked, taken⟩ := taken
          split at taken
          · next same =>
              cases taken
              exact .agrees serving (Or.inl ⟨rfl, looked⟩) unlocked same
          · cases taken
            exact .differs serving looked unlocked
      · cases taken
  | locks call =>
      rw [step] at taken
      split at taken
      · next serving found =>
          rw [Option.ite_none_left_eq_some, Bool.not_eq_true] at taken
          obtain ⟨unlocked, taken⟩ := taken
          split at taken
          · next same =>
              cases taken
              exact .agrees serving (Or.inr ⟨rfl, found⟩) unlocked same
          · cases taken
            exact .locks serving found unlocked
      · cases taken
  | reads call =>
      rw [step] at taken
      split at taken
      · next found =>
          cases taken
          exact .reads found
      · cases taken
  | stores call =>
      rw [step] at taken
      split at taken
      · next serving found =>
          cases taken
          exact .stores serving found
      · cases taken

end Resolver

end WslVpn.Dns
