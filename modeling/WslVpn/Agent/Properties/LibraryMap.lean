import WslVpn.Agent.Library

/-! The library of profiles as a map from names to texts, in which one name may be selected. -/

namespace WslVpn.Agent

open Dns (Text trim toAsciiLowercase)

inductive LibraryCall where
  | importIn (text name : Text)
  | selectIn (name : Text)
  | removeIn (name : Option Text) (tunnelUp : Bool)
  | ensureLibraryIn
  | configTextIn (name : Text)
  /-- `profile use --none` -/
  | useNone

/-- What came of a call, as far as the map is concerned. -/
inductive LibraryEvent where
  | imported (key text : Text)
  | removed (key : Text)

/-- The text of the last import under the key, if the key was not removed since. The latest event is
the first.
-/
def lastImport : List LibraryEvent → Text → Option Text
  | [], _ => none
  | .imported name text :: earlier, key => if key = name then some text else lastImport earlier key
  | .removed name :: earlier, key => if key = name then none else lastImport earlier key

/-- The library with what has come of the calls so far. -/
structure Library where
  data : DataDir
  state : AgentState
  events : List LibraryEvent

namespace Library

def empty (caseSensitive : Bool) : Library := ⟨.empty caseSensitive, .default, []⟩

def step (publicKeyFromPrivate : Text → Option Text) (library : Library) : LibraryCall → Library
  | .importIn text name =>
      let (result, data, state) := importIn publicKeyFromPrivate library.data library.state text name
      let event := match result with
        | .ok _ => (libraryKey name).map (fun key => LibraryEvent.imported key (normalise text))
        | .error _ => none
      ⟨data, state, event.toList ++ library.events⟩
  | .selectIn name =>
      match selectIn library.state name with
      | .ok (_, state) => { library with state }
      | .error _ => library
  | .removeIn name tunnelUp =>
      let target := name <|> (ensureLibraryIn library.data library.state).2.profile.map (·.name)
      let (result, data, state) := removeIn library.data library.state name tunnelUp
      let event := match result with
        | .ok _ => (target.bind libraryKey).map LibraryEvent.removed
        | .error _ => none
      ⟨data, state, event.toList ++ library.events⟩
  | .ensureLibraryIn =>
      let (data, state) := ensureLibraryIn library.data library.state
      { library with data, state }
  | .configTextIn _ => library
  | .useNone => { library with state := { library.state with profile := none } }

def run (publicKeyFromPrivate : Text → Option Text) (library : Library) (calls : List LibraryCall)
    : Library :=
  calls.foldl (step publicKeyFromPrivate) library

/-- The list, the files and the selection are those of the map. -/
structure Shelved (library : Library) : Prop where
  legacy : library.data.legacy = none
  kept : ∀ p ∈ library.state.profiles, ∃ key text, libraryKey p.name = some key
    ∧ lastImport library.events key = some text ∧ library.data.read (confStem p.name) = some text
  apart : Apart library.state.profiles
  selected : ∀ p ∈ library.state.profile, p ∈ library.state.profiles
  listed : ∀ key, (lastImport library.events key).isSome →
    ∃ p ∈ library.state.profiles, libraryKey p.name = some key

variable {publicKeyFromPrivate : Text → Option Text} {library : Library}

namespace Shelved

theorem start (caseSensitive : Bool) : (empty caseSensitive).Shelved where
  legacy := rfl
  kept := by
    intro p member
    cases member
  apart := List.Pairwise.nil
  selected := by
    intro p member
    cases member
  listed := by
    intro key some
    cases some

/-- There is nothing to carry over. -/
theorem ensured (shelved : library.Shelved)
    : Agent.ensureLibraryIn library.data library.state = (library.data, library.state) := by
  cases active : library.state.profile with
  | none => simp [Agent.ensureLibraryIn, active]
  | some p =>
      have member := shelved.selected p active
      obtain ⟨key, text, named, _, stored⟩ := shelved.kept p member
      have listed : library.state.profiles.any (fun q => same q.name p.name) = true :=
        List.any_eq_true.mpr ⟨p, member, same_iff.mpr ⟨key, named, named⟩⟩
      simp [Agent.ensureLibraryIn, active, stored, listed]

/-- An import puts the text and the profile under the key. -/
theorem imported (shelved : library.Shelved) {text name key : Text} {profile : DirectProfile}
    {data' : DataDir} {state' : AgentState}
    (imported : Imported publicKeyFromPrivate library.data library.state text name profile data' state')
    (named : libraryKey (trim name) = some key)
    : Shelved ⟨data', state', .imported key (normalise text) :: library.events⟩ := by
  have called := validate_name imported.valid
  have replaced (p : DirectProfile) (kept : same p.name profile.name = false) {other : Text}
      (keyed : libraryKey p.name = some other) : other ≠ key := by
    intro same_
    subst same_
    have matched := same_iff.mpr ⟨other, keyed, called ▸ named⟩
    rw [kept] at matched
    cases matched
  constructor
  case legacy => rw [imported.stored]; exact shelved.legacy
  case apart => rw [imported.listed]; exact shelved.apart.put
  case kept =>
    intro p member
    rw [imported.listed] at member
    rcases (mem_putProfile shelved.apart).mp member with rfl | ⟨member, kept⟩
    · refine ⟨key, normalise text, called ▸ named, by simp [lastImport], ?_⟩
      rw [imported.stored, DataDir.read_write, called, if_pos rfl]
    · obtain ⟨other, before, keyed, last, stored⟩ := shelved.kept p member
      have differs := replaced p kept keyed
      refine ⟨other, before, keyed, by simpa [lastImport, differs] using last, ?_⟩
      rw [imported.stored, DataDir.read_write, if_neg (fileKey_apart keyed named differs), stored]
  case selected => exact imported.selected shelved.apart shelved.selected
  case listed =>
    intro other some
    rw [imported.listed]
    by_cases here : other = key
    · subst here
      exact ⟨profile, (mem_putProfile shelved.apart).mpr (Or.inl rfl), called ▸ named⟩
    · obtain ⟨p, member, keyed⟩ := shelved.listed other (by simpa [lastImport, here] using some)
      refine ⟨p, (mem_putProfile shelved.apart).mpr (Or.inr ⟨member, ?_⟩), keyed⟩
      by_contra matched
      obtain ⟨shared, left, right⟩ := same_iff.mp (Bool.eq_true_of_not_eq_false matched)
      rw [called] at right
      exact here (Option.some.inj ((keyed.symm.trans left).trans (right.symm.trans named)))

/-- A removal takes the key away. -/
theorem removed (shelved : library.Shelved) {name : Option Text} {tunnelUp : Bool}
    {target key : Text}
    {data' : DataDir} {state' : AgentState}
    (removed : Removed library.data library.state name tunnelUp target data' state')
    (named : libraryKey target = some key)
    : Shelved ⟨data', state', .removed key :: library.events⟩ := by
  have differs {p : DirectProfile} (kept : same p.name target = false) {other : Text}
      (keyed : libraryKey p.name = some other) : other ≠ key := by
    intro matched
    subst matched
    rw [same_iff.mpr ⟨other, keyed, named⟩] at kept
    cases kept
  constructor
  case legacy =>
    rw [removed.erased, shelved.legacy]
    simp
  case apart =>
    rw [removed.listed]
    exact List.Pairwise.filter _ shelved.apart
  case kept =>
    intro p member
    obtain ⟨member, kept⟩ := removed.mem.mp member
    obtain ⟨other, before, keyed, last, stored⟩ := shelved.kept p member
    have apart := differs kept keyed
    refine ⟨other, before, keyed, by simpa [lastImport, apart] using last, ?_⟩
    have read : (library.data.remove (confStem target)).read (confStem p.name) = some before := by
      rw [DataDir.read_remove, if_neg (fileKey_apart keyed named apart), stored]
    rw [removed.erased]
    exact read
  case selected => exact removed.selected shelved.selected
  case listed =>
    intro other some
    by_cases here : other = key
    · simp [lastImport, here] at some
    · obtain ⟨p, member, keyed⟩ := shelved.listed other (by simpa [lastImport, here] using some)
      refine ⟨p, removed.mem.mpr ⟨member, ?_⟩, keyed⟩
      by_contra matched
      obtain ⟨shared, first, second⟩ := same_iff.mp (Bool.eq_true_of_not_eq_false matched)
      exact here (Option.some.inj ((keyed.symm.trans first).trans (second.symm.trans named)))

/-- The selection becomes an entry of the list, or nothing. -/
theorem reselected (shelved : library.Shelved) {chosen : Option DirectProfile}
    (there : ∀ p ∈ chosen, p ∈ library.state.profiles)
    : Shelved { library with state := { library.state with profile := chosen } } where
  legacy := shelved.legacy
  kept := shelved.kept
  apart := shelved.apart
  selected := there
  listed := shelved.listed

/-- Each call keeps the library a map. -/
theorem step (shelved : library.Shelved) (call : LibraryCall)
    : (library.step publicKeyFromPrivate call).Shelved := by
  cases call with
  | importIn text name =>
      rcases @importIn_cases publicKeyFromPrivate library.data library.state text name with
        ⟨message, refused⟩ | ⟨profile, data', state', did, put⟩
      · simp only [Library.step, refused, shelved.ensured, Option.toList_none, List.nil_append]
        exact shelved
      · rw [shelved.ensured] at put
        obtain ⟨stem, valid⟩ := put.named
        have trimmed : libraryKey name = some (toAsciiLowercase stem) := by
          rw [libraryKey, ← fileStem_trim, valid]
        have named : libraryKey (trim name) = some (toAsciiLowercase stem) := by
          rw [libraryKey, valid]
        simp only [Library.step, did, trimmed, Option.map_some, Option.toList_some,
          List.singleton_append]
        exact shelved.imported put named
  | selectIn name =>
      simp only [Library.step, Agent.selectIn]
      cases found : library.state.profiles.find? (fun p => same p.name name) with
      | none => exact shelved
      | some p =>
          refine shelved.reselected ?_
          intro q chosen
          cases chosen
          exact List.mem_of_find?_eq_some found
  | removeIn name tunnelUp =>
      rcases @removeIn_cases library.data library.state name tunnelUp with
        ⟨message, refused⟩ | ⟨target, data', state', did, gone⟩
      · simp only [Library.step, refused, shelved.ensured, Option.toList_none, List.nil_append]
        exact shelved
      · rw [shelved.ensured] at gone
        obtain ⟨p, matched⟩ := gone.known
        obtain ⟨key, _, named⟩ := same_iff.mp matched
        simp only [Library.step, did, shelved.ensured, gone.named, Option.bind_some, named,
          Option.map_some, Option.toList_some, List.singleton_append]
        exact shelved.removed gone named
  | ensureLibraryIn =>
      simp only [Library.step, shelved.ensured]
      exact shelved
  | configTextIn name => exact shelved
  | useNone =>
      refine shelved.reselected ?_
      intro p chosen
      cases chosen

theorem run (shelved : library.Shelved) (calls : List LibraryCall)
    : (library.run publicKeyFromPrivate calls).Shelved := by
  induction calls generalizing library with
  | nil => exact shelved
  | cons call calls ih => exact ih (shelved.step call)

/-- A name has a profile when there is a text under its key. -/
theorem entry (shelved : library.Shelved) {p : DirectProfile} {name : Text}
    (member : p ∈ library.state.profiles) (matched : same p.name name = true)
    : ∃ text, library.data.read (confStem p.name) = some text
      ∧ (libraryKey name).bind (lastImport library.events) = some text := by
  obtain ⟨key, text, keyed, last, stored⟩ := shelved.kept p member
  obtain ⟨shared, left, right⟩ := same_iff.mp matched
  cases keyed.symm.trans left
  exact ⟨text, stored, by rw [right]; exact last⟩

theorem no_entry (shelved : library.Shelved) {name : Text}
    (missing : ∀ p ∈ library.state.profiles, same p.name name = false)
    : (libraryKey name).bind (lastImport library.events) = none := by
  cases keyed : libraryKey name with
  | none => rfl
  | some key =>
      by_contra last
      obtain ⟨p, member, named⟩ := shelved.listed key (Option.isSome_iff_ne_none.mpr last)
      have matched := same_iff.mpr ⟨key, named, keyed⟩
      rw [missing p member] at matched
      cases matched

theorem texts (shelved : library.Shelved) (name : Text)
    : (Agent.configTextIn library.data library.state name).toOption
      = (libraryKey name).bind (lastImport library.events) := by
  unfold Agent.configTextIn
  cases found : (library.state.profiles ++ library.state.profile.toList).find?
      (fun p => same p.name name) with
  | none =>
      refine (shelved.no_entry (fun p member => ?_)).symm
      have unmatched := List.find?_eq_none.mp found p (List.mem_append_left _ member)
      exact Bool.eq_false_of_not_eq_true unmatched
  | some p =>
      have member : p ∈ library.state.profiles := by
        rcases List.mem_append.mp (List.mem_of_find?_eq_some found) with listed | active
        · exact listed
        · exact shelved.selected p (Option.mem_toList.mp active)
      have matched : same p.name name = true :=
        List.find?_some (p := fun q : DirectProfile => same q.name name) found
      obtain ⟨text, stored, last⟩ := shelved.entry member matched
      rw [last]
      simp [stored, Except.toOption]

theorem selects (shelved : library.Shelved) (name : Text)
    : (Agent.selectIn library.state name).toOption.bind (fun done => done.2.profile.map (·.name)
        >>= libraryKey)
      = if ((libraryKey name).bind (lastImport library.events)).isSome then libraryKey name
        else none := by
  unfold Agent.selectIn
  cases found : library.state.profiles.find? (fun p => same p.name name) with
  | none =>
      have last := shelved.no_entry (fun p member =>
        Bool.eq_false_of_not_eq_true (List.find?_eq_none.mp found p member))
      rw [last]
      rfl
  | some p =>
      have matched : same p.name name = true :=
        List.find?_some (p := fun q : DirectProfile => same q.name name) found
      obtain ⟨text, _, last⟩ := shelved.entry (List.mem_of_find?_eq_some found) matched
      obtain ⟨key, left, right⟩ := same_iff.mp matched
      rw [last, right]
      exact left

end Shelved

end Library

-----------------------------------------------------------------------------------------
-- What the calls see of it
-----------------------------------------------------------------------------------------

/-- The library is a map from names to texts with a name selected at most, as far as any call can
tell.
-/
structure Library.ActsAsMap (publicKeyFromPrivate : Text → Option Text) (library : Library)
    : Prop where
  texts : ∀ name, (Agent.configTextIn library.data library.state name).toOption
    = (libraryKey name).bind (lastImport library.events)
  names : Apart library.state.profiles
  selected : ∀ p ∈ library.state.profile, p ∈ library.state.profiles
  selects : ∀ name, (Agent.selectIn library.state name).toOption.bind
      (fun done => done.2.profile.map (·.name) >>= libraryKey)
    = if ((libraryKey name).bind (lastImport library.events)).isSome then libraryKey name else none
  keepsSelection : ∀ text name profile data state,
    Agent.importIn publicKeyFromPrivate library.data library.state text name
      = (.ok profile, data, state) →
    state.profile.map (libraryKey ·.name)
      = some (match library.state.profile with
        | none => libraryKey name
        | some active => libraryKey active.name)
  refusedImport : ∀ text name message data state,
    Agent.importIn publicKeyFromPrivate library.data library.state text name
      = (.error message, data, state) → data = library.data ∧ state = library.state
  refusedRemoval : ∀ name tunnelUp message data state,
    Agent.removeIn library.data library.state name tunnelUp = (.error message, data, state) →
    data = library.data ∧ state = library.state

namespace Library.Shelved

variable {publicKeyFromPrivate : Text → Option Text} {library : Library}

theorem keepsSelection (shelved : library.Shelved) {text name : Text} {profile : DirectProfile}
    {data : DataDir} {state : AgentState}
    (accepted : Agent.importIn publicKeyFromPrivate library.data library.state text name
      = (.ok profile, data, state))
    : state.profile.map (libraryKey ·.name)
      = some (match library.state.profile with
        | none => libraryKey name
        | some active => libraryKey active.name) := by
  rcases @importIn_cases publicKeyFromPrivate library.data library.state text name with
    ⟨message, refused⟩ | ⟨profile', data', state', did, put⟩
  · rw [accepted] at refused
    cases refused
  · rw [accepted] at did
    cases did
    rw [shelved.ensured] at put
    have named : libraryKey profile.name = libraryKey name := by
      rw [validate_name put.valid, libraryKey, fileStem_trim, libraryKey]
    rw [put.listed]
    cases active : library.state.profile with
    | none => simp [named]
    | some p =>
        cases replaced : same p.name (trim name) with
        | false => simp [replaced]
        | true =>
            obtain ⟨key, left, right⟩ := same_iff.mp replaced
            rw [libraryKey, fileStem_trim, ← libraryKey] at right
            simp [replaced, named, left, right]

theorem actsAsMap (shelved : library.Shelved) : library.ActsAsMap publicKeyFromPrivate where
  texts := shelved.texts
  names := shelved.apart
  selected := shelved.selected
  selects := shelved.selects
  keepsSelection := by
    intro text name profile data state accepted
    exact shelved.keepsSelection accepted
  refusedImport := by
    intro text name message data state refused
    rcases @importIn_cases publicKeyFromPrivate library.data library.state text name with
      ⟨message', same⟩ | ⟨profile', data', state', did, _⟩
    · rw [refused, shelved.ensured] at same
      cases same
      exact ⟨rfl, rfl⟩
    · rw [refused] at did
      cases did
  refusedRemoval := by
    intro name tunnelUp message data state refused
    rcases @removeIn_cases library.data library.state name tunnelUp with
      ⟨message', same⟩ | ⟨target, data', state', did, _⟩
    · rw [refused, shelved.ensured] at same
      cases same
      exact ⟨rfl, rfl⟩
    · rw [refused] at did
      cases did

end Library.Shelved

theorem library_acts_as_map (publicKeyFromPrivate : Text → Option Text) (caseSensitive : Bool)
    (calls : List LibraryCall)
    : ((Library.empty caseSensitive).run publicKeyFromPrivate calls).ActsAsMap
        publicKeyFromPrivate :=
  ((Library.Shelved.start caseSensitive).run calls).actsAsMap

end WslVpn.Agent
