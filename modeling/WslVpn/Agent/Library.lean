import WslVpn.Records.Map
import WslVpn.Separated.Trim
import WslVpn.Agent.Profile

/-! The library of imported profiles: a list with the active one in the agent's state, and a file for each
in the data directory.
-/

namespace WslVpn.Agent

open Dns (Text trim toAsciiLowercase)
open Records

/-- A profile's file name, without the extension: its name, with spaces as underscores. -/
def fileStem (name : Text) : Except Text Text :=
  let name := trim name
  let ok := name ≠ [] ∧ name.length ≤ 64 ∧ name.head? ≠ some '.'
    ∧ name.all (fun c => c.isAlphanum || c = ' ' || c = '.' || c = '_' || c = '-')
  if ¬ ok then
    .error ("`".toList ++ name
      ++ "` cannot be a profile name: use letters, digits, spaces, `.`, `_` or `-`, up to 64 characters".toList)
  else .ok (name.map (fun c => if c = ' ' then '_' else c))

/-- The name of the file that `conf_path_in` gives to a profile. -/
def confStem (name : Text) : Text :=
  match fileStem name with
  | .ok stem => stem
  | .error _ => "invalid".toList

/-- The names are of one profile. -/
def same (a b : Text) : Bool :=
  match fileStem a, fileStem b with
  | .ok a, .ok b => toAsciiLowercase a = toAsciiLowercase b
  | _, _ => false

/-- The data directory: the configs under `profiles/`, each under the stem of its file name, and
`profile.conf` beside them.
-/
structure DataDir where
  caseSensitive : Bool
  profiles : Map Text Text
  legacy : Option Text

namespace DataDir

variable (data : DataDir)

/-- What the file system tells files apart by. -/
def fileKey (stem : Text) : Text := if data.caseSensitive then stem else toAsciiLowercase stem

def read (stem : Text) : Option Text := data.profiles.lookup (data.fileKey stem)

def write (stem text : Text) : DataDir :=
  { data with profiles := data.profiles.insert (data.fileKey stem) text }

def remove (stem : Text) : DataDir :=
  { data with profiles := data.profiles.erase (data.fileKey stem) }

def empty (caseSensitive : Bool) : DataDir := ⟨caseSensitive, ∅, none⟩

end DataDir

/-- Carry a profile imported before profiles were a list into the list. -/
def ensureLibraryIn (data : DataDir) (state : AgentState) : DataDir × AgentState :=
  match state.profile with
  | none => (data, state)
  | some active =>
      let stem := confStem active.name
      let data := match data.read stem, data.legacy with
        | none, some text => data.write stem text
        | _, _ => data
      if state.profiles.any (fun p => same p.name active.name) then (data, state)
      else (data, { state with profiles := active :: state.profiles })

/-- The list with the profile in the place of the first one of the name, or at the end. -/
def putProfile (profile : DirectProfile) : List DirectProfile → List DirectProfile
  | [] => [profile]
  | p :: rest => if same p.name profile.name then profile :: rest else p :: putProfile profile rest

/-- Add a profile, or replace the one with the same name. -/
def importIn (publicKeyFromPrivate : Text → Option Text) (data : DataDir) (state : AgentState)
    (text name : Text)
    : Except Text DirectProfile × DataDir × AgentState :=
  let (data, state) := ensureLibraryIn data state
  let name := trim name
  match fileStem name with
  | .error message => (.error message, data, state)
  | .ok _ =>
      let text := normalise text
      match validate publicKeyFromPrivate text name with
      | .error message => (.error message, data, state)
      | .ok profile =>
          let data := data.write (confStem name) text
          let replacesActive := state.profile.any (fun p => same p.name name)
          (.ok profile, data,
            { state with
              profiles := putProfile profile state.profiles
              profile := if state.profile.isNone || replacesActive then some profile
                else state.profile })

/-- Make `name` the profile Connect uses. -/
def selectIn (state : AgentState) (name : Text) : Except Text (DirectProfile × AgentState) :=
  match state.profiles.find? (fun p => same p.name name) with
  | none => .error ("no profile named `".toList ++ name ++ "`; see `wsl profile list`".toList)
  | some found => .ok (found, { state with profile := some found })

/-- Delete a profile, the active one when there is no name. -/
def removeIn (data : DataDir) (state : AgentState) (name : Option Text) (tunnelUp : Bool)
    : Except Text Unit × DataDir × AgentState :=
  let (data, state) := ensureLibraryIn data state
  match name <|> state.profile.map (·.name) with
  | none => (.error "no profile to remove".toList, data, state)
  | some target =>
      let isActive := state.profile.any (fun p => same p.name target)
      if isActive && tunnelUp && state.session.isNone then
        (.error ("disconnect first; the tunnel is up from `".toList ++ target ++ "`".toList), data, state)
      else
        let kept := state.profiles.filter (fun p => !same p.name target)
        if kept.length = state.profiles.length ∧ ¬ isActive then
          (.error ("no profile named `".toList ++ target ++ "`".toList), data,
            { state with profiles := kept })
        else
          let data := data.remove (confStem target)
          if isActive then
            (.ok (), { data with legacy := none },
              { state with profiles := kept, profile := kept.head? })
          else (.ok (), data, { state with profiles := kept })

/-- The stored config of `name`, as wg-quick will read it. -/
def configTextIn (data : DataDir) (state : AgentState) (name : Text) : Except Text Text :=
  match (state.profiles ++ state.profile.toList).find? (fun p => same p.name name) with
  | none => .error ("no profile named `".toList ++ name ++ "`".toList)
  | some profile =>
      match data.read (confStem profile.name) <|> data.legacy with
      | some text => .ok text
      | none => .error ("the config for `".toList ++ name ++ "` is missing; import it again".toList)

-----------------------------------------------------------------------------------------
-- Files
-----------------------------------------------------------------------------------------

namespace DataDir

variable {data : DataDir} {stem other text : Text}

@[simp] theorem write_caseSensitive
    : (data.write stem text).caseSensitive = data.caseSensitive := rfl

@[simp] theorem remove_caseSensitive : (data.remove stem).caseSensitive = data.caseSensitive := rfl

@[simp] theorem write_legacy : (data.write stem text).legacy = data.legacy := rfl

@[simp] theorem remove_legacy : (data.remove stem).legacy = data.legacy := rfl

theorem read_write
    : (data.write stem text).read other
      = if data.fileKey other = data.fileKey stem then some text else data.read other := by
  split
  · next same =>
      change (data.profiles.insert (data.fileKey stem) text).lookup (data.fileKey other) = _
      rw [same, AList.lookup_insert]
  · next apart => exact AList.lookup_insert_ne apart

theorem read_remove
    : (data.remove stem).read other
      = if data.fileKey other = data.fileKey stem then none else data.read other := by
  split
  · next same =>
      change (data.profiles.erase (data.fileKey stem)).lookup (data.fileKey other) = _
      rw [same, AList.lookup_erase]
  · next apart => exact AList.lookup_erase_ne apart

end DataDir

-----------------------------------------------------------------------------------------
-- What an import does
-----------------------------------------------------------------------------------------

section Import

variable {publicKeyFromPrivate : Text → Option Text} {data : DataDir} {state : AgentState}
  {text name : Text}

/-- An import that is accepted: the name and the text pass, and both are put where they belong. -/
structure Imported (publicKeyFromPrivate : Text → Option Text) (data : DataDir) (state : AgentState)
    (text name : Text) (profile : DirectProfile) (data' : DataDir)
    (state' : AgentState) : Prop where
  named : ∃ stem, fileStem (trim name) = .ok stem
  valid : validate publicKeyFromPrivate (normalise text) (trim name) = .ok profile
  stored : data' = data.write (confStem (trim name)) (normalise text)
  listed : state' = { state with
    profiles := putProfile profile state.profiles
    profile := if state.profile.isNone || state.profile.any (fun p => same p.name (trim name)) then
        some profile
      else state.profile }

/-- An import is refused behind the library's set up, or does all of it. -/
theorem importIn_cases
    : (∃ message, importIn publicKeyFromPrivate data state text name
        = (.error message, ensureLibraryIn data state))
      ∨ ∃ profile data' state',
        importIn publicKeyFromPrivate data state text name = (.ok profile, data', state')
        ∧ Imported publicKeyFromPrivate (ensureLibraryIn data state).1 (ensureLibraryIn data state).2
          text name profile data' state' := by
  unfold importIn
  cases named : fileStem (trim name) with
  | error message => exact Or.inl ⟨message, by simp [named]⟩
  | ok stem =>
      cases valid : validate publicKeyFromPrivate (normalise text) (trim name) with
      | error message => exact Or.inl ⟨message, by simp [named, valid]⟩
      | ok profile =>
          simp only [named, valid]
          exact Or.inr ⟨profile, _, _, rfl, ⟨stem, named⟩, valid, rfl, rfl⟩

end Import

-----------------------------------------------------------------------------------------
-- What a removal does
-----------------------------------------------------------------------------------------

section Remove

variable {data : DataDir} {state : AgentState} {name : Option Text} {tunnelUp : Bool}

/-- The active profile has the name. -/
def AgentState.activeIs (state : AgentState) (name : Text) : Bool :=
  state.profile.any (fun p => same p.name name)

theorem AgentState.activeIs_iff {name : Text}
    : state.activeIs name = true ↔ ∃ p ∈ state.profile, same p.name name = true := by
  cases chosen : state.profile with
  | none => simp [AgentState.activeIs, chosen]
  | some p => simp [AgentState.activeIs, chosen]

/-- A removal that is accepted: a profile of the name goes with the file of the name. -/
structure Removed (data : DataDir) (state : AgentState) (name : Option Text) (tunnelUp : Bool)
    (target : Text) (data' : DataDir) (state' : AgentState) : Prop where
  named : (name <|> state.profile.map (·.name)) = some target
  down : (state.activeIs target && tunnelUp && state.session.isNone) = false
  found : (∃ p ∈ state.profiles, same p.name target = true) ∨ state.activeIs target = true
  erased : data' = { data.remove (confStem target) with
    legacy := if state.activeIs target then none else data.legacy }
  listed : state' = { state with
    profiles := state.profiles.filter (fun p => !same p.name target)
    profile := if state.activeIs target then
        (state.profiles.filter (fun p => !same p.name target)).head?
      else state.profile }

/-- Some profile has the name that goes. -/
theorem Removed.known {target : Text} {data' : DataDir} {state' : AgentState}
    (removed : Removed data state name tunnelUp target data' state')
    : ∃ p : DirectProfile, same p.name target = true := by
  rcases removed.found with ⟨p, _, matched⟩ | active
  · exact ⟨p, matched⟩
  · obtain ⟨p, _, matched⟩ := AgentState.activeIs_iff.mp active
    exact ⟨p, matched⟩

/-- A removal is refused behind the library's set up, or does all of it. -/
theorem removeIn_cases
    : (∃ message, removeIn data state name tunnelUp = (.error message, ensureLibraryIn data state))
      ∨ ∃ target data' state', removeIn data state name tunnelUp = (.ok (), data', state')
        ∧ Removed (ensureLibraryIn data state).1 (ensureLibraryIn data state).2 name tunnelUp target
          data' state' := by
  unfold removeIn
  generalize ensureLibraryIn data state = ensured
  obtain ⟨data, state⟩ := ensured
  cases named : (name <|> state.profile.map (·.name)) with
  | none =>
      simp only [named]
      exact Or.inl ⟨_, rfl⟩
  | some target =>
      simp only [named]
      split
      · exact Or.inl ⟨_, rfl⟩
      · next down =>
        have down' : (state.activeIs target && tunnelUp && state.session.isNone) = false :=
          Bool.eq_false_of_not_eq_true down
        split
        · next unlisted =>
            have all := List.filter_eq_self.mpr (List.length_filter_eq_length_iff.mp unlisted.1)
            refine Or.inl ⟨"no profile named `".toList ++ target ++ "`".toList, ?_⟩
            rw [all]
        · next listed =>
            refine Or.inr ⟨target, ?_⟩
            have found : (∃ p ∈ state.profiles, same p.name target = true)
                ∨ state.activeIs target = true := by
              by_contra neither
              rw [not_or] at neither
              refine listed ⟨?_, neither.2⟩
              refine List.length_filter_eq_length_iff.mpr (fun p member => ?_)
              cases matched : same p.name target with
              | false => rfl
              | true => exact absurd ⟨p, member, matched⟩ neither.1
            cases active : state.activeIs target with
            | true =>
                have active' : state.profile.any (fun p => same p.name target) = true := active
                rw [active', if_pos rfl]
                exact ⟨_, _, rfl, named, down', found, by rw [active]; rfl, by rw [active]; rfl⟩
            | false =>
                have active' : state.profile.any (fun p => same p.name target) = false := active
                rw [active', if_neg Bool.false_ne_true]
                exact ⟨_, _, rfl, named, down', found, by rw [active]; rfl, by rw [active]; rfl⟩

end Remove

-----------------------------------------------------------------------------------------
-- Names of one profile
-----------------------------------------------------------------------------------------

section Names

variable {name key : Text}

/-- What the names of one profile have in common. -/
def libraryKey (name : Text) : Option Text :=
  match fileStem name with
  | .ok stem => some (toAsciiLowercase stem)
  | .error _ => none

theorem same_iff {a b : Text}
    : same a b = true ↔ ∃ key, libraryKey a = some key ∧ libraryKey b = some key := by
  unfold same libraryKey
  cases fileStem a with
  | error message => simp
  | ok first =>
      cases fileStem b with
      | error message => simp
      | ok second => simp [eq_comm]

theorem same_symm {a b : Text} (matched : same a b = true) : same b a = true := by
  obtain ⟨key, first, second⟩ := same_iff.mp matched
  exact same_iff.mpr ⟨key, second, first⟩

theorem same_trans {a b c : Text} (first : same a b = true) (second : same b c = true)
    : same a c = true := by
  obtain ⟨key, left, middle⟩ := same_iff.mp first
  obtain ⟨other, again, right⟩ := same_iff.mp second
  cases middle.symm.trans again
  exact same_iff.mpr ⟨key, left, right⟩

/-- The file of a name is of its profile. -/
theorem confStem_key (keyed : libraryKey name = some key)
    : toAsciiLowercase (confStem name) = key := by
  unfold libraryKey at keyed
  unfold confStem
  cases stem : fileStem name with
  | error message =>
      rw [stem] at keyed
      cases keyed
  | ok stem' =>
      rw [stem] at keyed
      cases keyed
      rfl

theorem trim_trim (name : Text) : trim (trim name) = trim name :=
  Separated.trimBy_idem

theorem fileStem_trim (name : Text) : fileStem (trim name) = fileStem name := by
  unfold fileStem
  rw [trim_trim]

theorem same_trimmed {a b : Text} : same a (trim b) = same a b := by
  unfold same
  rw [fileStem_trim]

/-- Files of different profiles are different, on any file system. -/
theorem fileKey_apart {data : DataDir} {a b first second : Text} (left : libraryKey a = some first)
    (right : libraryKey b = some second) (apart : first ≠ second)
    : data.fileKey (confStem a) ≠ data.fileKey (confStem b) := by
  intro together
  refine apart ?_
  rw [← confStem_key left, ← confStem_key right]
  unfold DataDir.fileKey at together
  split at together
  · rw [together]
  · exact together

end Names

-----------------------------------------------------------------------------------------
-- The list
-----------------------------------------------------------------------------------------

section List

variable {profile p : DirectProfile} {profiles : List DirectProfile}

/-- No two profiles of the list have names of one profile. -/
def Apart (profiles : List DirectProfile) : Prop :=
  profiles.Pairwise (fun p q => same p.name q.name = false)

/-- The new profile is in the list with those that it does not replace. -/
theorem mem_putProfile (apart : Apart profiles)
    : p ∈ putProfile profile profiles
      ↔ p = profile ∨ (p ∈ profiles ∧ same p.name profile.name = false) := by
  induction profiles with
  | nil => simp [putProfile]
  | cons q rest ih =>
      obtain ⟨alone, others⟩ := List.pairwise_cons.mp apart
      cases replaced : same q.name profile.name with
      | true =>
          rw [putProfile, if_pos replaced, List.mem_cons, List.mem_cons]
          refine or_congr_right ⟨?_, ?_⟩
          · intro member
            refine ⟨Or.inr member, ?_⟩
            by_contra matched
            have both := same_trans replaced (same_symm (Bool.eq_true_of_not_eq_false matched))
            rw [alone p member] at both
            cases both
          · intro kept
            rcases kept.1 with first | member
            · rw [first, replaced] at kept
              cases kept.2
            · exact member
      | false =>
          rw [putProfile, if_neg (by simp [replaced]), List.mem_cons, ih others, List.mem_cons]
          constructor
          · intro member
            rcases member with first | new | ⟨member, kept⟩
            · exact Or.inr ⟨Or.inl first, by rw [first, replaced]⟩
            · exact Or.inl new
            · exact Or.inr ⟨Or.inr member, kept⟩
          · intro member
            rcases member with new | ⟨first | member, kept⟩
            · exact Or.inr (Or.inl new)
            · exact Or.inl first
            · exact Or.inr (Or.inr ⟨member, kept⟩)

theorem Apart.put (apart : Apart profiles) : Apart (putProfile profile profiles) := by
  induction profiles with
  | nil => exact List.pairwise_singleton _ _
  | cons q rest ih =>
      obtain ⟨alone, others⟩ := List.pairwise_cons.mp apart
      cases replaced : same q.name profile.name with
      | true =>
          rw [putProfile, if_pos replaced]
          refine List.pairwise_cons.mpr ⟨?_, others⟩
          intro r member
          by_contra matched
          have both := same_trans replaced (Bool.eq_true_of_not_eq_false matched)
          rw [alone r member] at both
          cases both
      | false =>
          rw [putProfile, if_neg (by simp [replaced])]
          refine List.pairwise_cons.mpr ⟨?_, ih others⟩
          intro r member
          rcases (mem_putProfile others).mp member with rfl | ⟨member, _⟩
          · exact replaced
          · exact alone r member

/-- The selected profile stays one of the list's. -/
theorem Imported.selected {publicKeyFromPrivate : Text → Option Text} {data data' : DataDir}
    {state state' : AgentState} {text name : Text}
    (imported : Imported publicKeyFromPrivate data state text name profile data' state')
    (apart : Apart state.profiles) (selected : ∀ p ∈ state.profile, p ∈ state.profiles)
    : ∀ p ∈ state'.profile, p ∈ state'.profiles := by
  intro p active
  rw [imported.listed] at active ⊢
  simp only at active ⊢
  split at active
  · cases active
    exact (mem_putProfile apart).mpr (Or.inl rfl)
  · next other =>
      refine (mem_putProfile apart).mpr (Or.inr ⟨selected p active, ?_⟩)
      have chosen : state.profile = some p := active
      simp only [chosen, Option.isNone_some, Bool.false_or, Option.any_some] at other
      rw [validate_name imported.valid]
      exact Bool.eq_false_of_not_eq_true other

theorem Removed.selected {data data' : DataDir} {state state' : AgentState} {name : Option Text}
    {tunnelUp : Bool} {target : Text}
    (removed : Removed data state name tunnelUp target data' state')
    (selected : ∀ p ∈ state.profile, p ∈ state.profiles)
    : ∀ p ∈ state'.profile, p ∈ state'.profiles := by
  intro p active
  rw [removed.listed] at active ⊢
  simp only at active ⊢
  split at active
  · exact List.mem_of_head? active
  · next other =>
      refine List.mem_filter.mpr ⟨selected p active, ?_⟩
      have chosen : state.profile = some p := active
      simp only [AgentState.activeIs, chosen, Option.any_some] at other
      simp [Bool.eq_false_of_not_eq_true other]

/-- A profile stays in the list when it is not of the name that goes. -/
theorem Removed.mem {data data' : DataDir} {state state' : AgentState} {name : Option Text}
    {tunnelUp : Bool} {target : Text}
    (removed : Removed data state name tunnelUp target data' state')
    : p ∈ state'.profiles ↔ p ∈ state.profiles ∧ same p.name target = false := by
  rw [removed.listed, List.mem_filter]
  simp

end List

-----------------------------------------------------------------------------------------
-- A config with as little in it as can be
-----------------------------------------------------------------------------------------

/-- The pair of the WireGuard quick start. -/
def quickStartKey : Text := "yAnz5TF+lXXJte14tji3zlMNq+hd2rYUIgJBgB3fBmk=".toList

def quickStartPublicKey : Text := "HIgo9xNzJMWLKASShiTqIybxZ0U3wGLiUeJ1PKf8ykw=".toList

def quickStartPair (key : Text) : Option Text :=
  if key = quickStartKey then some quickStartPublicKey else none

def smallConfig : Text :=
  "[Interface]\nPrivateKey=".toList ++ quickStartKey ++ "\nAddress=a\n[Peer]\nPublicKey=".toList
    ++ quickStartPublicKey ++ "\nAllowedIPs=b\nEndpoint=c\n".toList

def smallProfile (name : Text) : DirectProfile :=
  ⟨name, ['c'], [['a']], [], [['b']], some quickStartPublicKey, none, none,
    [⟨quickStartPublicKey, some ['c'], [['b']], none⟩]⟩

end WslVpn.Agent
