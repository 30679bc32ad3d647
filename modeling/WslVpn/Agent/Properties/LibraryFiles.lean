import WslVpn.Agent.Properties.LibraryMap

/-! Which config files are left behind by the library. A profile is one for all spellings of its name, but
its file is named by the spelling that a call has, so a call with another spelling leaves a file behind.
-/

namespace WslVpn.Agent

open Dns (Text trim toAsciiLowercase)

namespace Library

/-- What an agent from before the library leaves: at most a profile, with its `profile.conf`. -/
def upgraded (state : AgentState) (legacy : Option (DirectProfile × Text)) : Library where
  data := ⟨true, ∅, legacy.map (·.2)⟩
  state := { state with profile := legacy.map (·.1), profiles := [] }
  events := []

/-- The profiles that a call finds, once the selected one is carried over. -/
def known (library : Library) : List DirectProfile :=
  library.state.profiles ++ library.state.profile.toList

/-- The call names the file of the profile that it replaces or removes, no other profile has that
file, and `profile.conf` is not left with the config of a profile that goes. `owner` is the name of
the profile that `profile.conf` is of.
-/
def Tidy (publicKeyFromPrivate : Text → Option Text) (owner : Option Text) (library : Library)
    : LibraryCall → Prop
  | .importIn text name =>
      (validate publicKeyFromPrivate (normalise text) (trim name)).toOption.isSome →
      ∀ p ∈ library.known, same p.name name = true → confStem p.name = confStem name
  | .removeIn name tunnelUp =>
      ∀ target, (name <|> library.state.profile.map (·.name)) = some target →
      (library.state.activeIs target && tunnelUp && library.state.session.isNone) = false →
      ∀ p ∈ library.known, same p.name target = true →
        confStem p.name = confStem target
        ∧ (∀ q ∈ library.known, same q.name target = false → confStem q.name ≠ confStem target)
        ∧ (library.data.legacy ≠ none → owner.any (same · target) = true →
          library.state.activeIs target = true)
  | _ => True

/-- The files under `profiles/` are those of the profiles in the list. -/
def FilesOfList (library : Library) : Prop :=
  ∀ stem, (library.data.read stem).isSome ↔ ∃ p ∈ library.state.profiles, confStem p.name = stem

/-- The list and the files after calls that are tidy. -/
structure Filed (library : Library) : Prop where
  sensitive : library.data.caseSensitive = true
  apart : Apart library.state.profiles
  files : library.FilesOfList
  /-- Before the first call but `selectIn`, the selected profile is in `profile.conf` alone. -/
  selected : ∀ a ∈ library.state.profile,
    a ∈ library.state.profiles ∨ (library.state.profiles = [] ∧ library.data.legacy ≠ none)

variable {publicKeyFromPrivate : Text → Option Text} {owner : Option Text} {library : Library}
  {data' : DataDir} {state' : AgentState} {events : List LibraryEvent}

theorem fileKey_sensitive {data : DataDir} (sensitive : data.caseSensitive = true) (stem : Text)
    : data.fileKey stem = stem := by
  simp [DataDir.fileKey, sensitive]

namespace Filed

theorem start (state : AgentState) (legacy : Option (DirectProfile × Text))
    : (upgraded state legacy).Filed where
  sensitive := rfl
  apart := List.Pairwise.nil
  files := by
    intro stem
    have missing : (upgraded state legacy).data.read stem = none := by
      simp [upgraded, DataDir.read]
    rw [missing]
    simp [upgraded]
  selected := by
    intro a active
    refine Or.inr ⟨rfl, ?_⟩
    obtain ⟨pair, there, _⟩ := Option.map_eq_some_iff.mp active
    simp [upgraded, there]

/-- The library with the selected profile carried over. -/
structure Ensured (library : Library) (data : DataDir) (state : AgentState) : Prop where
  filed : Filed ⟨data, state, library.events⟩
  listed : ∀ p, p ∈ state.profiles ↔ p ∈ library.known
  selected : ∀ a ∈ state.profile, a ∈ state.profiles
  profile : state.profile = library.state.profile
  session : state.session = library.state.session
  legacy : data.legacy = library.data.legacy

/-- The selected profile goes to the front of the list when none there has its name. -/
theorem front (filed : library.Filed) {a : DirectProfile} (active : library.state.profile = some a)
    (unlisted : library.state.profiles.any (fun p => same p.name a.name) = false)
    (sensitive : data'.caseSensitive = true) (legacy : data'.legacy = library.data.legacy)
    (files : ∀ stem, (data'.read stem).isSome
      ↔ (library.data.read stem).isSome ∨ confStem a.name = stem)
    : Ensured library data' { library.state with profiles := a :: library.state.profiles } where
  filed := by
    constructor
    case sensitive => exact sensitive
    case apart =>
      refine List.pairwise_cons.mpr ⟨?_, filed.apart⟩
      intro p member
      by_contra matched
      have back := same_symm (Bool.eq_true_of_not_eq_false matched)
      exact List.any_eq_false.mp unlisted p member back
    case files =>
      intro stem
      rw [files, filed.files]
      simp [or_comm]
    case selected =>
      intro p chosen
      cases active.symm.trans chosen
      exact Or.inl List.mem_cons_self
  listed := by
    intro p
    simp [known, active, or_comm]
  selected := by
    intro p chosen
    cases active.symm.trans chosen
    exact List.mem_cons_self
  profile := rfl
  session := rfl
  legacy := legacy

theorem ensured (filed : library.Filed)
    : Ensured library (Agent.ensureLibraryIn library.data library.state).1
        (Agent.ensureLibraryIn library.data library.state).2 := by
  cases active : library.state.profile with
  | none =>
      have same : Agent.ensureLibraryIn library.data library.state
          = (library.data, library.state) := by
        simp [Agent.ensureLibraryIn, active]
      rw [same]
      exact ⟨filed, by simp [known, active], by simp [active], rfl, rfl, rfl⟩
  | some a =>
      rcases filed.selected a active with member | ⟨empty, carried⟩
      · have there : (library.data.read (confStem a.name)).isSome :=
          (filed.files _).mpr ⟨a, member, rfl⟩
        obtain ⟨text, stored⟩ := Option.isSome_iff_exists.mp there
        cases listed : library.state.profiles.any (fun p => same p.name a.name) with
        | true =>
            have same : Agent.ensureLibraryIn library.data library.state
                = (library.data, library.state) := by
              simp [Agent.ensureLibraryIn, active, stored, listed]
            rw [same]
            refine ⟨filed, ?_, ?_, rfl, rfl, rfl⟩
            · intro p
              simp only [known, active, Option.toList_some, List.mem_append, List.mem_singleton]
              constructor
              · exact Or.inl
              · intro found
                rcases found with found | rfl
                · exact found
                · exact member
            · intro p chosen
              cases active.symm.trans chosen
              exact member
        | false =>
            have carried : Agent.ensureLibraryIn library.data library.state
                = (library.data, { library.state with profiles := a :: library.state.profiles }) := by
              simp [Agent.ensureLibraryIn, active, stored, listed]
            rw [carried]
            refine filed.front active listed filed.sensitive rfl ?_
            intro stem
            constructor
            · exact Or.inl
            · intro found
              rcases found with found | rfl
              · exact found
              · exact there
      · obtain ⟨text, carried⟩ := Option.ne_none_iff_exists'.mp carried
        have missing : library.data.read (confStem a.name) = none := by
          cases read : library.data.read (confStem a.name) with
          | none => rfl
          | some text =>
              obtain ⟨p, member, _⟩ :=
                (filed.files _).mp (Option.isSome_iff_exists.mpr ⟨text, read⟩)
              rw [empty] at member
              cases member
        have unlisted : library.state.profiles.any (fun p => same p.name a.name) = false := by
          rw [empty]
          rfl
        have moved : Agent.ensureLibraryIn library.data library.state
            = (library.data.write (confStem a.name) text,
              { library.state with profiles := a :: library.state.profiles }) := by
          simp [Agent.ensureLibraryIn, active, missing, carried, empty]
        rw [moved]
        refine filed.front active unlisted filed.sensitive rfl ?_
        intro stem
        rw [DataDir.read_write, fileKey_sensitive filed.sensitive,
          fileKey_sensitive filed.sensitive]
        split
        · next here => simp [here]
        · next elsewhere => simp [Ne.symm elsewhere]

/-- An import under the spelling of the profile that it replaces leaves no file behind. -/
theorem imported (filed : library.Filed) (selected : ∀ a ∈ library.state.profile,
      a ∈ library.state.profiles) {text name : Text} {profile : DirectProfile}
    (imported : Imported publicKeyFromPrivate library.data library.state text name profile data' state')
    (tidy : ∀ p ∈ library.state.profiles, same p.name name = true → confStem p.name = confStem name)
    : Filed ⟨data', state', events⟩ := by
  have called : profile.name = trim name := validate_name imported.valid
  have stem : confStem (trim name) = confStem name := by
    rw [confStem, fileStem_trim, confStem]
  have listed {p : DirectProfile} : p ∈ state'.profiles
      ↔ p = profile ∨ (p ∈ library.state.profiles ∧ same p.name profile.name = false) := by
    rw [imported.listed]
    exact mem_putProfile filed.apart
  constructor
  case sensitive => rw [imported.stored]; exact filed.sensitive
  case apart => rw [imported.listed]; exact filed.apart.put
  case selected =>
    intro a active
    exact Or.inl (imported.selected filed.apart selected a active)
  case files =>
    intro file
    rw [imported.stored, DataDir.read_write, fileKey_sensitive filed.sensitive,
      fileKey_sensitive filed.sensitive, stem]
    split
    · next here =>
        refine iff_of_true rfl ⟨profile, listed.mpr (Or.inl rfl), ?_⟩
        rw [called, stem, here]
    · next elsewhere =>
        rw [filed.files]
        constructor
        · intro found
          obtain ⟨p, member, named⟩ := found
          refine ⟨p, listed.mpr (Or.inr ⟨member, ?_⟩), named⟩
          by_contra matched
          refine elsewhere ?_
          rw [← named]
          refine tidy p member ?_
          rw [← same_trimmed, ← called]
          exact Bool.eq_true_of_not_eq_false matched
        · intro found
          obtain ⟨p, member, named⟩ := found
          rcases listed.mp member with rfl | ⟨member, _⟩
          · exact absurd (by rw [← named, called, stem]) elsewhere
          · exact ⟨p, member, named⟩

/-- A removal under the spelling of the profile takes its file, and no other. -/
theorem removed (filed : library.Filed) (selected : ∀ a ∈ library.state.profile,
      a ∈ library.state.profiles) {name : Option Text} {tunnelUp : Bool} {target : Text}
    (removed : Removed library.data library.state name tunnelUp target data' state')
    (tidy : ∀ p ∈ library.state.profiles, same p.name target = true →
      confStem p.name = confStem target
      ∧ ∀ q ∈ library.state.profiles, same q.name target = false
        → confStem q.name ≠ confStem target)
    (known : ∃ p ∈ library.state.profiles, same p.name target = true)
    : Filed ⟨data', state', events⟩ := by
  obtain ⟨gone, there, matched⟩ := known
  constructor
  case sensitive => rw [removed.erased]; exact filed.sensitive
  case apart => rw [removed.listed]; exact List.Pairwise.filter _ filed.apart
  case selected =>
    intro a active
    exact Or.inl (removed.selected selected a active)
  case files =>
    intro file
    have read : data'.read file = (library.data.remove (confStem target)).read file := by
      rw [removed.erased]
      rfl
    change (data'.read file).isSome ↔ ∃ p ∈ state'.profiles, confStem p.name = file
    rw [read, DataDir.read_remove, fileKey_sensitive filed.sensitive,
      fileKey_sensitive filed.sensitive]
    split
    · next here =>
        refine iff_of_false Bool.false_ne_true ?_
        intro found
        obtain ⟨p, member, named⟩ := found
        obtain ⟨member, kept⟩ := removed.mem.mp member
        exact (tidy gone there matched).2 p member kept (named.trans here)
    · next elsewhere =>
        rw [filed.files]
        constructor
        · intro found
          obtain ⟨p, member, named⟩ := found
          refine ⟨p, removed.mem.mpr ⟨member, ?_⟩, named⟩
          by_contra matched
          refine elsewhere ?_
          rw [← named]
          exact (tidy p member (Bool.eq_true_of_not_eq_false matched)).1
        · intro found
          obtain ⟨p, member, named⟩ := found
          exact ⟨p, (removed.mem.mp member).1, named⟩

end Filed

-----------------------------------------------------------------------------------------
-- Runs
-----------------------------------------------------------------------------------------

/-- Each of the calls is tidy where it is made. -/
def TidyRun (publicKeyFromPrivate : Text → Option Text) (owner : Option Text)
    : Library → List LibraryCall → Prop
  | _, [] => True
  | library, call :: calls =>
      library.Tidy publicKeyFromPrivate owner call
      ∧ TidyRun publicKeyFromPrivate owner (library.step publicKeyFromPrivate call) calls

theorem tidyRun_append {before after : List LibraryCall}
    : TidyRun publicKeyFromPrivate owner library (before ++ after)
      ↔ TidyRun publicKeyFromPrivate owner library before
        ∧ TidyRun publicKeyFromPrivate owner (library.run publicKeyFromPrivate before) after := by
  induction before generalizing library with
  | nil => simp [TidyRun, Library.run]
  | cons call before ih =>
      simp only [List.cons_append, TidyRun, ih, and_assoc]
      rfl

theorem run_append {before after : List LibraryCall}
    : library.run publicKeyFromPrivate (before ++ after)
      = (library.run publicKeyFromPrivate before).run publicKeyFromPrivate after :=
  List.foldl_append

/-- The library and the removal that is accepted in it, as `removeIn` sees them. -/
theorem Filed.removal (filed : library.Filed) {name : Option Text} {tunnelUp : Bool} {target : Text}
    (removed : Removed (Agent.ensureLibraryIn library.data library.state).1
      (Agent.ensureLibraryIn library.data library.state).2 name tunnelUp target data' state')
    (tidy : library.Tidy publicKeyFromPrivate owner (.removeIn name tunnelUp))
    : (name <|> library.state.profile.map (·.name)) = some target
      ∧ (∃ p ∈ library.known, same p.name target = true)
      ∧ ∀ p ∈ library.known, same p.name target = true →
        confStem p.name = confStem target
        ∧ (∀ q ∈ library.known, same q.name target = false → confStem q.name ≠ confStem target)
        ∧ (library.data.legacy ≠ none → owner.any (same · target) = true →
          library.state.activeIs target = true) := by
  have ensured := filed.ensured
  have named := removed.named
  rw [ensured.profile] at named
  have down := removed.down
  rw [AgentState.activeIs, ensured.profile, ensured.session] at down
  refine ⟨named, ?_, tidy target named down⟩
  rcases removed.found with ⟨p, member, matched⟩ | active
  · exact ⟨p, (ensured.listed p).mp member, matched⟩
  · obtain ⟨p, chosen, matched⟩ := AgentState.activeIs_iff.mp active
    rw [ensured.profile] at chosen
    exact ⟨p, List.mem_append_right _ (Option.mem_toList.mpr chosen), matched⟩

theorem Filed.step (filed : library.Filed) {call : LibraryCall}
    (tidy : library.Tidy publicKeyFromPrivate owner call)
    : (library.step publicKeyFromPrivate call).Filed := by
  have ensured := filed.ensured
  cases call with
  | importIn text name =>
      rcases @importIn_cases publicKeyFromPrivate library.data library.state text name with
        ⟨message, refused⟩ | ⟨profile, data', state', did, put⟩
      · simp only [Library.step, refused, Option.toList_none, List.nil_append]
        exact ensured.filed
      · simp only [Library.step, did]
        refine ensured.filed.imported ensured.selected put ?_
        intro p member matched
        exact tidy (by rw [put.valid]; rfl) p ((ensured.listed p).mp member) matched
  | selectIn name =>
      simp only [Library.step, Agent.selectIn]
      cases found : library.state.profiles.find? (fun p => same p.name name) with
      | none => exact filed
      | some p =>
          refine ⟨filed.sensitive, filed.apart, filed.files, ?_⟩
          intro q chosen
          cases chosen
          exact Or.inl (List.mem_of_find?_eq_some found)
  | removeIn name tunnelUp =>
      rcases @removeIn_cases library.data library.state name tunnelUp with
        ⟨message, refused⟩ | ⟨target, data', state', did, gone⟩
      · simp only [Library.step, refused, Option.toList_none, List.nil_append]
        exact ensured.filed
      · simp only [Library.step, did]
        obtain ⟨_, ⟨p, there, matched⟩, spelled⟩ := filed.removal gone tidy
        refine ensured.filed.removed ensured.selected gone ?_
          ⟨p, (ensured.listed p).mpr there, matched⟩
        intro q member matched
        obtain ⟨own, alone, _⟩ := spelled q ((ensured.listed q).mp member) matched
        exact ⟨own, fun r listed => alone r ((ensured.listed r).mp listed)⟩
  | ensureLibraryIn => exact ensured.filed
  | configTextIn name => exact filed
  | useNone =>
      refine ⟨filed.sensitive, filed.apart, filed.files, ?_⟩
      intro a chosen
      cases chosen

theorem Filed.run (filed : library.Filed) {calls : List LibraryCall}
    (tidy : TidyRun publicKeyFromPrivate owner library calls)
    : (library.run publicKeyFromPrivate calls).Filed := by
  induction calls generalizing library with
  | nil => exact filed
  | cons call calls ih => exact ih (filed.step tidy.1) tidy.2

/-- A removal that is accepted leaves no file of the profile, and no `profile.conf` of it. -/
theorem Filed.gone (filed : library.Filed) {name : Option Text} {tunnelUp : Bool}
    (tidy : library.Tidy publicKeyFromPrivate owner (.removeIn name tunnelUp))
    (accepted : (Agent.removeIn library.data library.state name tunnelUp).1 = .ok ())
    : ∃ target, (name <|> library.state.profile.map (·.name)) = some target
      ∧ (∀ p ∈ library.known, same p.name target = true →
        (library.step publicKeyFromPrivate (.removeIn name tunnelUp)).data.read (confStem p.name)
          = none)
      ∧ ((library.step publicKeyFromPrivate (.removeIn name tunnelUp)).data.legacy = none
        ∨ owner.any (same · target) = false) := by
  rcases @removeIn_cases library.data library.state name tunnelUp with
    ⟨message, refused⟩ | ⟨target, data', state', did, gone⟩
  · rw [refused] at accepted
    cases accepted
  · obtain ⟨named, ⟨p, there, matched⟩, spelled⟩ := filed.removal gone tidy
    have ensured := filed.ensured
    simp only [Library.step, did]
    refine ⟨target, named, ?_, ?_⟩
    · intro q member matched
      have read : data'.read (confStem q.name)
          = ((Agent.ensureLibraryIn library.data library.state).1.remove (confStem target)).read
            (confStem q.name) := by
        rw [gone.erased]
        rfl
      rw [read, (spelled q member matched).1, DataDir.read_remove, if_pos rfl]
    · rw [gone.erased]
      simp only [AgentState.activeIs, ensured.profile, ensured.legacy]
      cases active : library.state.activeIs target with
      | true =>
          rw [AgentState.activeIs] at active
          simp [active]
      | false =>
          by_cases carried : library.data.legacy = none
          · simp [carried]
          · refine Or.inr (Bool.eq_false_of_not_eq_true ?_)
            intro own
            have kept := (spelled p there matched).2.2 carried own
            rw [active] at kept
            cases kept

/-- What the files are of after the calls. -/
structure NothingLeft (publicKeyFromPrivate : Text → Option Text) (owner : Option Text)
    (start : Library) (calls : List LibraryCall) : Prop where
  files : (start.run publicKeyFromPrivate calls).FilesOfList
  removed : ∀ before name tunnelUp, calls = before ++ [.removeIn name tunnelUp] →
    let library := start.run publicKeyFromPrivate before
    let left := (start.run publicKeyFromPrivate calls).data
    (Agent.removeIn library.data library.state name tunnelUp).1 = .ok () →
    ∃ target, (name <|> library.state.profile.map (·.name)) = some target
      ∧ (∀ p ∈ library.known, same p.name target = true → left.read (confStem p.name) = none)
      ∧ (left.legacy = none ∨ owner.any (same · target) = false)

end Library

/-- Calls that are tidy leave files of the profiles in the list alone, at each call of a run. -/
theorem library_leaves_nothing (publicKeyFromPrivate : Text → Option Text) (state : AgentState)
    (legacy : Option (DirectProfile × Text)) (calls : List LibraryCall)
    (tidy : Library.TidyRun publicKeyFromPrivate (legacy.map (·.1.name)) (.upgraded state legacy) calls)
    : Library.NothingLeft publicKeyFromPrivate (legacy.map (·.1.name)) (.upgraded state legacy)
        calls where
  files := ((Library.Filed.start state legacy).run tidy).files
  removed := by
    intro before name tunnelUp split library left accepted
    subst split
    obtain ⟨first, last, _⟩ := Library.tidyRun_append.mp tidy
    have filed := (Library.Filed.start state legacy).run first
    have done := filed.gone last accepted
    simp only [left, Library.run_append]
    exact done

/-- An agent from before the library, with a profile that is up to be carried over. -/
def Library.fromOld : Library := .upgraded .default (some (smallProfile "Old".toList, smallConfig))

/-- Two profiles are added, and one of them and the old one are removed. -/
def threeProfiles : List LibraryCall :=
  [.importIn smallConfig "Office".toList, .importIn smallConfig "Home".toList,
    .removeIn (some "Office".toList) false, .removeIn (some "Old".toList) false]

/-- The removal of a profile that is named. -/
theorem Library.tidy_named {publicKeyFromPrivate : Text → Option Text} {owner : Option Text}
    {library : Library} {target : Text} {tunnelUp : Bool}
    (tidy
      : ∀ p ∈ library.known, same p.name target = true →
          confStem p.name = confStem target
          ∧ (∀ q ∈ library.known, same q.name target = false → confStem q.name ≠ confStem target)
          ∧ (library.data.legacy ≠ none → owner.any (same · target) = true →
            library.state.activeIs target = true))
    : library.Tidy publicKeyFromPrivate owner (.removeIn (some target) tunnelUp) := by
  intro named found _
  cases found
  exact tidy

theorem threeProfiles_tidy
    : Library.TidyRun quickStartPair (some "Old".toList) .fromOld threeProfiles := by
  refine ⟨?office, ?home, ?removed, ?old, trivial⟩
  case office =>
    intro _
    decide +kernel
  case home =>
    intro _
    decide +kernel
  case removed => exact Library.tidy_named (by decide +kernel)
  case old => exact Library.tidy_named (by decide +kernel)

/-- One file is left, of the one profile in the list, and the old `profile.conf` is gone. -/
theorem library_leaves_nothing_old
    : let library := Library.fromOld.run quickStartPair threeProfiles
      library.state.profiles = [smallProfile "Home".toList] ∧ library.data.legacy = none
      ∧ Library.NothingLeft quickStartPair (some "Old".toList) .fromOld threeProfiles :=
  ⟨by decide +kernel, by decide +kernel, library_leaves_nothing quickStartPair .default
    (some (smallProfile "Old".toList, smallConfig)) threeProfiles threeProfiles_tidy⟩

/-- An edit under another spelling, and a removal: the first file stays, with its private key. -/
theorem office_left_behind
    : let library := (Library.upgraded .default none).run quickStartPair
        [.importIn smallConfig "Office".toList, .importIn smallConfig "office".toList,
          .removeIn (some "office".toList) false]
      library.state.profiles = [] ∧ library.data.read "Office".toList = some (normalise smallConfig)
      ∧ ¬ library.FilesOfList := by
  refine ⟨rfl, rfl, ?_⟩
  intro files
  obtain ⟨p, member, _⟩ := (files "Office".toList).mp rfl
  cases member

end WslVpn.Agent
