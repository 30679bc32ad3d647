import Mathlib.Data.List.ModifyLast
import WslVpn.Agent.Properties.LibraryMap
import WslVpn.Agent.Properties.WireGuardKeys

/-! What the agent shows of an imported config: each profile that it ever lists has an address, a key of
its own and one for each of its peers, and the networks of its peers.
-/

namespace WslVpn.Agent

open Dns (Text trim toAsciiLowercase)
open Crypto (Primitives publicKeyFromPrivate)

/-- A profile that there is something to connect to with. -/
structure DirectProfile.Sound (profile : DirectProfile) : Prop where
  addressed : profile.address ≠ []
  reachable : profile.endpoint ≠ []
  own : ∃ key, profile.publicKey = some key ∧ isKey key = true
  served : profile.peers ≠ []
  keyed : ∀ peer ∈ profile.peers, isKey peer.publicKey = true
  networks : profile.allowedIps = profile.peers.flatMap PeerSummary.allowedIps

namespace Progress

/-- What is known of the profile behind some lines. The last peer may be without a key, as long as the
lines are in its section.
-/
structure Tracked (progress : Progress) : Prop where
  counted : progress.peers = progress.profile.peers.length
  earlier : ∀ peer ∈ progress.profile.peers.dropLast, isKey peer.publicKey = true
  last : progress.peerHasKey = true →
    ∀ peer ∈ progress.profile.peers.getLast?, isKey peer.publicKey = true
  opened : progress.inSection = .peer → progress.profile.peers ≠ []
  closed : progress.inSection ≠ .peer → progress.peerHasKey = true
  networks : progress.profile.allowedIps = progress.profile.peers.flatMap PeerSummary.allowedIps
  own : progress.privateKey = true →
    ∃ key, progress.profile.publicKey = some key ∧ isKey key = true

variable {progress next : Progress} {lineNo : Nat} {line raw key value : Text}

theorem Tracked.start (name : Text) : (Progress.start name).Tracked where
  counted := rfl
  earlier := fun _ member => absurd member List.not_mem_nil
  last := fun _ _ member => absurd member (Option.not_mem_none _)
  opened := fun peer => absurd peer (by simp [Progress.start])
  closed := fun _ => rfl
  networks := rfl
  own := fun seen => absurd seen (by simp [Progress.start])

namespace Tracked

/-- Between two sections each peer has its key. -/
theorem keyed (tracked : progress.Tracked) (ended : progress.close lineNo = .ok ())
    : progress.peerHasKey = true
      ∧ ∀ peer ∈ progress.profile.peers, isKey peer.publicKey = true := by
  have complete : progress.peerHasKey = true := by
    by_cases inside : progress.inSection = .peer
    · rw [close, if_pos inside, closePeer] at ended
      cases has : progress.peerHasKey with
      | true => rfl
      | false => simp [has] at ended
    · exact tracked.closed inside
  refine ⟨complete, ?_⟩
  intro peer member
  rcases List.eq_nil_or_concat progress.profile.peers with nothing | ⟨front, last, some⟩
  · rw [nothing] at member
    cases member
  · rw [List.concat_eq_append] at some
    have earlier := tracked.earlier
    have final := tracked.last complete
    rw [some, List.dropLast_concat] at earlier
    rw [some, List.getLast?_concat] at final
    rw [some] at member
    rcases List.mem_append.mp member with before | here
    · exact earlier peer before
    · rw [List.mem_singleton.mp here]
      exact final last rfl

theorem header (tracked : progress.Tracked) (accepted : progress.header lineNo line = .ok next)
    : next.Tracked := by
  obtain ⟨_, ended, opened⟩ := of_bind_ok accepted
  obtain ⟨complete, keyed⟩ := tracked.keyed ended
  simp only [openSection] at opened
  split at opened
  · cases opened
    exact
      { counted := tracked.counted
        earlier := tracked.earlier
        last := tracked.last
        opened := fun peer => absurd peer (by simp)
        closed := fun _ => complete
        networks := tracked.networks
        own := tracked.own }
  · split at opened
    · cases opened
      exact
        { counted := by simp [tracked.counted]
          earlier := by simpa using keyed
          last := fun has => absurd has (by simp)
          opened := fun _ => by simp
          closed := fun other => absurd rfl other
          networks := by simp [tracked.networks]
          own := tracked.own }
    · cases opened

theorem interfaceSetting (tracked : progress.Tracked) {primitives : Primitives}
    (accepted : progress.interfaceSetting (publicKeyFromPrivate primitives) lineNo key value
      = .ok next)
    : next.Tracked := by
  simp only [Progress.interfaceSetting] at accepted
  split at accepted
  · cases accepted
  · split at accepted
    · split at accepted
      · cases accepted
      · next valid =>
          cases accepted
          have passes : isKey value = true := by simpa using valid
          rcases publicKeyFromPrivate_cases primitives value with ⟨fails, _⟩ | ⟨_, own⟩
          · rw [passes] at fails
            cases fails
          · exact { tracked with own := fun _ => own }
    · -- the other settings leave the keys and the peers alone
      repeat' split at accepted
      all_goals
        cases accepted
        exact { tracked with }

/-- The last peer is changed and its networks are added to those of the profile. -/
theorem changed (tracked : progress.Tracked) (inside : progress.inSection = .peer)
    {change : PeerSummary → PeerSummary} {networks : List Text}
    (peers : next.profile.peers = (progress.updatePeer change).profile.peers)
    (added : next.profile.allowedIps = progress.profile.allowedIps ++ networks)
    (grows : ∀ peer, (change peer).allowedIps = peer.allowedIps ++ networks)
    (others : next.peers = progress.peers ∧ next.inSection = .peer
      ∧ next.privateKey = progress.privateKey
      ∧ next.profile.publicKey = progress.profile.publicKey)
    (keys : next.peerHasKey = true →
      ∀ peer ∈ progress.profile.peers.getLast?, isKey (change peer).publicKey = true)
    : next.Tracked := by
  obtain ⟨counts, still, seen, own⟩ := others
  obtain ⟨front, last, some⟩ : ∃ front last, progress.profile.peers = front ++ [last] := by
    rcases List.eq_nil_or_concat progress.profile.peers with nothing | ⟨front, last, some⟩
    · exact absurd nothing (tracked.opened inside)
    · exact ⟨front, last, by rw [some, List.concat_eq_append]⟩
  have now : next.profile.peers = front ++ [change last] := by
    rw [peers, updatePeer, some, List.modifyLast_concat]
  have counted := tracked.counted
  have earlier := tracked.earlier
  have before := tracked.networks
  rw [some] at counted earlier before keys
  rw [List.dropLast_concat] at earlier
  exact
    { counted := by rw [counts, counted, now, List.length_append, List.length_append]; rfl
      earlier := by rwa [now, List.dropLast_concat]
      last := by
        intro has peer final
        rw [now, List.getLast?_concat] at final
        cases final
        exact keys has last List.getLast?_concat
      opened := fun _ => by simp [now]
      closed := fun other => absurd still other
      networks := by
        rw [added, before, now, List.flatMap_append, List.flatMap_append, List.append_assoc]
        simp [grows]
      own := by
        rw [seen, own]
        exact tracked.own }

theorem peerSetting (tracked : progress.Tracked) (inside : progress.inSection = .peer)
    (accepted : progress.peerSetting lineNo key value = .ok next)
    : next.Tracked := by
  have kept : progress.peerHasKey = true →
      ∀ peer ∈ progress.profile.peers.getLast?, isKey peer.publicKey = true := tracked.last
  simp only [Progress.peerSetting] at accepted
  split at accepted
  · cases accepted
  · split at accepted
    · split at accepted
      · cases accepted
      · next valid =>
          cases accepted
          have passes : isKey value = true := by simpa using valid
          exact tracked.changed inside rfl (List.append_nil _).symm
            (fun _ => (List.append_nil _).symm) ⟨rfl, inside, rfl, rfl⟩ (fun _ _ _ => passes)
    · split at accepted
      · split at accepted
        · cases accepted
        · cases accepted
          exact tracked
      · split at accepted
        · cases accepted
          exact tracked.changed inside rfl rfl (fun _ => rfl) ⟨rfl, inside, rfl, rfl⟩ kept
        · split at accepted
          · cases accepted
            exact tracked.changed inside rfl (List.append_nil _).symm
              (fun _ => (List.append_nil _).symm) ⟨rfl, inside, rfl, rfl⟩ kept
          · split at accepted
            · cases accepted
              exact tracked.changed inside rfl (List.append_nil _).symm
                (fun _ => (List.append_nil _).symm) ⟨rfl, inside, rfl, rfl⟩ kept
            · cases accepted
              exact tracked

/-- One line of the config. -/
theorem readLine (tracked : progress.Tracked) {primitives : Primitives}
    (accepted : progress.readLine (publicKeyFromPrivate primitives) lineNo raw = .ok next)
    : next.Tracked := by
  simp only [Progress.readLine] at accepted
  split at accepted
  · cases accepted
    exact tracked
  · split at accepted
    · exact tracked.header accepted
    · split at accepted
      · cases accepted
      · rw [setting] at accepted
        split at accepted
        · cases accepted
        · split at accepted
          · cases accepted
          · exact tracked.interfaceSetting accepted
          · next inside => exact tracked.peerSetting inside accepted

/-- All lines, by induction on them. -/
theorem readLines (tracked : progress.Tracked) {primitives : Primitives} {read : List Text}
    (accepted
      : Progress.readLines (publicKeyFromPrivate primitives) progress lineNo read = .ok next)
    : next.Tracked := by
  induction read generalizing progress lineNo with
  | nil =>
      cases accepted
      exact tracked
  | cons first rest ih =>
      obtain ⟨after, one, others⟩ := of_bind_ok accepted
      exact ih (tracked.readLine one) others

/-- The checks behind the last line leave a profile that is sound. -/
theorem finish (tracked : progress.Tracked) {profile : DirectProfile}
    (accepted : progress.finish lineNo = .ok profile)
    : profile.Sound := by
  obtain ⟨_, ended, checked⟩ := of_bind_ok accepted
  obtain ⟨_, keyed⟩ := tracked.keyed ended
  split at checked
  · cases checked
  · split at checked
    · cases checked
    · next some =>
        split at checked
        · cases checked
        · next seen =>
            split at checked
            · cases checked
            · next addressed =>
                split at checked
                · cases checked
                · next reachable =>
                    cases checked
                    exact
                      { addressed := addressed
                        reachable := reachable
                        own := tracked.own (by simpa using seen)
                        served := by
                          intro nothing
                          exact some (by rw [tracked.counted, nothing]; rfl)
                        keyed := keyed
                        networks := tracked.networks }

end Tracked

end Progress

/-- What the check of a config accepts is sound. -/
theorem sound_of_validate {primitives : Primitives} {text name : Text} {profile : DirectProfile}
    (valid : validate (publicKeyFromPrivate primitives) text name = .ok profile)
    : profile.Sound := by
  obtain ⟨progress, read, finished⟩ := of_bind_ok valid
  exact ((Progress.Tracked.start name).readLines read).finish finished

-----------------------------------------------------------------------------------------
-- The library
-----------------------------------------------------------------------------------------

namespace Library

/-- Each profile that is listed or selected is sound. -/
def ShowsSound (library : Library) : Prop :=
  ∀ profile ∈ library.state.profile.toList ++ library.state.profiles, profile.Sound

variable {library : Library} {primitives : Primitives}

theorem mem_ensured {data : DataDir} {state : AgentState} {profile : DirectProfile}
    (member : profile ∈ (ensureLibraryIn data state).2.profile.toList
      ++ (ensureLibraryIn data state).2.profiles)
    : profile ∈ state.profile.toList ++ state.profiles := by
  cases chosen : state.profile with
  | none => simpa [ensureLibraryIn, chosen] using member
  | some active =>
      by_cases listed : state.profiles.any (fun p => same p.name active.name) = true
      · simpa [ensureLibraryIn, chosen, listed] using member
      · simp only [ensureLibraryIn, chosen, listed] at member
        simpa [chosen] using member

theorem mem_putProfile {profile other : DirectProfile} {profiles : List DirectProfile}
    (member : other ∈ putProfile profile profiles)
    : other = profile ∨ other ∈ profiles := by
  induction profiles with
  | nil => exact Or.inl (List.mem_singleton.mp member)
  | cons first rest ih =>
      rw [putProfile] at member
      split at member
      · rcases List.mem_cons.mp member with rfl | later
        · exact Or.inl rfl
        · exact Or.inr (List.mem_cons_of_mem _ later)
      · rcases List.mem_cons.mp member with rfl | later
        · exact Or.inr List.mem_cons_self
        · rcases ih later with same | later
          · exact Or.inl same
          · exact Or.inr (List.mem_cons_of_mem _ later)

/-- Nothing unsound is listed when what is listed was there, or is sound by itself. -/
theorem ShowsSound.of_mem {after : Library} (shown : library.ShowsSound)
    (known : ∀ profile ∈ after.state.profile.toList ++ after.state.profiles,
      profile.Sound ∨ profile ∈ library.state.profile.toList ++ library.state.profiles)
    : after.ShowsSound := by
  intro profile member
  rcases known profile member with sound | old
  · exact sound
  · exact shown profile old

theorem ShowsSound.step (shown : library.ShowsSound) (call : LibraryCall)
    : (library.step (publicKeyFromPrivate primitives) call).ShowsSound := by
  cases call with
  | importIn text name =>
      rcases @importIn_cases (publicKeyFromPrivate primitives) library.data library.state text name
        with ⟨message, refused⟩ | ⟨profile, data', state', did, put⟩
      · refine shown.of_mem ?_
        intro profile member
        simp only [Library.step, refused] at member
        exact Or.inr (mem_ensured member)
      · have sound := sound_of_validate put.valid
        refine shown.of_mem ?_
        intro other member
        simp only [Library.step, did, put.listed] at member
        rcases List.mem_append.mp member with selected | listed
        · split at selected
          · rw [List.mem_singleton.mp selected]
            exact Or.inl sound
          · exact Or.inr (mem_ensured (List.mem_append_left _ selected))
        · rcases mem_putProfile listed with rfl | old
          · exact Or.inl sound
          · exact Or.inr (mem_ensured (List.mem_append_right _ old))
  | selectIn name =>
      refine shown.of_mem ?_
      intro other member
      simp only [Library.step, Agent.selectIn] at member
      cases found : library.state.profiles.find? (fun p => same p.name name) with
      | none =>
          rw [found] at member
          exact Or.inr member
      | some chosen =>
          rw [found] at member
          rcases List.mem_cons.mp member with rfl | listed
          · exact Or.inr (List.mem_append_right _ (List.mem_of_find?_eq_some found))
          · exact Or.inr (List.mem_append_right _ listed)
  | removeIn name tunnelUp =>
      rcases @removeIn_cases library.data library.state name tunnelUp with
        ⟨message, refused⟩ | ⟨target, data', state', did, gone⟩
      · refine shown.of_mem ?_
        intro profile member
        simp only [Library.step, refused] at member
        exact Or.inr (mem_ensured member)
      · refine shown.of_mem ?_
        intro other member
        simp only [Library.step, did, gone.listed] at member
        rcases List.mem_append.mp member with selected | listed
        · split at selected
          · -- the first one that is left is selected
            have left := List.mem_of_mem_head? (Option.mem_toList.mp selected)
            exact Or.inr (mem_ensured (List.mem_append_right _ (List.mem_filter.mp left).1))
          · exact Or.inr (mem_ensured (List.mem_append_left _ selected))
        · exact Or.inr (mem_ensured (List.mem_append_right _ (List.mem_filter.mp listed).1))
  | ensureLibraryIn =>
      exact shown.of_mem (fun profile member => Or.inr (mem_ensured member))
  | configTextIn name => exact shown
  | useNone =>
      refine shown.of_mem ?_
      intro profile member
      exact Or.inr (List.mem_append_right _ member)

/-- A run, by induction on its calls. -/
theorem ShowsSound.run (shown : library.ShowsSound) (calls : List LibraryCall)
    : (library.run (publicKeyFromPrivate primitives) calls).ShowsSound := by
  induction calls generalizing library with
  | nil => exact shown
  | cons call calls ih => exact ih (shown.step call)

end Library

/-- However an agent that starts without profiles is told to import, select and remove some: each that it
lists, and the one it has selected, has an address, an endpoint and a key of its own, at least one
peer and a key for each, and the networks of its peers as its own.
-/
theorem profiles_sound (primitives : Primitives) (caseSensitive : Bool) (calls : List LibraryCall)
    : let library := (Library.empty caseSensitive).run (publicKeyFromPrivate primitives) calls
      ∀ profile ∈ library.state.profile.toList ++ library.state.profiles, profile.Sound := by
  have begins : (Library.empty caseSensitive).ShowsSound :=
    fun profile member => absurd member List.not_mem_nil
  exact begins.run calls

end WslVpn.Agent
