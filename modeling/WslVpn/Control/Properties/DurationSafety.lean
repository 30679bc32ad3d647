import WslVpn.Control.Allows
import WslVpn.Control.PolicyDocument

/-! From the duration in a policy to the expiry of a session: which durations get through. -/

namespace WslVpn

-----------------------------------------------------------------------------------------
-- The expiry of a session
-----------------------------------------------------------------------------------------

/-- The first and the last `DateTime<Utc>`, in seconds since the epoch. -/
def minClock : Int := -8334601228800
def maxClock : Int := 8210266876799

/-- `now + Duration::seconds(secs)`, which panics out of the clock's range. -/
def addSeconds (now secs : Int) : Attempt Empty Int :=
  (durationOf secs 1).bind fun duration =>
    if minClock ≤ now + duration ∧ now + duration ≤ maxClock then .ok (now + duration) else .panics

/-- The expiry that `SessionService::create` computes from a decision. -/
def sessionExpiry (now : Int) (decision : PolicyDecision) : Attempt Empty Int :=
  addSeconds now (decision.sessionDurationSecs.getD (8 * 3600))

theorem addSeconds_ok {now secs : Int}
    : (∃ expiry, addSeconds now secs = .ok expiry)
      ↔ InBounds secs ∧ minClock ≤ now + secs ∧ now + secs ≤ maxClock := by
  unfold addSeconds durationOf InBounds
  rw [mul_one]
  split
  · next fits =>
      simp only [Attempt.bind]
      split
      · next inside => simp [fits, inside]
      · next outside => simpa [fits] using outside
  · next outside => simp [Attempt.bind, outside]

-----------------------------------------------------------------------------------------
-- What is asked of a policy, and of its text
-----------------------------------------------------------------------------------------

/-- The text is read without a panic, and what it allows expires properly. -/
structure SafeDurations (readYaml : String → YamlReading) (yaml : String) (now : Int) : Prop where
  returns : parsePolicyYaml readYaml yaml ≠ .panics
  expires : ∀ doc, parsePolicyYaml readYaml yaml = .ok doc →
    ∀ policies input, AllowsBy policies input doc →
      (∃ secs, (evaluate policies input).sessionDurationSecs = some secs ∧ 0 < secs)
      ∧ ∃ expiry, sessionExpiry now (evaluate policies input) = .ok expiry

/-- The document passes the checks, and its policy allows somebody. -/
structure WrittenDocument.Admits (written : WrittenDocument) : Prop where
  apiVersion : written.apiVersion = "wsl.io/v1"
  kind : written.kind = "AccessPolicy"
  named : written.metadata.name.isEmpty = false
  connect : written.spec.action.bind WrittenAction.connect ≠ some false
  resources : written.spec.resources ≠ []
  subjects : written.spec.subjects.groups.getD [] ≠ [] ∨ written.spec.subjects.users.getD [] ≠ []

/-- The duration is neither too long for a `Duration`, nor, where somebody is allowed, is it none at all
or too long for the clock.
-/
structure YamlReading.Moderate (reading : YamlReading) (now : Int) : Prop where
  bounded : ∀ text secs, reading.duration = some text
    → (notationOf text.toList).seconds = some secs →
    InBounds secs
  positive : ∀ written secs, reading = .document written → written.Admits
    → written.seconds = some secs →
    0 < secs ∧ now + secs ≤ maxClock

section Documents

variable {readYaml : String → YamlReading} {yaml : String} {written : WrittenDocument}
  {doc : AccessPolicyDocument} {now : Int}

theorem returns_iff
    : parsePolicyYaml readYaml yaml ≠ .panics
      ↔ ∀ text secs, (readYaml yaml).duration = some text
        → (notationOf text.toList).seconds = some secs →
          InBounds secs := by
  rw [ne_eq, parsePolicyYaml_panics]
  simp only [parseDuration_panics]
  constructor
  · intro returns text secs come same
    by_contra outside
    exact returns ⟨text, come, secs, same, outside⟩
  · intro bounded panics
    obtain ⟨text, come, secs, same, outside⟩ := panics
    exact outside (bounded text secs come same)

/-- A policy of this document can allow exactly when the document admits somebody. -/
theorem admits_iff (read : written.read = .ok doc)
    : written.Admits ↔ checkPolicyDocument doc = .ok doc ∧ ¬ doc.NeverAllows := by
  obtain ⟨session, _, rfl⟩ := read_ok.mp read
  rw [checkPolicyDocument_ok]
  simp only [AccessPolicyDocument.NeverAllows, not_or]
  have connects : ((written.spec.action.map WrittenAction.read).getD .default).connect = false
      ↔ written.spec.action.bind WrittenAction.connect = some false := by
    cases written.spec.action with
    | none => simp [PolicyAction.default]
    | some action => cases connect : action.connect <;> simp [WrittenAction.read, connect]
  rw [connects]
  constructor
  · intro admits
    refine ⟨⟨admits.apiVersion, admits.kind, admits.named⟩, admits.connect, admits.resources, ?_⟩
    intro nobody
    rcases admits.subjects with groups | users
    · exact groups nobody.1
    · exact users nobody.2
  · intro both
    obtain ⟨⟨apiVersion, kind, named⟩, connect, resources, somebody⟩ := both
    exact ⟨apiVersion, kind, named, connect, resources, not_and_or.mp somebody⟩

/-- There is a device for every requirement. -/
theorem exists_met (device : DeviceRequirements) : ∃ posture, device.Met posture true := by
  refine ⟨⟨deviceManagementSignal, .pass, none⟩ :: device.requiredSignals.map (⟨·, .pass, none⟩),
    fun _ => rfl, ?_, ?_⟩
  · intro _ name member
    exact ⟨⟨name, .pass, none⟩, List.mem_cons_of_mem _ (List.mem_map_of_mem member), rfl, rfl⟩
  · intro none _
    rw [none]
    exact ⟨List.cons_ne_nil _ _, by simp⟩

end Documents

/-- A policy's text is safe exactly when its duration is moderate. -/
theorem durations_safe_iff (readYaml : String → YamlReading) (yaml : String) {now : Int}
    (started : minClock ≤ now)
    : SafeDurations readYaml yaml now ↔ (readYaml yaml).Moderate now := by
  constructor
  · intro safe
    refine ⟨returns_iff.mp safe.returns, ?_⟩
    intro written secs reads admits seconds
    have bounded : InBounds secs := by
      unfold WrittenDocument.seconds at seconds
      cases duration : written.spec.session.bind WrittenSession.duration with
      | none =>
          rw [duration] at seconds
          cases seconds
          decide
      | some text =>
          rw [duration] at seconds
          exact returns_iff.mp safe.returns text secs
            (by rw [reads, YamlReading.duration, duration]) seconds
    obtain ⟨doc, read⟩ : ∃ doc, written.read = .ok doc :=
      ⟨_, read_ok.mpr ⟨⟨secs⟩, readSession_ok.mpr ⟨seconds, bounded⟩, rfl⟩⟩
    obtain ⟨checked, can⟩ := (admits_iff read).mp admits
    obtain ⟨session, reading, same⟩ := read_ok.mp read
    have duration : doc.spec.session.duration = secs := by
      have found := (readSession_ok.mp reading).1
      rw [seconds] at found
      rw [same, Option.some.inj found]
    obtain ⟨posture, met⟩ := exists_met doc.spec.device
    obtain ⟨input, _, allowed⟩ := allowsBy_alone can met
    obtain ⟨⟨given, decided, positive⟩, expiry⟩ :=
      safe.expires doc (parsePolicyYaml_ok.mpr ⟨written, reads, read, checked⟩) [doc] input allowed
    rw [allowed.duration, duration] at decided
    cases decided
    rw [sessionExpiry, allowed.duration, duration, Option.getD_some, addSeconds_ok] at expiry
    exact ⟨positive, expiry.2.2⟩
  · intro moderate
    refine ⟨returns_iff.mpr moderate.bounded, ?_⟩
    intro doc accepted policies input allowed
    obtain ⟨written, reads, read, checked⟩ := parsePolicyYaml_ok.mp accepted
    obtain ⟨session, reading, same⟩ := read_ok.mp read
    obtain ⟨seconds, bounded⟩ := readSession_ok.mp reading
    have duration : doc.spec.session.duration = session.duration := by rw [same]
    obtain ⟨positive, inside⟩ := moderate.positive written _ reads
      ((admits_iff read).mpr ⟨checked, allowed.can⟩) seconds
    refine ⟨⟨session.duration, ?_, positive⟩, ?_⟩
    · rw [allowed.duration, duration]
    · rw [sessionExpiry, allowed.duration, duration, Option.getD_some, addSeconds_ok]
      exact ⟨bounded, by omega, inside⟩

def endlessYaml : String :=
  "apiVersion: wsl.io/v1\nkind: AccessPolicy\nmetadata:\n  name: developers-registry\nspec:\n"
    ++ "  subjects:\n    groups:\n      - developers\n  resources:\n    - registry\n"
    ++ "  session:\n    duration: 9223372036854775807h\n"

def endlessDocument : WrittenDocument where
  apiVersion := "wsl.io/v1"
  kind := "AccessPolicy"
  metadata := ⟨"developers-registry"⟩
  spec := {
    subjects := ⟨some ["developers"], none⟩
    resources := ["registry"]
    device := none
    session := some ⟨some "9223372036854775807h"⟩
    action := none
  }

/-- A reader that reads the one text. -/
def readEndless (yaml : String) : YamlReading :=
  if yaml = endlessYaml then .document endlessDocument else .failed "unexpected text" none

def workdayYaml : String :=
  "apiVersion: wsl.io/v1\nkind: AccessPolicy\nmetadata:\n  name: developers-registry\nspec:\n"
    ++ "  subjects:\n    groups:\n      - developers\n  resources:\n    - registry\n"
    ++ "  session:\n    duration: 8h\n"

def workdayDocument : WrittenDocument := {
  endlessDocument with spec := { endlessDocument.spec with session := some ⟨some "8h"⟩ }
}

def readWorkday (yaml : String) : YamlReading :=
  if yaml = workdayYaml then .document workdayDocument else .failed "unexpected text" none

/-- A session of eight hours is safe, and its document is accepted. -/
theorem durations_safe_workday
    : (∃ doc, parsePolicyYaml readWorkday workdayYaml = .ok doc)
      ∧ SafeDurations readWorkday workdayYaml 0 := by
  have reads : readWorkday workdayYaml = .document workdayDocument := if_pos rfl
  have hours : (notationOf "8h".toList).seconds = some 28800 := by decide +kernel
  refine ⟨?accepted,
    (durations_safe_iff readWorkday workdayYaml (by decide)).mpr ⟨?bounded, ?positive⟩⟩
  case accepted =>
    obtain ⟨doc, read⟩ : ∃ doc, workdayDocument.read = .ok doc :=
      ⟨_, read_ok.mpr ⟨⟨28800⟩, readSession_ok.mpr ⟨hours, by decide⟩, rfl⟩⟩
    obtain ⟨session, _, same⟩ := read_ok.mp read
    have named : workdayDocument.metadata.name.isEmpty = false := by decide
    have checked : checkPolicyDocument doc = .ok doc := by
      rw [same]
      exact checkPolicyDocument_ok.mpr ⟨rfl, rfl, named⟩
    exact ⟨doc, parsePolicyYaml_ok.mpr ⟨workdayDocument, reads, read, checked⟩⟩
  case bounded =>
    intro text secs come seconds
    rw [reads] at come
    cases come
    cases hours.symm.trans seconds
    decide
  case positive =>
    intro written secs found _ seconds
    cases reads.symm.trans found
    cases hours.symm.trans seconds
    decide

/-- The number of hours is an `i64`, but there is no such `Duration`. -/
theorem endless_duration_panics
    : readEndless endlessYaml = .document endlessDocument
      ∧ parsePolicyYaml readEndless endlessYaml = .panics
        ∧ ¬ SafeDurations readEndless endlessYaml 0 := by
  have reads : readEndless endlessYaml = .document endlessDocument := if_pos rfl
  have panics : parsePolicyYaml readEndless endlessYaml = .panics := by
    refine parsePolicyYaml_panics.mpr ⟨"9223372036854775807h", by rw [reads]; rfl, ?_⟩
    exact parseDuration_panics.mpr ⟨33204139332677192905200, by decide +kernel, by decide⟩
  exact ⟨reads, panics, fun safe => safe.returns panics⟩

end WslVpn
