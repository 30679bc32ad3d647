import WslVpn.Dns.Text
import WslVpn.Control.Services.GitOps

/-! A policy document as it is written, with what its absent parts stand for and with the notation of its
duration.
-/

namespace WslVpn

open AddressSpace
open Dns (Text)

/-- What a call comes to where a library panics on some arguments. -/
inductive Attempt (Error Value : Type) where
  | ok (value : Value)
  | error (error : Error)
  | panics

namespace Attempt

variable {Error Error' Value Result : Type}

def bind : Attempt Error Value → (Value → Attempt Error Result) → Attempt Error Result
  | ok value, next => next value
  | error failure, _ => .error failure
  | panics, _ => .panics

def map (change : Value → Result) (attempt : Attempt Error Value) : Attempt Error Result :=
  attempt.bind (fun value => .ok (change value))

def mapError (change : Error → Error') : Attempt Error Value → Attempt Error' Value
  | ok value => .ok value
  | error failure => .error (change failure)
  | panics => .panics

def ofExcept : Except Error Value → Attempt Error Value
  | .ok value => .ok value
  | .error failure => .error failure

variable {attempt : Attempt Error Value} {result : Result} {value : Value}

@[simp] theorem bind_eq_ok {next : Value → Attempt Error Result}
    : attempt.bind next = .ok result ↔ ∃ value, attempt = .ok value ∧ next value = .ok result := by
  cases attempt <;> simp [bind]

@[simp] theorem map_eq_ok {change : Value → Result}
    : attempt.map change = .ok result ↔ ∃ value, attempt = .ok value ∧ change value = result := by
  simp [map]

@[simp] theorem bind_eq_panics {next : Value → Attempt Error Result}
    : attempt.bind next = .panics
      ↔ attempt = .panics ∨ ∃ value, attempt = .ok value ∧ next value = .panics := by
  cases attempt <;> simp [bind]

@[simp] theorem map_eq_panics {change : Value → Result}
    : attempt.map change = .panics ↔ attempt = .panics := by
  simp [map]

@[simp] theorem mapError_eq_panics {change : Error → Error'}
    : attempt.mapError change = .panics ↔ attempt = .panics := by
  cases attempt <;> simp [mapError]

@[simp] theorem ofExcept_ne_panics {result : Except Error Value} : ofExcept result ≠ .panics := by
  cases result <;> simp [ofExcept]

@[simp] theorem mapError_eq_ok {change : Error → Error'}
    : attempt.mapError change = .ok value ↔ attempt = .ok value := by
  cases attempt <;> simp [mapError]

@[simp] theorem ofExcept_eq_ok {result : Except Error Value}
    : ofExcept result = .ok value ↔ result = .ok value := by
  cases result <;> simp [ofExcept]

end Attempt

-----------------------------------------------------------------------------------------
-- Durations
-----------------------------------------------------------------------------------------

/-- The longest `Duration`, which has `i64::MAX` milliseconds, in whole seconds. -/
def maxSeconds : Int := 9223372036854775

/-- `Duration::hours`, `minutes` and `seconds`, which panic out of bounds. -/
def durationOf {Error : Type} (number unit : Int) : Attempt Error Int :=
  if -maxSeconds ≤ number * unit ∧ number * unit ≤ maxSeconds then .ok (number * unit) else .panics

/-- Digits and nothing else, for a number below the limit. -/
def parseDigits (limit : Nat) (digits : Text) : Option Nat :=
  match readNumber 10 digits.length true limit digits with
  | some (number, []) => some number
  | _ => none

/-- `text.parse::<i64>()`, if it succeeds. -/
def parseI64 : Text → Option Int
  | '-' :: digits => (parseDigits (2 ^ 63 + 1) digits).map (fun number => -(number : Int))
  | text => (parseDigits (2 ^ 63) (stripPlus text)).map Int.ofNat

/-- `text.strip_suffix(last)`. -/
def stripEnd (last : Char) (text : Text) : Option Text :=
  if text.getLast? = some last then some text.dropLast else none

inductive DurationError where
  | notANumber (text : Text)
  /-- `invalid duration: …` -/
  | invalid (text : Text)
  deriving DecidableEq

/-- A number with the letter of its unit. -/
inductive Notation where
  | counted (text : Text) (unit : Int)
  | other (text : Text)

def notationOf (s : Text) : Notation :=
  let s := Dns.trim s
  match stripEnd 'h' s with
  | some hours => .counted hours 3600
  | none =>
      match stripEnd 'm' s with
      | some minutes => .counted minutes 60
      | none =>
          match stripEnd 's' s with
          | some seconds => .counted seconds 1
          | none => .other s

/-- A duration is a whole number of seconds. -/
def parseDuration (s : Text) : Attempt DurationError Int :=
  match notationOf s with
  | .counted text unit =>
      match parseI64 text with
      | some number => durationOf number unit
      | none => .error (.notANumber text)
  | .other text => .error (.invalid text)

/-- The seconds that are written, within bounds or not. -/
def Notation.seconds : Notation → Option Int
  | .counted text unit => (parseI64 text).map (· * unit)
  | .other _ => none

/-- There is a `Duration` of so many seconds. -/
def InBounds (secs : Int) : Prop := -maxSeconds ≤ secs ∧ secs ≤ maxSeconds

instance (secs : Int) : Decidable (InBounds secs) := inferInstanceAs (Decidable (_ ∧ _))

theorem parseDuration_ok {s : Text} {secs : Int}
    : parseDuration s = .ok secs ↔ (notationOf s).seconds = some secs ∧ InBounds secs := by
  unfold parseDuration InBounds
  cases notationOf s with
  | other text => simp [Notation.seconds]
  | counted text unit =>
      cases parsed : parseI64 text with
      | none => simp [Notation.seconds, parsed]
      | some number =>
          simp only [Notation.seconds, parsed, Option.map_some, Option.some.injEq, durationOf]
          split
          · next fits =>
              rw [Attempt.ok.injEq]
              refine (and_iff_left_of_imp ?_).symm
              intro same
              rw [← same]
              exact fits
          · next outside =>
              refine iff_of_false (fun same => by cases same) ?_
              intro both
              obtain ⟨same, fits⟩ := both
              rw [← same] at fits
              exact outside fits

theorem parseDuration_panics {s : Text}
    : parseDuration s = .panics ↔ ∃ secs, (notationOf s).seconds = some secs ∧ ¬ InBounds secs := by
  unfold parseDuration InBounds
  cases notationOf s with
  | other text => simp [Notation.seconds]
  | counted text unit =>
      cases parsed : parseI64 text with
      | none => simp [Notation.seconds, parsed]
      | some number =>
          simp only [Notation.seconds, parsed, Option.map_some, Option.some.injEq, durationOf,
            exists_eq_left']
          split
          · next fits => simp [fits]
          · next outside => simpa using outside

def renderInt : Int → Text
  | .ofNat number => Nat.toDigits 10 number
  | .negSucc number => '-' :: Nat.toDigits 10 (number + 1)

/-- A duration in the largest unit that it is a multiple of. -/
def renderDuration (secs : Int) : Text :=
  if secs.tmod 3600 = 0 then renderInt (secs.tdiv 3600) ++ ['h']
  else if secs.tmod 60 = 0 then renderInt (secs.tdiv 60) ++ ['m']
  else renderInt secs ++ ['s']

-----------------------------------------------------------------------------------------
-- The document
-----------------------------------------------------------------------------------------

def DeviceRequirements.default : DeviceRequirements where
  managed := none
  compliant := some true
  requiredSignals := []

def defaultDuration : Int := 8 * 3600

def SessionRequirements.default : SessionRequirements := ⟨defaultDuration⟩

def PolicyAction.default : PolicyAction := ⟨true⟩

structure WrittenSubjects where
  groups : Option (List String)
  users : Option (List String)

/-- A value that is written as null is one that is written. -/
structure WrittenDevice where
  managed : Option (Option Bool)
  compliant : Option (Option Bool)
  requiredSignals : Option (List String)

structure WrittenSession where
  duration : Option String

structure WrittenAction where
  connect : Option Bool

structure WrittenSpec where
  subjects : WrittenSubjects
  resources : List String
  device : Option WrittenDevice
  session : Option WrittenSession
  action : Option WrittenAction

/-- A document by the parts that it has. Other members of it are ignored. -/
structure WrittenDocument where
  apiVersion : String
  kind : String
  metadata : PolicyMetadata
  spec : WrittenSpec

def WrittenSubjects.read (written : WrittenSubjects) : PolicySubjects where
  groups := written.groups.getD []
  users := written.users.getD []

/-- Each field that is absent has the default of its type. -/
def WrittenDevice.read (written : WrittenDevice) : DeviceRequirements where
  managed := written.managed.getD none
  compliant := written.compliant.getD none
  requiredSignals := written.requiredSignals.getD []

def WrittenSession.read (written : WrittenSession) : Attempt DurationError SessionRequirements :=
  match written.duration with
  | none => .ok ⟨defaultDuration⟩
  | some text => (parseDuration text.toList).map SessionRequirements.mk

def WrittenAction.read (written : WrittenAction) : PolicyAction := ⟨written.connect.getD true⟩

def readSession : Option WrittenSession → Attempt DurationError SessionRequirements
  | none => .ok .default
  | some written => written.read

def WrittenSpec.read (written : WrittenSpec) : Attempt DurationError AccessPolicySpec :=
  (readSession written.session).map fun session => {
    subjects := written.subjects.read
    resources := written.resources
    device := (written.device.map WrittenDevice.read).getD .default
    session
    action := (written.action.map WrittenAction.read).getD .default
  }

def WrittenDocument.read (written : WrittenDocument) : Attempt DurationError AccessPolicyDocument :=
  written.spec.read.map fun spec => {
    apiVersion := written.apiVersion
    kind := written.kind
    metadata := written.metadata
    spec
  }

/-- The seconds of the session that the document describes, if they are written in the notation. -/
def WrittenDocument.seconds (written : WrittenDocument) : Option Int :=
  match written.spec.session.bind WrittenSession.duration with
  | none => some defaultDuration
  | some text => (notationOf text.toList).seconds

/-- What `serde_yaml` makes of a text, the durations apart. -/
inductive YamlReading where
  /-- An error, perhaps behind a duration. -/
  | failed (message : String) (duration : Option String)
  | document (written : WrittenDocument)

inductive PolicyError where
  | invalid (message : String)
  | yaml (message : String)
  | duration (error : DurationError)

/-- The duration that is come to. -/
def YamlReading.duration : YamlReading → Option String
  | failed _ duration => duration
  | document written => written.spec.session.bind WrittenSession.duration

def parsePolicyYaml (readYaml : String → YamlReading) (yaml : String)
    : Attempt PolicyError AccessPolicyDocument :=
  match readYaml yaml with
  | .failed message none => .error (.yaml message)
  | .failed message (some text) =>
      ((parseDuration text.toList).mapError .duration).bind (fun _ => .error (.yaml message))
  | .document written =>
      (written.read.mapError .duration).bind
        (fun doc => (Attempt.ofExcept (checkPolicyDocument doc)).mapError .invalid)

-----------------------------------------------------------------------------------------
-- What is accepted
-----------------------------------------------------------------------------------------

section Accepted

variable {written : WrittenDocument} {doc : AccessPolicyDocument} {readYaml : String → YamlReading}
  {yaml : String}

/-- A check that passes gives the document back. -/
theorem checkPolicyDocument_ok
    : checkPolicyDocument doc = .ok doc
      ↔ doc.apiVersion = "wsl.io/v1" ∧ doc.kind = "AccessPolicy"
        ∧ doc.metadata.name.isEmpty = false := by
  unfold checkPolicyDocument
  split
  · next other => simp [other]
  · next version =>
      rw [ne_eq, not_not] at version
      split
      · next other => simp [other]
      · next kind =>
          rw [ne_eq, not_not] at kind
          split
          · next empty => simp [empty]
          · next named => simp [version, kind, named]

theorem eq_of_checked {other : AccessPolicyDocument} (checked : checkPolicyDocument doc = .ok other)
    : other = doc := by
  unfold checkPolicyDocument at checked
  split at checked
  · cases checked
  · split at checked
    · cases checked
    · split at checked
      · cases checked
      · cases checked
        rfl

/-- An accepted text is a document that is read and passes the checks. -/
theorem parsePolicyYaml_ok
    : parsePolicyYaml readYaml yaml = .ok doc
      ↔ ∃ written, readYaml yaml = .document written ∧ written.read = .ok doc
        ∧ checkPolicyDocument doc = .ok doc := by
  unfold parsePolicyYaml
  cases reading : readYaml yaml with
  | failed message duration =>
      cases duration with
      | none => simp
      | some text => simp
  | document written =>
      simp only [Attempt.bind_eq_ok, Attempt.mapError_eq_ok, Attempt.ofExcept_eq_ok]
      constructor
      · intro accepted
        obtain ⟨other, read, checked⟩ := accepted
        cases eq_of_checked checked
        exact ⟨written, rfl, read, checked⟩
      · intro accepted
        obtain ⟨same, reads, read, checked⟩ := accepted
        cases reads
        exact ⟨doc, read, checked⟩

theorem read_panics
    : written.read = .panics
      ↔ ∃ text, written.spec.session.bind WrittenSession.duration = some text
        ∧ parseDuration text.toList = .panics := by
  rw [WrittenDocument.read, Attempt.map_eq_panics, WrittenSpec.read, Attempt.map_eq_panics]
  cases written.spec.session with
  | none => simp [readSession]
  | some session =>
      cases duration : session.duration with
      | none => simp [readSession, WrittenSession.read, duration]
      | some text => simp [readSession, WrittenSession.read, duration]

/-- The parse panics on a duration that it comes to, and on nothing else. -/
theorem parsePolicyYaml_panics
    : parsePolicyYaml readYaml yaml = .panics
      ↔ ∃ text, (readYaml yaml).duration = some text ∧ parseDuration text.toList = .panics := by
  unfold parsePolicyYaml
  cases reading : readYaml yaml with
  | failed message duration => cases duration <;> simp [YamlReading.duration]
  | document written => simp [YamlReading.duration, read_panics]

/-- The document of a spec that is read. -/
theorem read_ok
    : written.read = .ok doc
      ↔ ∃ session, readSession written.spec.session = .ok session
        ∧ doc = {
          apiVersion := written.apiVersion
          kind := written.kind
          metadata := written.metadata
          spec := {
            subjects := written.spec.subjects.read
            resources := written.spec.resources
            device := (written.spec.device.map WrittenDevice.read).getD .default
            session
            action := (written.spec.action.map WrittenAction.read).getD .default
          }
        } := by
  rw [WrittenDocument.read, Attempt.map_eq_ok]
  simp only [WrittenSpec.read, Attempt.map_eq_ok]
  constructor
  · intro done
    obtain ⟨_, ⟨session, read, rfl⟩, rfl⟩ := done
    exact ⟨session, read, rfl⟩
  · intro done
    obtain ⟨session, read, rfl⟩ := done
    exact ⟨_, ⟨session, read, rfl⟩, rfl⟩

/-- The session of a document that is read. -/
theorem readSession_ok {session : SessionRequirements}
    : readSession written.spec.session = .ok session
      ↔ written.seconds = some session.duration ∧ InBounds session.duration := by
  have standard : InBounds defaultDuration := by decide
  unfold WrittenDocument.seconds
  cases found : written.spec.session with
  | none =>
      simp only [readSession, Attempt.ok.injEq, Option.bind_none, Option.some.injEq]
      constructor
      · intro same
        cases same
        exact ⟨rfl, standard⟩
      · intro both
        obtain ⟨same, _⟩ := both
        cases session
        cases same
        rfl
  | some written =>
      simp only [readSession, WrittenSession.read, Option.bind_some]
      cases written.duration with
      | none =>
          simp only [Attempt.ok.injEq, Option.some.injEq]
          constructor
          · intro same
            cases same
            exact ⟨rfl, standard⟩
          · intro both
            obtain ⟨same, _⟩ := both
            cases session
            cases same
            rfl
      | some text =>
          simp only [Attempt.map_eq_ok, parseDuration_ok]
          constructor
          · intro done
            obtain ⟨secs, parsed, rfl⟩ := done
            exact parsed
          · intro parsed
            exact ⟨session.duration, parsed, rfl⟩

end Accepted

end WslVpn
