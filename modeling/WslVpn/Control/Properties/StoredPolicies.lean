import WslVpn.AddressSpace.RoundTrip
import WslVpn.Separated.Trim
import WslVpn.Control.PolicyJson

/-! A policy document is what it was once it has been stored. -/

namespace WslVpn

open AddressSpace Records Json
open Dns (Text)

-----------------------------------------------------------------------------------------
-- Durations
-----------------------------------------------------------------------------------------

section Duration

variable {number : Nat} {char : Char} {digits : Text}

theorem digit_of_mem_toDigits (member : char ∈ Nat.toDigits 10 number)
    : char ∈ "0123456789".toList := by
  obtain ⟨digit, below, rfl⟩ := toDigits_chars (by decide) member
  clear member
  revert digit
  decide

theorem parseDigits_toDigits {limit : Nat} (below : number < limit)
    : parseDigits limit (Nat.toDigits 10 number) = some number := by
  have read :=
    @readNumber_toDigits 10 _ limit number true (by decide) (by decide) below (Nat.le_refl _) []
    (stopsAt_nil 10)
  rw [List.append_nil] at read
  rw [parseDigits, read]

/-- A number reads back with its sign. -/
theorem parseI64_renderInt {number : Int} (least : -(2 ^ 63) ≤ number) (most : number < 2 ^ 63)
    : parseI64 (renderInt number) = some number := by
  cases number with
  | negSucc number =>
      have below : number + 1 < 2 ^ 63 + 1 := by omega
      rw [renderInt, parseI64, parseDigits_toDigits below]
      rfl
  | ofNat number =>
      have below : number < 2 ^ 63 := by
        have bound : (number : Int) < 2 ^ 63 := most
        omega
      have sign (char : Char) (rest : Text) (unsigned : char ∉ "0123456789".toList)
          : Nat.toDigits 10 number ≠ char :: rest := by
        intro same
        exact unsigned (@digit_of_mem_toDigits number char (by simp [same]))
      have plain : stripPlus (Nat.toDigits 10 number) = Nat.toDigits 10 number := by
        unfold stripPlus
        split
        · next rest same => exact absurd same (sign '+' rest (by decide))
        · rfl
      rw [renderInt]
      unfold parseI64
      split
      · next rest same => exact absurd same (sign '-' rest (by decide))
      · rw [plain, parseDigits_toDigits below]
        rfl

theorem visible_renderInt (number : Int)
    : ∀ char ∈ renderInt number, Dns.isWhitespace char = false := by
  have digits (number : Nat) : ∀ char ∈ Nat.toDigits 10 number, Dns.isWhitespace char = false := by
    have all : "0123456789".toList.all (fun char => !Dns.isWhitespace char) = true := by decide
    intro char member
    have visible := List.all_eq_true.mp all char (digit_of_mem_toDigits member)
    exact (Bool.not_eq_true' _).mp visible
  cases number with
  | ofNat number => exact digits number
  | negSucc number => exact List.forall_mem_cons.mpr ⟨by decide, digits _⟩

/-- A number with the letter of a unit behind it. -/
theorem trim_counted (number : Int) {unit : Char} (visible : Dns.isWhitespace unit = false)
    : Dns.trim (renderInt number ++ [unit]) = renderInt number ++ [unit] := by
  apply Separated.trimBy_of_trimmed
  constructor
  · intro char member
    have inside := List.mem_append.mp (List.mem_of_mem_head? member)
    rcases inside with inside | inside
    · exact visible_renderInt number char inside
    · rw [List.mem_singleton.mp inside]
      exact visible
  · intro char member
    rw [List.getLast?_concat] at member
    cases member
    exact visible

theorem stripEnd_concat (last unit : Char) (text : Text)
    : stripEnd last (text ++ [unit]) = if unit = last then some text else none := by
  simp [stripEnd]

/-- A duration reads back, by cases on the unit that it is rendered in. -/
theorem parseDuration_render {secs : Int} (bounded : InBounds secs)
    : parseDuration (renderDuration secs) = .ok secs := by
  have wide : -9223372036854775 ≤ secs ∧ secs ≤ 9223372036854775 := bounded
  refine parseDuration_ok.mpr ⟨?_, bounded⟩
  unfold renderDuration
  split
  · next hours =>
      have whole : secs.tdiv 3600 * 3600 = secs := Int.tdiv_mul_cancel_of_tmod_eq_zero hours
      have read := @parseI64_renderInt (secs.tdiv 3600) (by omega) (by omega)
      simp [notationOf, trim_counted _ (show Dns.isWhitespace 'h' = false by decide),
        stripEnd_concat,
        Notation.seconds, read, whole]
  · split
    · next minutes =>
        have whole : secs.tdiv 60 * 60 = secs := Int.tdiv_mul_cancel_of_tmod_eq_zero minutes
        have read := @parseI64_renderInt (secs.tdiv 60) (by omega) (by omega)
        simp [notationOf, trim_counted _ (show Dns.isWhitespace 'm' = false by decide),
          stripEnd_concat,
          Notation.seconds, read, whole]
    · have read := @parseI64_renderInt secs (by omega) (by omega)
      simp [notationOf, trim_counted _ (show Dns.isWhitespace 's' = false by decide),
        stripEnd_concat,
        Notation.seconds, read]

end Duration

-----------------------------------------------------------------------------------------
-- Documents
-----------------------------------------------------------------------------------------

theorem struct_ofMembers {members : List (String × Json)}
    (distinct : Records.Unique Prod.fst members)
    (names : List String) : (ofMembers members).struct names = some
    (fun name => lookup name members) := by
  rw [ofMembers, struct]
  exact congrArg some (funext (fun name => lookup_sorted distinct name))

/-- The document with all its parts written out. -/
def AccessPolicyDocument.written (doc : AccessPolicyDocument) : WrittenDocument where
  apiVersion := doc.apiVersion
  kind := doc.kind
  metadata := doc.metadata
  spec := {
    subjects := ⟨some doc.spec.subjects.groups, some doc.spec.subjects.users⟩
    resources := doc.spec.resources
    device := some ⟨some doc.spec.device.managed, some doc.spec.device.compliant,
      some doc.spec.device.requiredSignals⟩
    session := some ⟨some (String.ofList (renderDuration doc.spec.session.duration))⟩
    action := some ⟨some doc.spec.action.connect⟩
  }

theorem subjects_ofJson (subjects : PolicySubjects)
    : WrittenSubjects.ofJson subjects.toJson
      = some ⟨some subjects.groups, some subjects.users⟩ := by
  rw [WrittenSubjects.ofJson, PolicySubjects.toJson, struct_ofMembers (by simp [Records.Unique])]
  simp [lookup, readDefaulted, readStrings_ofStrings]

theorem device_ofJson (device : DeviceRequirements)
    : WrittenDevice.ofJson device.toJson
      = some ⟨some device.managed, some device.compliant, some device.requiredSignals⟩ := by
  rw [WrittenDevice.ofJson, DeviceRequirements.toJson, struct_ofMembers (by simp [Records.Unique])]
  simp [lookup, readDefaulted, readStrings_ofStrings, readNullable_ofNullable]

theorem session_ofJson (session : SessionRequirements)
    : WrittenSession.ofJson session.toJson
      = some ⟨some (String.ofList (renderDuration session.duration))⟩ := by
  rw [WrittenSession.ofJson, SessionRequirements.toJson,
    struct_ofMembers (by simp [Records.Unique])]
  simp [lookup, readDefaulted, readString]

theorem action_ofJson (action : PolicyAction)
    : WrittenAction.ofJson action.toJson = some ⟨some action.connect⟩ := by
  rw [WrittenAction.ofJson, PolicyAction.toJson, struct_ofMembers (by simp [Records.Unique])]
  simp [lookup, readDefaulted, readBool]

theorem spec_ofJson (doc : AccessPolicyDocument)
    : WrittenSpec.ofJson doc.spec.toJson = some doc.written.spec := by
  rw [WrittenSpec.ofJson, AccessPolicySpec.toJson, struct_ofMembers (by simp [Records.Unique])]
  simp [lookup, readDefaulted, subjects_ofJson, device_ofJson, session_ofJson, action_ofJson,
    readStrings_ofStrings, AccessPolicyDocument.written]

theorem metadata_ofJson (name : String)
    : readMetadata (ofMembers [("name", .string name)]) = some ⟨name⟩ := by
  rw [readMetadata, struct_ofMembers (by simp [Records.Unique])]
  simp [lookup, readString]

theorem ofJson_toJson (doc : AccessPolicyDocument)
    : WrittenDocument.ofJson doc.toJson = some doc.written := by
  rw [WrittenDocument.ofJson, AccessPolicyDocument.toJson,
    struct_ofMembers (by simp [Records.Unique])]
  simp [lookup, readString, metadata_ofJson, spec_ofJson]
  simp [AccessPolicyDocument.written]

/-- Defaults are not needed where everything is written out. -/
theorem read_written {doc : AccessPolicyDocument} (bounded : InBounds doc.spec.session.duration)
    : doc.written.read = .ok doc := by
  refine read_ok.mpr ⟨doc.spec.session, ?_, rfl⟩
  simp [AccessPolicyDocument.written, readSession, WrittenSession.read,
    parseDuration_render bounded]

/-- The duration of a document that is accepted is one of a `Duration`. -/
theorem bounded_of_accepted {readYaml : String → YamlReading} {yaml : String}
    {doc : AccessPolicyDocument}
    (accepted : parsePolicyYaml readYaml yaml = .ok doc) : InBounds doc.spec.session.duration := by
  obtain ⟨written, _, read, _⟩ := parsePolicyYaml_ok.mp accepted
  obtain ⟨session, reading, rfl⟩ := read_ok.mp read
  exact (readSession_ok.mp reading).2

/-- An accepted document reads back from its JSON. -/
theorem policyOfJson_toJson {readYaml : String → YamlReading} {yaml : String}
    {doc : AccessPolicyDocument}
    (accepted : parsePolicyYaml readYaml yaml = .ok doc) : policyOfJson doc.toJson = .ok doc := by
  rw [policyOfJson, ofJson_toJson]
  simp [read_written (bounded_of_accepted accepted)]

/-- The documents that are stored are those that were parsed, and they decide the same. `jsonb` is the
column that they are inserted into: it refuses a value, as one with U+0000 in a text, or gives back what
it has taken.
-/
theorem stored_policies_same (readYaml : String → YamlReading) (jsonb : Json → Option Json)
    (givesBack : ∀ value stored, jsonb value = some stored → stored = value)
    (docs : List AccessPolicyDocument)
    (accepted : ∀ doc ∈ docs, ∃ yaml, parsePolicyYaml readYaml yaml = .ok doc)
    : (∀ doc ∈ docs, policyOfJson doc.toJson = .ok doc)
      ∧ ∀ columns, docs.mapM (fun doc => jsonb doc.toJson) = some columns →
          ∃ stored, policiesOfJson columns = .ok stored
            ∧ ∀ input, evaluate stored input = evaluate docs input := by
  have each : ∀ doc ∈ docs, policyOfJson doc.toJson = .ok doc := by
    intro doc member
    obtain ⟨yaml, parsed⟩ := accepted doc member
    exact policyOfJson_toJson parsed
  refine ⟨each, fun columns inserted => ⟨docs, ?_, fun _ => rfl⟩⟩
  clear accepted
  induction docs generalizing columns with
  | nil =>
      cases inserted
      rfl
  | cons doc rest ih =>
      obtain ⟨here, later⟩ := List.forall_mem_cons.mp each
      rw [List.mapM_cons] at inserted
      obtain ⟨value, taken, inserted⟩ := Option.bind_eq_some_iff.mp inserted
      obtain ⟨values, takenLater, inserted⟩ := Option.bind_eq_some_iff.mp inserted
      cases inserted
      obtain rfl := givesBack _ _ taken
      simp [policiesOfJson, here, ih later values takenLater]

def ninetyYaml : String :=
  "apiVersion: wsl.io/v1\nkind: AccessPolicy\nmetadata:\n  name: developers-registry\nspec:\n"
    ++ "  subjects:\n    groups:\n      - developers\n  resources:\n    - registry\n"
    ++ "  session:\n    duration: 90m\n"

def ninetyDocument : WrittenDocument where
  apiVersion := "wsl.io/v1"
  kind := "AccessPolicy"
  metadata := ⟨"developers-registry"⟩
  spec := {
    subjects := ⟨some ["developers"], none⟩
    resources := ["registry"]
    device := none
    session := some ⟨some "90m"⟩
    action := none
  }

def ninetyPolicy : AccessPolicyDocument where
  apiVersion := "wsl.io/v1"
  kind := "AccessPolicy"
  metadata := ⟨"developers-registry"⟩
  spec := {
    subjects := ⟨["developers"], []⟩
    resources := ["registry"]
    device := .default
    session := ⟨5400⟩
    action := .default
  }

/-- A reader that reads the one text. -/
def readNinety (yaml : String) : YamlReading :=
  if yaml = ninetyYaml then .document ninetyDocument else .failed "unexpected text" none

theorem ninety_accepted : parsePolicyYaml readNinety ninetyYaml = .ok ninetyPolicy := by
  refine parsePolicyYaml_ok.mpr
    ⟨ninetyDocument, if_pos rfl, ?_, checkPolicyDocument_ok.mpr ⟨rfl, rfl, by decide⟩⟩
  exact read_ok.mpr ⟨⟨5400⟩, readSession_ok.mpr ⟨by decide +kernel, by decide⟩, rfl⟩

theorem stored_policies_same_ninety
    : (∀ doc ∈ [ninetyPolicy], policyOfJson doc.toJson = .ok doc)
      ∧ ∃ stored, policiesOfJson [ninetyPolicy.toJson] = .ok stored
        ∧ ∀ input, evaluate stored input = evaluate [ninetyPolicy] input := by
  have same := stored_policies_same readNinety some (fun _ _ taken => (Option.some.inj taken).symm)
    [ninetyPolicy] ?_
  · exact ⟨same.1, same.2 _ rfl⟩
  · intro doc member
    rw [List.mem_singleton.mp member]
    exact ⟨ninetyYaml, ninety_accepted⟩

end WslVpn
