import Mathlib.Data.List.Sort
import WslVpn.Records.Unique
import WslVpn.Control.PolicyDocument

/-! Policy documents as the JSON that the database keeps them in. -/

namespace WslVpn

open Records

/-- A JSON value. The members of an object are in the order of their names. -/
inductive Json where
  | null
  | bool (value : Bool)
  | number (value : Int)
  | string (value : String)
  | array (items : List Json)
  | object (members : List (String × Json))

namespace Json

def ofMembers (members : List (String × Json)) : Json :=
  .object (members.insertionSort (fun first second => first.1 ≤ second.1))

def lookup (name : String) (members : List (String × Json)) : Option Json :=
  (members.find? (·.1 == name)).map Prod.snd

/-- The fields of a struct, which may also come as an array of them. -/
def struct (names : List String) : Json → Option (String → Option Json)
  | object members => some (fun name => lookup name members)
  | array items =>
      if items.length ≤ names.length then some (fun name => items[names.idxOf name]?) else none
  | _ => none

def readBool : Json → Option Bool
  | bool value => some value
  | _ => none

def readString : Json → Option String
  | string value => some value
  | _ => none

def readStrings : Json → Option (List String)
  | array items => items.mapM readString
  | _ => none

/-- `Option<T>` -/
def readNullable {Value : Type} (read : Json → Option Value) : Json → Option (Option Value)
  | null => some none
  | json => (read json).map some

/-- A field with a default. -/
def readDefaulted {Value : Type} (read : Json → Option Value) : Option Json → Option (Option Value)
  | none => some none
  | some json => (read json).map some

def ofStrings (values : List String) : Json := .array (values.map .string)

def ofNullable : Option Bool → Json
  | none => null
  | some value => bool value

/-- The order of the members does not matter to who looks for one of them. -/
theorem lookup_sorted {members : List (String × Json)} (distinct : Unique Prod.fst members)
    (name : String)
    : lookup name (members.insertionSort (fun first second => first.1 ≤ second.1))
      = lookup name members := by
  have perm :=
    List.perm_insertionSort (fun first second : String × Json => first.1 ≤ second.1) members
  have sorted : Unique Prod.fst (members.insertionSort (fun first second => first.1 ≤ second.1)) :=
    (perm.map Prod.fst).nodup_iff.mpr distinct
  unfold lookup
  cases found : members.find? (·.1 == name) with
  | none =>
      have none := List.find?_eq_none.mp found
      rw [List.find?_eq_none.mpr (fun member there => none member (perm.mem_iff.mp there))]
  | some member =>
      have named : member.1 = name := by simpa using List.find?_some found
      have there := perm.mem_iff.mpr (List.mem_of_find?_eq_some found)
      rw [← named, sorted.find? there]

theorem readStrings_ofStrings (values : List String)
    : readStrings (ofStrings values) = some values := by
  rw [ofStrings, readStrings]
  induction values with
  | nil => rfl
  | cons value rest ih => simp [readString, ih]

theorem readNullable_ofNullable (value : Option Bool)
    : readNullable readBool (ofNullable value) = some value := by
  cases value <;> rfl

end Json

open Json

-----------------------------------------------------------------------------------------
-- Writing
-----------------------------------------------------------------------------------------

def PolicySubjects.toJson (subjects : PolicySubjects) : Json :=
  ofMembers [("groups", ofStrings subjects.groups), ("users", ofStrings subjects.users)]

def DeviceRequirements.toJson (device : DeviceRequirements) : Json :=
  ofMembers [
    ("managed", ofNullable device.managed),
    ("compliant", ofNullable device.compliant),
    ("requiredSignals", ofStrings device.requiredSignals)
  ]

def SessionRequirements.toJson (session : SessionRequirements) : Json :=
  ofMembers [("duration", .string (String.ofList (renderDuration session.duration)))]

def PolicyAction.toJson (action : PolicyAction)
    : Json := ofMembers [("connect", .bool action.connect)]

def AccessPolicySpec.toJson (spec : AccessPolicySpec) : Json :=
  ofMembers [
    ("subjects", spec.subjects.toJson),
    ("resources", ofStrings spec.resources),
    ("device", spec.device.toJson),
    ("session", spec.session.toJson),
    ("action", spec.action.toJson)
  ]

/-- `serde_json::to_value` -/
def AccessPolicyDocument.toJson (doc : AccessPolicyDocument) : Json :=
  ofMembers [
    ("apiVersion", .string doc.apiVersion),
    ("kind", .string doc.kind),
    ("metadata", ofMembers [("name", .string doc.metadata.name)]),
    ("spec", doc.spec.toJson)
  ]

-----------------------------------------------------------------------------------------
-- Reading
-----------------------------------------------------------------------------------------

def WrittenSubjects.ofJson (json : Json) : Option WrittenSubjects := do
  let field ← json.struct ["groups", "users"]
  return {
    groups := ← readDefaulted readStrings (field "groups")
    users := ← readDefaulted readStrings (field "users")
  }

def WrittenDevice.ofJson (json : Json) : Option WrittenDevice := do
  let field ← json.struct ["managed", "compliant", "requiredSignals"]
  return {
    managed := ← readDefaulted (readNullable readBool) (field "managed")
    compliant := ← readDefaulted (readNullable readBool) (field "compliant")
    requiredSignals := ← readDefaulted readStrings (field "requiredSignals")
  }

def WrittenSession.ofJson (json : Json) : Option WrittenSession := do
  let field ← json.struct ["duration"]
  return { duration := ← readDefaulted readString (field "duration") }

def WrittenAction.ofJson (json : Json) : Option WrittenAction := do
  let field ← json.struct ["connect"]
  return { connect := ← readDefaulted readBool (field "connect") }

def WrittenSpec.ofJson (json : Json) : Option WrittenSpec := do
  let field ← json.struct ["subjects", "resources", "device", "session", "action"]
  return {
    subjects := ← (field "subjects").bind WrittenSubjects.ofJson
    resources := ← (field "resources").bind readStrings
    device := ← readDefaulted WrittenDevice.ofJson (field "device")
    session := ← readDefaulted WrittenSession.ofJson (field "session")
    action := ← readDefaulted WrittenAction.ofJson (field "action")
  }

def readMetadata (json : Json) : Option PolicyMetadata := do
  let field ← json.struct ["name"]
  return { name := ← (field "name").bind readString }

def WrittenDocument.ofJson (json : Json) : Option WrittenDocument := do
  let field ← json.struct ["apiVersion", "kind", "metadata", "spec"]
  return {
    apiVersion := ← (field "apiVersion").bind readString
    kind := ← (field "kind").bind readString
    metadata := ← (field "metadata").bind readMetadata
    spec := ← (field "spec").bind WrittenSpec.ofJson
  }

inductive JsonError where
  | shape
  | duration (error : DurationError)

/-- `serde_json::from_value` -/
def policyOfJson (json : Json) : Attempt JsonError AccessPolicyDocument :=
  match WrittenDocument.ofJson json with
  | none => .error .shape
  | some written => written.read.mapError .duration

/-- The documents of the rows that `load_active_policies` reads. The first error ends the loop. -/
def policiesOfJson : List Json → Attempt JsonError (List AccessPolicyDocument)
  | [] => .ok []
  | json :: rest => (policyOfJson json).bind fun doc => (policiesOfJson rest).map fun docs => doc :: docs

end WslVpn
