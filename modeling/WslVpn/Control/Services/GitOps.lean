import WslVpn.Control.Services.Basic

/-! Applying a directory of declarations: groups, networks with their services and routes, and
policies. Reading files and parsing YAML is the library's business; a file is given by what
reading and parsing it yields.
-/

namespace WslVpn

open AddressSpace

/-- `serde_yaml::Value`. -/
inductive Yaml where
  | null
  | bool (value : Bool)
  | int (value : Int)
  | float
  | string (value : String)
  | sequence (items : List Yaml)
  | mapping (entries : List (Yaml × Yaml))
  | tagged (tag : String) (value : Yaml)

namespace Yaml

def untag : Yaml → Yaml
  | .tagged _ value => value.untag
  | value => value

def get? (value : Yaml) (key : String) : Option Yaml :=
  match value.untag with
  | .mapping entries =>
      (entries.find? (fun entry => match entry.1 with
        | .string name => name == key
        | _ => false)).map (·.2)
  | _ => none

def asStr? (value : Yaml) : Option String :=
  match value.untag with
  | .string text => some text
  | _ => none

def asI64? (value : Yaml) : Option Int :=
  match value.untag with
  | .int number => if -(2 ^ 63) ≤ number ∧ number < 2 ^ 63 then some number else none
  | _ => none

def asSequence? (value : Yaml) : Option (List Yaml) :=
  match value.untag with
  | .sequence items => some items
  | _ => none

def str? (value : Yaml) (key : String) : Option String := (value.get? key).bind asStr?

/-- `.get(key).and_then(as_sequence)`, an absent one being empty. -/
def strings (value : Option Yaml) (key : String) : List String :=
  (((value.bind (·.get? key)).bind asSequence?).getD []).filterMap asStr?

end Yaml

/-- `n as i32` of an `i64`: the low 32 bits as a signed number. -/
def asI32 (number : Int) : Int := number.bmod (2 ^ 32)

/-- What reading a file yields: an error, or the outcome of parsing its text. -/
inductive FileContent (Document : Type) where
  | unreadable
  | malformed (message : String)
  | parsed (document : Document)

/-- An entry of a listed directory. `freshId` is the identifier that a row made from it gets. -/
structure DirEntry (Document : Type) where
  path : String
  extension : Option String
  content : FileContent Document
  freshId : Uuid

/-- A directory that exists: `read_dir` fails, or yields entries that may be errors. -/
inductive Listing (Document : Type) where
  | unreadable
  | entries (entries : List (Option (DirEntry Document)))

/-- The three subdirectories, where they exist. -/
structure GitOpsDirectory where
  policiesPath : String
  policies : Option (Listing AccessPolicyDocument)
  groups : Option (Listing Yaml)
  networks : Option (Listing Yaml)

/-- Run the loop body on every `.yaml` entry in turn. The first error ends the loop. -/
def forYaml {Document : Type} (describe : String → String)
    (body : DirEntry Document → Document → Call Unit)
    : List (Option (DirEntry Document)) → Call Nat
  | [] => return 0
  | none :: _ => throw .internal
  | some entry :: rest =>
      if entry.extension ≠ some "yaml" then forYaml describe body rest
      else
        match entry.content with
        | .unreadable => throw .internal
        | .malformed message => throw (.badRequest (describe message))
        | .parsed document => do
            let () ← body entry document
            let count ← forYaml describe body rest
            return count + 1

/-- A missing directory is skipped. -/
def forDirectory {Document : Type} (describe : String → String)
    (body : DirEntry Document → Document → Call Unit)
    : Option (Listing Document) → Call Nat
  | none => return 0
  | some .unreadable => throw .internal
  | some (.entries entries) => forYaml describe body entries

/-- `parse_policy_yaml` behind the deserialisation. -/
def checkPolicyDocument (doc : AccessPolicyDocument) : Except String AccessPolicyDocument :=
  if doc.apiVersion ≠ "wsl.io/v1" then
    .error ("invalid policy document: unsupported apiVersion: " ++ doc.apiVersion)
  else if doc.kind ≠ "AccessPolicy" then
    .error ("invalid policy document: unsupported kind: " ++ doc.kind)
  else if doc.metadata.name.isEmpty then
    .error "invalid policy document: metadata.name required"
  else .ok doc

namespace GitOpsService

def applyGroup (entry : DirEntry Yaml) (v : Yaml) : Call Unit :=
  match v.str? "name" with
  | none => return ()
  | some name => do
      let _ ← GroupService.create entry.freshId name (v.str? "description")
      return ()

/-- The stored network of that name, or a new one. -/
def ensureNetwork (entry : DirEntry Yaml) (v : Yaml) (name cidr : String) : Call Uuid := do
  let existing ← NetworkService.getByName name
  match existing with
  | some network => return network.id
  | none => do
      let network ← NetworkService.create entry.freshId {
        name
        cidr
        dnsServers := Yaml.strings (v.get? "dns") "servers"
        dnsDomains := Yaml.strings (v.get? "dns") "domains"
      }
      return network.id

/-- The ports that are integers, each cut to 32 bits. -/
def servicePorts (service : Yaml) : List Int :=
  (((service.get? "ports").bind Yaml.asSequence?).getD []).filterMap
    (fun port => port.asI64?.map asI32)

def applyServices (networkId : Uuid) : List Yaml → Call Unit
  | [] => return ()
  | service :: rest =>
      match service.str? "name", service.str? "destination" with
      | some name, some dest => do
          let ports := servicePorts service
          if ports.isEmpty then
            throw (.badRequest ("service " ++ name ++ " requires at least one port"))
          else
            let () ← query (.upsertService networkId name dest
              ((service.str? "protocol").getD "tcp") ports (service.str? "description"))
            applyServices networkId rest
      | _, _ => throw (.badRequest "service requires name and destination")

/-- A route without a destination is skipped. -/
def applyRoutes (networkId : Uuid) : List Yaml → Call Unit
  | [] => return ()
  | route :: rest =>
      match route.str? "destination" with
      | none => applyRoutes networkId rest
      | some dest => do
          let () ← query (.insertRoute networkId dest (route.str? "description"))
          applyRoutes networkId rest

def applyNetwork (entry : DirEntry Yaml) (v : Yaml) : Call Unit :=
  match v.str? "name" with
  | none => throw (.badRequest "network name required")
  | some name =>
      match v.str? "cidr" with
      | none => throw (.badRequest "network cidr required")
      | some cidr => do
          let networkId ← ensureNetwork entry v name cidr
          let () ← applyServices networkId (((v.get? "services").bind Yaml.asSequence?).getD [])
          applyRoutes networkId (((v.get? "routes").bind Yaml.asSequence?).getD [])

/-- The policy row, its next version and the pointer to that version. -/
def applyPolicyYaml (freshId : Uuid) (document : AccessPolicyDocument)
    (gitCommit : Option String) : Call PolicyVersionRow :=
  match checkPolicyDocument document with
  | .error message => throw (.badRequest message)
  | .ok doc => do
      let policyId : Uuid ← query (.upsertPolicy freshId doc.metadata.name gitCommit)
      let version : Int ← query (.selectNextPolicyVersion policyId)
      let row : PolicyVersionRow ←
        query (.insertPolicyVersion { policyId, version, document := doc, gitCommit })
      let _ ← query (.updatePolicyVersion policyId version gitCommit)
      return row

def applyPolicyFile (gitCommit : Option String) (entry : DirEntry AccessPolicyDocument)
    (document : AccessPolicyDocument) : Call Unit := do
  let _ ← applyPolicyYaml entry.freshId document gitCommit
  query (.insertGitRevision {
    commitSha := gitCommit.getD "local"
    path := entry.path
    status := "applied"
  })

/-- The number of policies applied. -/
def applyDirectory (directory : GitOpsDirectory) (gitCommit : Option String) : Call Nat :=
  match directory.policies with
  | none =>
      throw (.badRequest ("policies directory not found: " ++ directory.policiesPath))
  | some policies => do
      let _ ← forDirectory id applyGroup directory.groups
      let _ ← forDirectory id applyNetwork directory.networks
      forDirectory ("yaml parse error: " ++ ·) (applyPolicyFile gitCommit) (some policies)

end GitOpsService

end WslVpn
