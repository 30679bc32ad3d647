import WslVpn.Control.PolicyJson
import WslVpn.Control.Routes

/-! `PATCH /SCIM/v2/Users/{id}`, which a directory changes users with. -/

namespace WslVpn

structure PatchOp where
  op : String
  path : Option String
  value : Option Json

structure ScimEmail where
  value : String
  primary : Bool

structure ScimUser where
  schemas : List String
  id : Uuid
  userName : String
  displayName : Option String
  active : Bool
  emails : List ScimEmail

def toScimUser (user : User) : ScimUser where
  schemas := ["urn:ietf:params:scim:schemas:core:2.0:User"]
  id := user.id
  userName := user.email
  displayName := user.displayName
  active := user.active
  emails := [⟨user.email, true⟩]

/-- `value.as_object()`. -/
def Json.asObject : Json → Option (List (String × Json))
  | .object members => some members
  | _ => none

/-- What `patch_user` gathers from the operations. -/
structure PatchedFields where
  active : Option Bool
  displayName : Option String

namespace ScimRoute

section Patch

variable (toLowercase : String → String)

/-- The body of the loop over the operations. -/
def gather (fields : PatchedFields) (op : PatchOp) : PatchedFields :=
  if toLowercase op.op = "replace" then
    if op.path = some "active" then { fields with active := op.value.bind Json.readBool }
    else if op.path = some "displayName" then
      { fields with displayName := op.value.bind Json.readString }
    else
      match op.value.bind Json.asObject with
      | some members =>
          match (Json.lookup "active" members).bind Json.readBool with
          | some active => { fields with active := some active }
          | none => fields
      | none => fields
  else fields

/-- Roles are never taken from the directory. -/
def patchRequest (operations : List PatchOp) : UpdateUserRequest :=
  let fields := operations.foldl (gather toLowercase) ⟨none, none⟩
  { displayName := fields.displayName, active := fields.active, role := none }

def patchUser (id : Uuid) (operations : List PatchOp) : Call ScimUser := do
  let row ← UserService.update id (patchRequest toLowercase operations)
  let some user := row | throw .notFound
  return toScimUser user

end Patch

end ScimRoute

end WslVpn
