import WslVpn.Control.Services.Accounts

/-! The endpoints that change or delete users, and the extractors that authenticate their callers. -/

namespace WslVpn

/-- Any authenticated, active user. -/
structure AuthUser where
  userId : Uuid
  email : String
  role : UserRole
  deriving DecidableEq

def AuthUser.isAdmin (user : AuthUser) : Bool := user.role == .admin

/-- The fields of a JSON object. -/
abbrev Fields := List (String × Detail)

/-- `serde_json` writes a missing value as `null`. -/
def Detail.ofOption {Value : Type} (show_ : Value → Detail) : Option Value → Detail
  | none => .null
  | some value => show_ value

/-- `text.strip_prefix(start)`. -/
def afterStart (start text : String) : Option String :=
  if start.toList <+: text.toList then some (String.ofList (text.toList.drop start.length)) else none

def requireUser (state : AppState) (authorization : Option String) : Call AuthUser := do
  let some header := authorization | throw .unauthorized
  let some token := afterStart "Bearer " header | throw .unauthorized
  let row : Option (Uuid × String × UserRole × Timestamp) ←
    query (.selectBearer (state.hashToken token))
  let some (userId, email, role, expiresAt) := row | throw .unauthorized
  let now : Timestamp ← query .utcNow
  if expiresAt < now then throw .unauthorized else return { userId, email, role }

/-- The extractor `AdminUser`. -/
def requireAdmin (state : AppState) (authorization : Option String) : Call AuthUser := do
  let user ← requireUser state authorization
  if user.isAdmin then return user else throw .forbidden

namespace UsersRoute

/-- The update of one's own account that the endpoint refuses. -/
def locksOut (admin : AuthUser) (id : Uuid) (body : UpdateUserRequest) : Bool :=
  id == admin.userId && (body.role == some .member || body.active == some false)

def update (admin : AuthUser) (id : Uuid) (body : UpdateUserRequest) : Call User := do
  if locksOut admin id body then
    throw (.badRequest "an administrator cannot demote or disable their own account")
  else
    let changes : Fields := [
      ("display_name", .ofOption .text body.displayName),
      ("active", .ofOption .flag body.active),
      ("role", .ofOption (fun role => .text role.asStr) body.role)]
    let updated ← UserService.update id body
    let some updated := updated | throw .notFound
    AuditService.record (((((AuditEntry.new "user.update").decided "allow").byUser admin.userId
      admin.email).subject updated.id).about updated.email |>.withDetails changes)
    return updated

def delete (admin : AuthUser) (id : Uuid) : Call Fields := do
  if id = admin.userId then
    throw (.badRequest "an administrator cannot delete their own account")
  else
    let target ← UserService.get id
    let some target := target | throw .notFound
    let deleted ← UserService.delete id
    if !deleted then throw .notFound
    else
      AuditService.record (((((AuditEntry.new "user.delete").decided "allow").byUser admin.userId
        admin.email).subject id).about target.email)
      return [("deleted", .flag true)]

end UsersRoute

/-- `DELETE /api/v1/ops/users/{id}`. -/
def OpsRoute.deleteUser (tokenName : String) (id : Uuid) : Call Fields := do
  let deleted ← UserService.delete id
  if !deleted then throw .notFound
  else
    AuditService.record ((((AuditEntry.new "user.delete").decided "allow").byService
      tokenName).subject id)
    return [("deleted", .flag true)]

/-- `DELETE /SCIM/v2/Users/{id}`. -/
def ScimRoute.deleteUser (id : Uuid) : Call Fields := do
  let deleted ← UserService.delete id
  if !deleted then throw .notFound else return []

end WslVpn
