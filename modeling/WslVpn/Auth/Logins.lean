import WslVpn.Auth.Provider
import WslVpn.Auth.Statements

/-! The services that find or create the user of a login, and those that provision users. -/

namespace WslVpn.Auth

inductive Provisioning where
  | jit
  | directory
  deriving DecidableEq

structure OpsApiConfig where
  url : String
  workspace : String

/-- The configuration that the sign-in reads. Hashing and lower-casing beyond ASCII come from
libraries.
-/
structure AuthConfig where
  issuer : String
  clientId : String
  redirectUri : String
  nativeSchemes : List String
  clockSkewSecs : Nat
  hostedDomains : List String
  provisioning : Provisioning
  opsapi : Option OpsApiConfig
  adminEmails : List String
  devLoginEnabled : Bool
  isLocal : Bool
  hashToken : String → String
  challengeOf : String → String
  toLowercase : String → String
  toLowercase_ascii : ∀ text, asciiLower (toLowercase text) = toLowercase text

/-- `admission.hosted_domains`, where an empty list admits everybody. -/
def AuthConfig.admits (config : AuthConfig) (hostedDomain : Option String) : Bool :=
  config.hostedDomains.isEmpty
    || hostedDomain.any (fun domain => config.hostedDomains.any (eqIgnoreAsciiCase · domain))

/-- `result?` of a computation that sends nothing. -/
def liftExcept {Value : Type} : Except AppError Value → Login Value
  | .ok value => return value
  | .error error => throw error

/-- The answer to the last statement of a sign-in: it fails unless the user is there and active. -/
def checkActive (connection : Nat) (userId : Uuid) : Login Uuid := do
  let active : Option Bool ← stmt connection (.selectActive userId)
  match active with
  | none => throw .db
  | some false => throw .unauthorized
  | some true => return userId

namespace Oidc

def link (connection : Nat) (identity : VerifiedIdentity) (userId : Uuid) : Login Unit :=
  stmt connection (.insertIdentity {
    issuer := identity.issuer
    subject := identity.subject
    userId
    email := identity.email
  })

/-- A known subject. The email may have changed at the provider. -/
def carryEmail (connection : Nat) (identity : VerifiedIdentity) (userId : Uuid) : Login Uuid := do
  let _ ← stmt connection (.updateIdentityEmail identity.issuer identity.subject identity.email)
  let _ ← stmt connection (.updateUserEmail userId identity.email)
  return userId

/-- A first login by somebody who has an account. -/
def linkExisting (connection : Nat) (identity : VerifiedIdentity) (userId : Uuid) : Login Uuid := do
  let already : Option String ← stmt connection (.selectSubject identity.issuer userId)
  match already with
  | some _ => throw .unauthorized
  | none => do
      let () ← link connection identity userId
      return userId

/-- A first login by somebody without an account. -/
def createUser (connection : Nat) (freshId : Uuid) (identity : VerifiedIdentity) : Login Uuid := do
  let userId : Uuid ← stmt connection (.insertUser {
    id := freshId
    email := identity.email
    displayName := some (identity.displayName.getD identity.email)
    externalId := none
    active := true
    role := .member
  })
  let () ← link connection identity userId
  return userId

/-- The user of an identity, as policy allows. -/
def findUser (config : AuthConfig) (connection : Nat) (freshId : Uuid) (identity : VerifiedIdentity)
    : Login Uuid := do
  let bound : Option Uuid ← stmt connection (.selectBound identity.issuer identity.subject)
  match bound with
  | some userId => carryEmail connection identity userId
  | none => do
      let existing : Option (Uuid × Bool) ← stmt connection (.selectUserByEmail identity.email)
      match existing with
      | some (userId, _) => linkExisting connection identity userId
      | none =>
          if config.provisioning = .directory then throw .unauthorized
          else createUser connection freshId identity

def resolveUser (config : AuthConfig) (connection : Nat) (freshId : Uuid)
    (identity : VerifiedIdentity)
    : Login Uuid :=
  if !config.admits identity.hostedDomain then throw .unauthorized
  else
    inTransaction connection do
      let userId ← findUser config connection freshId identity
      checkActive connection userId

/-- Problems with the provider are this deployment's fault, and all others the caller's. -/
def reject : OidcError → AppError
  | .discovery _ | .issuerMismatch .. => .internal
  | _ => .unauthorized

/-- A token with the keys that the provider publishes and the nonce that it has to answer. -/
structure Presented where
  token : String
  jwks : List Jwk
  nonce : Option String

def verify (jwt : Jwt) (config : AuthConfig) (presented : Presented)
    : Except AppError VerifiedIdentity :=
  (verifyIdToken jwt presented.token presented.jwks config.issuer config.clientId presented.nonce
    config.clockSkewSecs).mapError reject

/-- The part of the callback that turns a token into a user. -/
def signIn (jwt : Jwt) (config : AuthConfig) (connection : Nat) (freshId : Uuid)
    (presented : Presented) : Login (VerifiedIdentity × Uuid) := do
  let identity ← liftExcept (verify jwt config presented)
  let userId ← resolveUser config connection freshId identity
  return (identity, userId)

end Oidc

/-- Who OpsAPI says a session belongs to. -/
structure OpsApiPerson where
  uuid : String
  email : String
  displayName : Option String
  deriving DecidableEq

namespace OpsApi

/-- `config.url.trim_end_matches('/')`. -/
def baseUrl (ops : OpsApiConfig) : String := String.ofList (ops.url.toList.rdropWhile (· == '/'))

def issuer (ops : OpsApiConfig) : String := "opsapi:" ++ baseUrl ops

/-- A user that OpsAPI provisioned under the uuid, or a new one. An email is never linked on. -/
def provisionedUser (config : AuthConfig) (connection : Nat) (freshId : Uuid)
    (person : OpsApiPerson)
    : Login Uuid := do
  let provisioned : Option Uuid ← stmt connection (.selectUserByExternalId person.uuid)
  match provisioned with
  | some id => return id
  | none => do
      let taken : Option Uuid ← stmt connection (.selectUserByLowerEmail person.email)
      if taken.isSome then throw .unauthorized
      else if config.provisioning = .directory then throw .unauthorized
      else
        stmt connection (.insertUser {
          id := freshId
          email := person.email
          displayName := some (person.displayName.getD person.email)
          externalId := some person.uuid
          active := true
          role := .member
        })

def findUser (config : AuthConfig) (ops : OpsApiConfig) (connection : Nat) (freshId : Uuid)
    (person : OpsApiPerson) : Login Uuid := do
  let bound : Option Uuid ← stmt connection (.selectBound (issuer ops) person.uuid)
  match bound with
  | some userId => do
      let _ ← stmt connection (.updateIdentityEmail (issuer ops) person.uuid person.email)
      return userId
  | none => do
      let userId ← provisionedUser config connection freshId person
      let () ← stmt connection (.insertIdentity {
        issuer := issuer ops
        subject := person.uuid
        userId
        email := person.email
      })
      return userId

def resolveUser (config : AuthConfig) (ops : OpsApiConfig) (connection : Nat) (freshId : Uuid)
    (person : OpsApiPerson) : Login Uuid :=
  inTransaction connection do
    let userId ← findUser config ops connection freshId person
    checkActive connection userId

end OpsApi

namespace UserService

/-- `e.is_unique_violation()` tells the conflict on the external id. -/
def createError : DbError → AppError
  | .uniqueViolation => .conflict "that external_id already belongs to another user"
  | _ => .db

/-- Create a user, or give the one with this email an external id. -/
def create (freshId : Uuid) (request : CreateUserRequest) : Login User := do
  let row : Option User ←
    @Interleaving.Program.request AuthDb DbError AppError authSql createError
      (.auto (.upsertUser freshId request))
  let some user := row | throw (.conflict "a user with that email already exists")
  return user

/-- Disabling an account also ends its sessions. -/
def update (id : Uuid) (request : UpdateUserRequest) : Login (Option User) := do
  let row : Option User ← send (.auto (.updateUser id request))
  if request.active = some false then
    let () ← send (.revokeUserSessions id)
    return row
  else return row

def delete (id : Uuid) : Login Bool := do
  let () ← send (.revokeUserSessions id)
  let affected : Nat ← send (.auto (.deleteUser id))
  return decide (0 < affected)

end UserService

def mintAccessToken (config : AuthConfig) (secret : String) (userId : Uuid)
    : Login (String × Int) := do
  let expiresIn : Int := 8 * 3600
  let now : Timestamp ← send .utcNow
  let () ← send (.ticket (.insertAccessToken {
    userId
    tokenHash := config.hashToken secret
    expiresAt := now + seconds expiresIn
  }))
  return (secret, expiresIn)

structure TokenResponse where
  accessToken : String
  tokenType : String
  expiresIn : Int
  userId : Uuid
  email : String
  deriving DecidableEq

namespace OpsApi

structure MeUser where
  uuid : String
  email : String
  active : Option Bool
  firstName : Option String
  lastName : Option String

structure MeNamespace where
  slug : String
  memberStatus : Option String
  status : Option String

structure MeResponse where
  user : MeUser
  namespaces : List MeNamespace

structure ScimUser where
  email : Option String
  active : Option Bool

/-- A status with its text. -/
structure StatusCode where
  code : Nat
  text : String

/-- What comes of a request to OpsAPI. A body that cannot be read counts as unreachable. -/
inductive Answered (Body : Type) where
  | unreachable (message : String)
  | answered (status : StatusCode) (body : Except String Body)

def unreachable {Value : Type} (message : String) : Except AppError Value :=
  .error (.unavailable ("OpsAPI could not be reached: " ++ message))

def isSuccess (status : StatusCode) : Bool := 200 ≤ status.code && status.code < 300

/-- An active member of the workspace, where a status that is not told counts as active. -/
def isMember (workspace : String) (entry : MeNamespace) : Bool :=
  eqIgnoreAsciiCase entry.slug workspace && entry.memberStatus.all (· == "active")
    && entry.status.all (· == "active")

/-- The person of a session, with the address trimmed and in lower case. -/
def personOf (user : MeUser) : OpsApiPerson :=
  let parts := ([user.firstName, user.lastName].filterMap id).filter (fun part => trimmed part ≠ "")
  let name := String.intercalate " " parts
  { uuid := user.uuid
    email := asciiLower (trimmed user.email)
    displayName := if name = "" then none else some name }

/-- Step 1: whose session it is, and whether they are a member. -/
def whoseSession (workspace : String) : Answered MeResponse → Except AppError OpsApiPerson
  | .unreachable message => unreachable message
  | .answered status body =>
      if status.code = 401 ∨ status.code = 403 then .error .unauthorized
      else if !isSuccess status then
        .error (.unavailable ("OpsAPI /auth/me answered " ++ status.text))
      else
        match body with
        | .error message => unreachable message
        | .ok me =>
            if me.user.active = some false then .error .unauthorized
            else if !me.namespaces.any (isMember workspace) then .error .unauthorized
            else .ok (personOf me.user)

inductive DirectoryAnswer where
  | active (email : Option String)
  | inactive
  | unknown
  deriving DecidableEq

def isHex (char : Char) : Bool :=
  char.isDigit || ('a' ≤ char.toLower && char.toLower ≤ 'f')

/-- The digits of a uuid in groups. -/
def isHyphenated (text : List Char) : Bool :=
  text.length == 36
    && text.zipIdx.all
      (fun (char, place) => if [8, 13, 18, 23].contains place then char == '-' else isHex char)

/-- `Uuid::parse_str` accepts the text: digits alone, or in groups, which braces may stand around or a
URN before.
-/
def isUuid (text : String) : Bool :=
  let chars := text.toList
  (chars.length == 32 && chars.all isHex)
    || isHyphenated chars
    || (chars.head? == some '{' && chars.getLast? == some '}'
      && isHyphenated (chars.drop 1).dropLast)
    || ("urn:uuid:".toList.isPrefixOf chars && isHyphenated (chars.drop 9))

/-- Step 2: what the directory says about the person. -/
def directoryLookup (uuid : String) : Answered ScimUser → Except AppError DirectoryAnswer
  | answer =>
      if !isUuid uuid then .error (.unavailable "OpsAPI user id is not a uuid")
      else
        match answer with
        | .unreachable message => unreachable message
        | .answered status body =>
            if status.code = 404 then .ok .unknown
            else if !isSuccess status then
              .error (.unavailable
                ("OpsAPI SCIM answered " ++ status.text ++ "; check identity.opsapi.api_key"))
            else
              match body with
              | .error message => unreachable message
              | .ok user =>
                  if user.active = some true then .ok (.active user.email) else .ok .inactive

/-- The directory confirms an active person with the same address. -/
def confirmed (person : OpsApiPerson) : DirectoryAnswer → Bool
  | .active email => email.all (fun email => eqIgnoreAsciiCase (trimmed email) person.email)
  | .inactive | .unknown => false

/-- Trade an OpsAPI session for an access token. -/
def exchange (config : AuthConfig) (connection : Nat) (freshId : Uuid) (secret : String)
    (me : Answered MeResponse) (scim : Answered ScimUser) : Login TokenResponse := do
  let some ops := config.opsapi | throw .notFound
  let person ← liftExcept (whoseSession ops.workspace me)
  let answer ← liftExcept (directoryLookup person.uuid scim)
  if !confirmed person answer then throw .unauthorized
  else
    let userId ← resolveUser config ops connection freshId person
    let (accessToken, expiresIn) ← mintAccessToken config secret userId
    return { accessToken, tokenType := "Bearer", expiresIn, userId, email := person.email }

end OpsApi

/-- Find or create a user by email alone: there is no provider, and so no subject to bind to. -/
def devUpsertUser (freshId : Uuid) (email : String) : Login Uuid := do
  let email := asciiLower (trimmed email)
  let existing : Option (Uuid × Bool) ← send (.auto (.selectUserByEmail email))
  match existing with
  | some (id, active) => if active then return id else throw .unauthorized
  | none =>
      send (.auto (.insertUser {
        id := freshId
        email
        displayName := some email
        externalId := none
        active := true
        role := .member
      }))

def devLogin (config : AuthConfig) (freshId : Uuid) (secret : String) (email : String)
    : Login TokenResponse := do
  if !config.devLoginEnabled || !config.isLocal then throw .forbidden
  else
    let userId ← devUpsertUser freshId email
    let () ← send (.joinDevelopers userId)
    let (accessToken, expiresIn) ← mintAccessToken config secret userId
    return { accessToken, tokenType := "Bearer", expiresIn, userId, email }

/-- Create any listed address that has never signed in, and make each of them an administrator. -/
def grantAdmins (freshId : String → Uuid) : List String → Login Unit
  | [] => return ()
  | email :: rest => do
      let () ← send (.auto (.upsertAdmin (freshId email) email))
      grantAdmins freshId rest

/-- Runs on every start: the configured addresses say who is an administrator. -/
def reconcileAdmins (config : AuthConfig) (freshId : String → Uuid) : Login Unit := do
  let emails :=
    (config.adminEmails.map (fun email => config.toLowercase (trimmed email))).filter (· ≠ "")
  if emails = [] then
    let _ ← send (.auto .countAdmins)
    return ()
  else
    grantAdmins freshId emails
    let _ ← send (.auto (.demoteOthers emails))
    return ()

end WslVpn.Auth
