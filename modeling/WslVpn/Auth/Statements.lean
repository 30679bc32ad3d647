import WslVpn.Auth.Tables
import WslVpn.Interleaving.Paths

/-! What the sign-in services ask of the database. A transaction runs at READ COMMITTED: each of its
statements sees what is committed by then and what the transaction has written itself.
-/

namespace WslVpn.Auth

open Transactions.Locking

structure CreateUserRequest where
  email : String
  displayName : Option String
  externalId : Option String
  active : Bool

/-- A row of `oidc_auth_states`. -/
structure AuthStateRow where
  state : String
  codeVerifier : String
  redirectUri : String
  clientRedirectUri : Option String
  clientChallenge : Option String
  nonce : Option String
  expiresAt : Timestamp
  deriving DecidableEq

/-- A row of `oidc_cli_exchanges`. -/
structure ExchangeRow where
  codeHash : String
  challenge : String
  userId : Uuid
  email : String
  expiresAt : Timestamp
  deriving DecidableEq

/-- The tables of the sign-in, with the database's clock and its `lower`, which depends on the
locale.
-/
structure AuthDb where
  now : Timestamp
  lower : String → String
  accounts : Shared Accounts Write
  authStates : List AuthStateRow
  cliExchanges : List ExchangeRow
  accessTokens : List AccessTokenRow

/-- Statements on users and their bindings. The ids of new rows are drawn by the database. -/
inductive Statement where
  | selectBound (issuer subject : String)
  | updateIdentityEmail (issuer subject email : String)
  | updateUserEmail (id : Uuid) (email : String)
  | selectUserByEmail (email : String)
  | selectSubject (issuer : String) (userId : Uuid)
  | selectUserByExternalId (externalId : String)
  | selectUserByLowerEmail (email : String)
  | insertUser (row : UserRow)
  | insertIdentity (row : IdentityRow)
  | selectActive (id : Uuid)
  | upsertUser (freshId : Uuid) (request : CreateUserRequest)
  | updateUser (id : Uuid) (request : UpdateUserRequest)
  | deleteUser (id : Uuid)
  | countAdmins
  | upsertAdmin (freshId : Uuid) (email : String)
  | demoteOthers (emails : List String)

@[reducible] def Statement.Reply : Statement → Type
  | .selectBound .. => Option Uuid
  | .updateIdentityEmail .. => Nat
  | .updateUserEmail .. => Nat
  | .selectUserByEmail _ => Option (Uuid × Bool)
  | .selectSubject .. => Option String
  | .selectUserByExternalId _ => Option Uuid
  | .selectUserByLowerEmail _ => Option Uuid
  | .insertUser _ => Uuid
  | .insertIdentity _ => Unit
  | .selectActive _ => Option Bool
  | .upsertUser .. => Option User
  | .updateUser .. => Option User
  | .deleteUser _ => Nat
  | .countAdmins => Nat
  | .upsertAdmin .. => Unit
  | .demoteOthers _ => Nat

namespace Accounts

variable (tables : Accounts)

def findUser (id : Uuid) : Option UserRow := tables.users.find? (·.id == id)

def findByEmail (email : String) : Option UserRow := tables.users.find? (·.email == email)

def findIdentity (issuer subject : String) : Option IdentityRow :=
  tables.identities.find? (fun row => row.issuer == issuer && row.subject == subject)

end Accounts

/-- The row as the API shows it. -/
def ofUserRow (row : UserRow) : User where
  id := row.id
  email := row.email
  displayName := row.displayName
  externalId := row.externalId
  active := row.active
  role := row.role

/-- `COALESCE` keeps what the request does not set. -/
def updated (request : UpdateUserRequest) (row : UserRow) : UserRow := {
  row with
  displayName := request.displayName.or row.displayName
  active := request.active.getD row.active
  role := request.role.getD row.role
}

/-- `ON CONFLICT (email) DO UPDATE SET external_id`: an external id is only given to a user who has
none, or this one.
-/
def claims (request : CreateUserRequest) (stored : UserRow) : Bool :=
  request.externalId.isSome
    && (stored.externalId.isNone || stored.externalId == request.externalId)

/-- The row of a new user. -/
def newUser (freshId : Uuid) (request : CreateUserRequest) : UserRow where
  id := freshId
  email := request.email
  displayName := request.displayName
  externalId := request.externalId
  active := request.active
  role := .member

def newAdmin (freshId : Uuid) (email : String) : UserRow where
  id := freshId
  email
  displayName := none
  externalId := none
  active := true
  role := .admin

/-- What a statement answers and what it writes, from the rows that it sees. -/
def Statement.plan (lower : String → String)
    : (statement : Statement) → Accounts → Except DbError (statement.Reply × List Write)
  | .selectBound issuer subject, tables =>
      .ok ((tables.findIdentity issuer subject).map (·.userId), [])
  | .updateIdentityEmail issuer subject email, tables =>
      match tables.findIdentity issuer subject with
      | none => .ok (0, [])
      | some row => .ok (1, [.identity { row with email }])
  | .updateUserEmail id email, tables =>
      match tables.findUser id with
      | none => .ok (0, [])
      | some row => .ok (1, [.user { row with email }])
  | .selectUserByEmail email, tables =>
      .ok ((tables.findByEmail email).map (fun row => (row.id, row.active)), [])
  | .selectSubject issuer userId, tables =>
      .ok ((tables.identities.find? (fun row => row.issuer == issuer && row.userId == userId)).map
        (·.subject), [])
  | .selectUserByExternalId externalId, tables =>
      .ok ((tables.users.find? (·.externalId == some externalId)).map (·.id), [])
  | .selectUserByLowerEmail email, tables =>
      .ok ((tables.users.find? (fun row => lower row.email == email)).map (·.id), [])
  | .insertUser row, tables =>
      if tables.hasUser row.id then .error .uniqueViolation else .ok (row.id, [.user row])
  | .insertIdentity row, tables =>
      match tables.findIdentity row.issuer row.subject with
      | some _ => .error .uniqueViolation
      | none => .ok ((), [.identity row])
  | .selectActive id, tables => .ok ((tables.findUser id).map (·.active), [])
  | .upsertUser freshId request, tables =>
      match tables.findByEmail request.email with
      | some stored =>
          if claims request stored then
            let row := { stored with externalId := request.externalId }
            .ok (some (ofUserRow row), [.user row])
          else .ok (none, [])
      | none =>
          if tables.hasUser freshId then .error .uniqueViolation
          else
            let row := newUser freshId request
            .ok (some (ofUserRow row), [.user row])
  | .updateUser id request, tables =>
      match tables.findUser id with
      | none => .ok (none, [])
      | some row => .ok (some (ofUserRow (updated request row)), [.user (updated request row)])
  | .deleteUser id, tables =>
      match tables.findUser id with
      | none => .ok (0, [])
      | some _ => .ok (1, [.deleteUser id])
  | .countAdmins, tables => .ok (tables.users.countP (·.role == .admin), [])
  | .upsertAdmin freshId email, tables =>
      match tables.findByEmail email with
      | some stored => .ok ((), [.user { stored with role := .admin }])
      | none =>
          if tables.hasUser freshId then .error .uniqueViolation
          else .ok ((), [.user (newAdmin freshId email)])
  | .demoteOthers emails, tables =>
      let demoted :=
        tables.users.filter (fun row => row.role == .admin && !emails.contains (lower row.email))
      .ok (demoted.length, demoted.map (fun row => .user { row with role := .member }))

/-- Statements on the short-lived rows of a login. -/
inductive TicketStatement where
  | insertAuthState (row : AuthStateRow)
  | takeAuthState (state : String)
  | insertExchange (row : ExchangeRow)
  | takeExchange (codeHash : String)
  | insertAccessToken (row : AccessTokenRow)

@[reducible] def TicketStatement.Reply : TicketStatement → Type
  | .insertAuthState _ => Unit
  | .takeAuthState _ => Option AuthStateRow
  | .insertExchange _ => Unit
  | .takeExchange _ => Option ExchangeRow
  | .insertAccessToken _ => Unit

namespace AuthDb

def insertAuthState (db : AuthDb) (row : AuthStateRow) : Except DbError (Unit × AuthDb) :=
  if db.authStates.any (·.state == row.state) then .error .uniqueViolation
  else .ok ((), { db with authStates := db.authStates ++ [row] })

/-- `DELETE ... RETURNING` takes the row out in one step. An expired row stays. -/
def takeAuthState (db : AuthDb) (state : String) : Option AuthStateRow × AuthDb :=
  let live (row : AuthStateRow) : Bool := row.state == state && db.now < row.expiresAt
  (db.authStates.find? live, { db with authStates := deleteWhere live db.authStates })

def insertExchange (db : AuthDb) (row : ExchangeRow) : Except DbError (Unit × AuthDb) :=
  if db.cliExchanges.any (·.codeHash == row.codeHash) then .error .uniqueViolation
  else if !db.accounts.committed.hasUser row.userId then .error .foreignKeyViolation
  else .ok ((), { db with cliExchanges := db.cliExchanges ++ [row] })

def takeExchange (db : AuthDb) (codeHash : String) : Option ExchangeRow × AuthDb :=
  let live (row : ExchangeRow) : Bool := row.codeHash == codeHash && db.now < row.expiresAt
  (db.cliExchanges.find? live, { db with cliExchanges := deleteWhere live db.cliExchanges })

def insertAccessToken (db : AuthDb) (row : AccessTokenRow) : Except DbError (Unit × AuthDb) :=
  if db.accessTokens.any (·.tokenHash == row.tokenHash) then .error .uniqueViolation
  else if !db.accounts.committed.hasUser row.userId then .error .foreignKeyViolation
  else .ok ((), { db with accessTokens := db.accessTokens ++ [row] })

/-- What refers to a deleted user goes with the user. -/
def cascade (db : AuthDb) : Statement → AuthDb
  | .deleteUser id => {
      db with
      cliExchanges := deleteWhere (·.userId == id) db.cliExchanges
      accessTokens := deleteWhere (·.userId == id) db.accessTokens
    }
  | _ => db

/-- A statement that waits for a lock, as long as it waits. -/
def canceled : DbError := .raised "canceling statement due to lock timeout"

/-- What a statement of a transaction answers, and the transaction afterwards. -/
def within (db : AuthDb) (connection : Nat) (statement : Statement)
    : Except DbError (statement.Reply × AuthDb) :=
  match db.accounts.written connection with
  | none => .error (.raised "there is no transaction in progress")
  | some _ => do
      let (reply, writes) ← statement.plan db.lower (db.accounts.view rules connection)
      match rules.checkAll (db.accounts.view rules connection) writes with
      | some fault => .error fault
      | none =>
          if db.accounts.blocked rules connection writes then .error canceled
          else .ok (reply, { db with accounts := db.accounts.append connection writes })

/-- A statement of its own is committed at once. -/
def auto (db : AuthDb) (statement : Statement) : Except DbError (statement.Reply × AuthDb) := do
  let (reply, writes) ← statement.plan db.lower db.accounts.committed
  match rules.checkAll db.accounts.committed writes with
  | some fault => .error fault
  | none =>
      if db.accounts.pending.any (fun held => rules.clashes held.writes writes) then .error canceled
      else
        .ok (reply, { db.cascade statement with accounts := db.accounts.write rules writes })

def begin (db : AuthDb) (connection : Nat) : Except DbError (Unit × AuthDb) :=
  match db.accounts.written connection with
  | some _ => .error (.raised "there is already a transaction in progress")
  | none => .ok ((), { db with accounts := db.accounts.begin connection })

def commit (db : AuthDb) (connection : Nat) : Except DbError (Unit × AuthDb) :=
  match db.accounts.written connection with
  | none => .error (.raised "there is no transaction in progress")
  | some _ => .ok ((), { db with accounts := db.accounts.commit rules connection })

def rollback (db : AuthDb) (connection : Nat) : AuthDb :=
  { db with accounts := db.accounts.rollback connection }

end AuthDb

/-- What a service sends. A transaction belongs to the connection that it was begun on. -/
inductive Request where
  | begin (connection : Nat)
  | within (connection : Nat) (statement : Statement)
  | commit (connection : Nat)
  | rollback (connection : Nat)
  | auto (statement : Statement)
  | ticket (statement : TicketStatement)
  /-- Ends the sessions of a user, in tables that are not among these. -/
  | revokeUserSessions (userId : Uuid)
  /-- Puts a user into the group of developers, if there is one. -/
  | joinDevelopers (userId : Uuid)
  | utcNow

@[reducible] def Request.Reply : Request → Type
  | .begin _ | .commit _ | .rollback _ => Unit
  | .within _ statement | .auto statement => statement.Reply
  | .ticket statement => statement.Reply
  | .revokeUserSessions _ | .joinDevelopers _ => Unit
  | .utcNow => Timestamp

def TicketStatement.exec
    : (statement : TicketStatement) → AuthDb → Except DbError (statement.Reply × AuthDb)
  | .insertAuthState row, db => db.insertAuthState row
  | .takeAuthState state, db => .ok (db.takeAuthState state)
  | .insertExchange row, db => db.insertExchange row
  | .takeExchange codeHash, db => .ok (db.takeExchange codeHash)
  | .insertAccessToken row, db => db.insertAccessToken row

def Request.exec : (request : Request) → AuthDb → Except DbError (request.Reply × AuthDb)
  | .begin connection, db => db.begin connection
  | .within connection statement, db => db.within connection statement
  | .commit connection, db => db.commit connection
  | .rollback connection, db => .ok ((), db.rollback connection)
  | .auto statement, db => db.auto statement
  | .ticket statement, db => statement.exec db
  | .revokeUserSessions _, db => .ok ((), db)
  | .joinDevelopers _, db => .ok ((), db)
  | .utcNow, db => .ok (db.now, db)

/-- The database as the sign-in services share it. -/
abbrev authSql : Interleaving.Signature AuthDb DbError where
  Op := Request
  Reply := Request.Reply
  exec := Request.exec
  lost := .connection

/-- A call of a sign-in service, at any point between its statements. -/
abbrev Login (Value : Type) := Interleaving.Program authSql AppError Value

def send (request : Request) : Login request.Reply :=
  @Interleaving.Program.request AuthDb DbError AppError authSql (fun _ => .db) request

/-- A statement of the transaction on the connection. -/
def stmt (connection : Nat) (statement : Statement) : Login statement.Reply :=
  send (.within connection statement)

/-- An error drops the transaction, which rolls it back; how that goes is not waited for. -/
def inTransaction {Value : Type} (connection : Nat) (body : Login Value) : Login Value := do
  let () ← send (.begin connection)
  tryCatch
    (do
      let value ← body
      let () ← send (.commit connection)
      return value)
    (fun error => do
      tryCatch (send (.rollback connection)) (fun _ => return ())
      throw error)

end WslVpn.Auth
