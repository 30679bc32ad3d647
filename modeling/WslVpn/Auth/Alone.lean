import WslVpn.Auth.Effects

/-! Transactions that run from their begin to their end without anybody in between. -/

namespace WslVpn.Auth

open Transactions.Locking Interleaving

/-- The database once the transaction of the connection has written this. -/
def AuthDb.opened (db : AuthDb) (connection : Nat) (writes : List Write) : AuthDb :=
  { db with accounts := db.accounts.opened connection writes }

/-- The database once these writes are committed. -/
def AuthDb.written (db : AuthDb) (writes : List Write) : AuthDb :=
  { db with accounts := db.accounts.write rules writes }

/-- Every request of the program is a statement of the connection's transaction. -/
def Within {Value : Type} (connection : Nat) (body : Login Value) : Prop :=
  body.Along (fun _ _ => True) (fun request => ∃ statement, request = Request.within connection statement)
    (fun _ => True)

section Body

variable {Value Result : Type} {connection : Nat}

theorem Within.bind {body : Login Value} {rest : Value → Login Result}
    (first : Within connection body)
    (second : ∀ value, Within connection (rest value))
    : Within connection (body >>= rest) :=
  Program.Along.seq first second

theorem within_stmt (statement : Statement) : Within connection (stmt connection statement) := by
  refine ⟨⟨statement, rfl⟩, ?_⟩
  intro reply _
  cases reply <;> trivial

theorem within_throw (error : AppError) : Within connection (throw error : Login Value) := trivial

theorem within_return (value : Value) : Within connection (pure value : Login Value) := trivial

theorem within_checkActive (userId : Uuid) : Within connection (checkActive connection userId) := by
  refine (within_stmt _).bind ?_
  intro active
  match active with
  | none => exact within_throw _
  | some false => exact within_throw _
  | some true => exact within_return _

end Body

section Alone

variable {Value : Type} {db after : AuthDb} {connection : Nat} {writes more : List Write}
  (closed : db.accounts.written connection = none)

include closed

/-- A statement is answered from the rows that its transaction sees, or fails. -/
theorem stmt_alone {statement : Statement} {result : Except AppError statement.Reply}
    (ran : (stmt connection statement).alone (db.opened connection writes) = (result, after))
    : (result = .error .db ∧ after = db.opened connection writes)
      ∨ ∃ reply more, result = .ok reply
          ∧ statement.plan db.lower (rules.applyAll db.accounts.committed writes)
              = .ok (reply, more)
          ∧ after = db.opened connection (writes ++ more) := by
  cases answer : (Request.within connection statement).exec (db.opened connection writes) with
  | error fault =>
      have refused := @Program.alone_request_error AuthDb DbError AppError authSql _
        (fun _ => AppError.db) (.within connection statement) fault answer
      cases ran.symm.trans refused
      exact Or.inl ⟨rfl, rfl⟩
  | ok pair =>
      obtain ⟨reply, next⟩ := pair
      have answered := @Program.alone_request_ok AuthDb DbError AppError authSql _ _
        (fun _ => AppError.db) (.within connection statement) reply answer
      cases ran.symm.trans answered
      obtain ⟨held, new, opened, planned, _, _, rfl⟩ := within_cases answer
      have view : (db.opened connection writes).accounts.view rules connection
          = rules.applyAll db.accounts.committed writes := view_opened closed
      have appended : (db.opened connection writes).accounts.append connection new
          = db.accounts.opened connection (writes ++ new) := append_opened closed
      rw [view] at planned
      refine Or.inr ⟨reply, new, rfl, planned, ?_⟩
      rw [appended]
      rfl

/-- A statement whose writes are admitted and that nobody's lock is in the way of. -/
theorem stmt_alone_ok {statement : Statement} {reply : statement.Reply}
    (planned
      : statement.plan db.lower (rules.applyAll db.accounts.committed writes) = .ok (reply, more))
    (fine : rules.checkAll (rules.applyAll db.accounts.committed writes) more = none)
    (free : ∀ held ∈ db.accounts.pending, rules.clashes held.writes more = false)
    : (stmt connection statement).alone (db.opened connection writes)
      = (.ok reply, db.opened connection (writes ++ more)) := by
  refine Program.alone_request_ok ?_
  have opened : (db.opened connection writes).accounts.written connection = some writes :=
    written_opened closed
  have view : (db.opened connection writes).accounts.view rules connection
      = rules.applyAll db.accounts.committed writes := view_opened closed
  have unblocked : (db.opened connection writes).accounts.blocked rules connection more
      = false := by
    refine (blocked_opened closed).trans ?_
    rw [← Bool.not_eq_true, List.any_eq_true]
    intro clash
    obtain ⟨held, member, clash⟩ := clash
    rw [free held member] at clash
    cases clash
  have appended : (db.opened connection writes).accounts.append connection more
      = db.accounts.opened connection (writes ++ more) := append_opened closed
  change (db.opened connection writes).within connection statement = _
  rw [AuthDb.within, opened]
  have plannedHere : statement.plan (db.opened connection writes).lower
      ((db.opened connection writes).accounts.view rules connection) = .ok (reply, more) := by
    rw [view]
    exact planned
  simp only [plannedHere, bind, Except.bind]
  rw [view, fine, unblocked, appended]
  rfl

/-- What follows a statement that writes nothing runs on its answer. -/
theorem stmt_read_then {statement : Statement} {reply : statement.Reply}
    {rest : statement.Reply → Login Value}
    (planned
      : statement.plan db.lower (rules.applyAll db.accounts.committed writes) = .ok (reply, []))
    : (stmt connection statement >>= rest).alone (db.opened connection writes)
      = (rest reply).alone (db.opened connection writes) := by
  have free : ∀ held ∈ db.accounts.pending, rules.clashes held.writes [] = false := by
    intro held _
    simp [Writes.clashes]
  have answered := stmt_alone_ok closed planned rfl free
  rw [List.append_nil] at answered
  exact Program.alone_bind_ok answered

/-- Whatever the body of a transaction does, it leaves an open transaction, by induction on the
body.
-/
theorem body_alone {body : Login Value} (within : Within connection body)
    : ∃ result more, body.alone (db.opened connection writes)
      = (result, db.opened connection more) := by
  induction body generalizing writes with
  | done result => exact ⟨result, writes, rfl⟩
  | step request next ih =>
      obtain ⟨⟨statement, rfl⟩, within⟩ := within
      rw [Program.alone]
      cases answer : authSql.exec (Request.within connection statement)
        (db.opened connection writes) with
      | error fault => exact ih _ (within _ trivial)
      | ok pair =>
          obtain ⟨reply, middle⟩ := pair
          obtain ⟨held, new, opened, planned, _, _, rfl⟩ := within_cases answer
          have appended : (db.opened connection writes).accounts.append connection new
              = db.accounts.opened connection (writes ++ new) := append_opened closed
          change ∃ result more, (next (.ok reply)).alone { db.opened connection writes with
            accounts := (db.opened connection writes).accounts.append connection new } = _
          rw [appended]
          exact ih _ (within _ trivial)

/-- A transaction whose body succeeds is committed. -/
theorem inTransaction_alone_ok {body : Login Value} {value : Value}
    (ran : body.alone (db.opened connection []) = (.ok value, db.opened connection writes))
    : (inTransaction connection body).alone db = (.ok value, db.written writes) := by
  have begun : (Request.begin connection).exec db = .ok ((), db.opened connection []) := by
    change db.begin connection = _
    rw [AuthDb.begin, closed]
    rfl
  have committed : (Request.commit connection).exec (db.opened connection writes)
      = .ok ((), db.written writes) := by
    have opened : (db.opened connection writes).accounts.written connection = some writes :=
      written_opened closed
    have made : (db.opened connection writes).accounts.commit rules connection
        = db.accounts.write rules writes := commit_opened closed
    change (db.opened connection writes).commit connection = _
    rw [AuthDb.commit, opened, made]
    rfl
  have whole : (do
      let value ← body
      let () ← send (.commit connection)
      return value : Login Value).alone (db.opened connection []) = (.ok value, db.written writes) := by
    rw [Program.alone_bind_ok ran]
    exact Program.alone_bind_ok (Program.alone_request_ok committed)
  have first : (send (.begin connection)).alone db = (.ok (), db.opened connection []) :=
    Program.alone_request_ok begun
  refine (Program.alone_bind_ok first).trans ?_
  refine Program.alone_recover.trans ?_
  rw [whole]

/-- One whose body fails leaves everything as it was. -/
theorem inTransaction_alone_error {body : Login Value} {error : AppError}
    (ran : body.alone (db.opened connection []) = (.error error, db.opened connection writes))
    : (inTransaction connection body).alone db = (.error error, db) := by
  have begun : (Request.begin connection).exec db = .ok ((), db.opened connection []) := by
    change db.begin connection = _
    rw [AuthDb.begin, closed]
    rfl
  have undone : (Request.rollback connection).exec (db.opened connection writes)
      = .ok ((), db) := by
    have back : (db.opened connection writes).accounts.rollback connection = db.accounts :=
      rollback_opened closed
    change Except.ok ((), (db.opened connection writes).rollback connection) = _
    rw [AuthDb.rollback, back]
    rfl
  have whole : (do
      let value ← body
      let () ← send (.commit connection)
      return value : Login Value).alone (db.opened connection [])
      = (.error error, db.opened connection writes) :=
    Program.alone_bind_error ran
  have first : (send (.begin connection)).alone db = (.ok (), db.opened connection []) :=
    Program.alone_request_ok begun
  have last : (tryCatch (send (.rollback connection)) (fun _ => return ())
      : Login Unit).alone (db.opened connection writes) = (.ok (), db) := by
    refine Program.alone_recover.trans ?_
    have sent : (send (.rollback connection)).alone (db.opened connection writes) = (.ok (), db) :=
      Program.alone_request_ok undone
    rw [sent]
  refine (Program.alone_bind_ok first).trans ?_
  refine Program.alone_recover.trans ?_
  rw [whole]
  exact Program.alone_bind_ok last

end Alone

/-- A connection that has a transaction open cannot begin another one. -/
theorem inTransaction_alone_open {Value : Type} {db : AuthDb} {connection : Nat}
    {writes : List Write}
    {body : Login Value} (opened : db.accounts.written connection = some writes)
    : (inTransaction connection body).alone db = (.error .db, db) := by
  have refused : (Request.begin connection).exec db
      = .error (.raised "there is already a transaction in progress") := by
    change db.begin connection = _
    rw [AuthDb.begin, opened]
  have first : (send (.begin connection)).alone db = (.error .db, db) :=
    Program.alone_request_error refused
  exact Program.alone_bind_error first

-----------------------------------------------------------------------------------------
-- The OIDC sign-in
-----------------------------------------------------------------------------------------

/-- The binding that a sign-in makes. -/
def bindingOf (identity : VerifiedIdentity) (userId : Uuid) : IdentityRow where
  issuer := identity.issuer
  subject := identity.subject
  userId
  email := identity.email

/-- Which user a sign-in finds in the tables, and what it writes for that. -/
inductive Oidc.Finds (config : AuthConfig) (freshId : Uuid) (identity : VerifiedIdentity)
    (tables : Accounts) : Uuid → List Write → Prop where
  | bound {row writes} (found : tables.findIdentity identity.issuer identity.subject = some row)
    : Finds config freshId identity tables row.userId writes
  | linked {row} (unbound : tables.findIdentity identity.issuer identity.subject = none)
    (found : tables.findByEmail identity.email = some row)
    : Finds config freshId identity tables row.id [.identity (bindingOf identity row.id)]
  | created {row : UserRow} (unbound : tables.findIdentity identity.issuer identity.subject = none)
    (noUser : tables.findByEmail identity.email = none) (jit : config.provisioning = .jit)
    (named : row.id = freshId) (free : tables.hasUser freshId = false)
    : Finds config freshId identity tables freshId [.user row, .identity (bindingOf identity freshId)]

section Oidc

variable {db after : AuthDb} {connection : Nat} {config : AuthConfig} {freshId userId : Uuid}
  {identity : VerifiedIdentity} {writes more : List Write}

theorem Oidc.within_findUser
    : Within connection (Oidc.findUser config connection freshId identity) := by
  refine (within_stmt _).bind ?_
  intro bound
  match bound with
  | some userId =>
      refine (within_stmt _).bind (fun _ => ?_)
      exact (within_stmt _).bind (fun _ => within_return _)
  | none =>
      refine (within_stmt _).bind ?_
      intro existing
      match existing with
      | some (userId, _) =>
          refine (within_stmt _).bind ?_
          intro already
          match already with
          | some _ => exact within_throw _
          | none => exact (within_stmt _).bind (fun _ => within_return _)
      | none =>
          change Within connection (if _ then _ else _)
          split
          · exact within_throw _
          · refine (within_stmt _).bind (fun _ => ?_)
            exact (within_stmt _).bind (fun _ => within_return _)

/-- The rest of a sequence that ends well goes on where its first program has ended well. -/
theorem alone_ok {Value Result : Type} {program : Login Value} {rest : Value → Login Result}
    {state : AuthDb} {result : Result} (ran : (program >>= rest).alone state = (.ok result, after))
    : ∃ value middle, program.alone state = (.ok value, middle)
        ∧ (rest value).alone middle = (.ok result, after) := by
  rw [Program.alone_bind] at ran
  cases first : program.alone state with
  | mk ended middle =>
      rw [first] at ran
      cases ended with
      | ok value => exact ⟨value, middle, rfl, ran⟩
      | error error => cases ran

variable (closed : db.accounts.written connection = none)

include closed

/-- A statement that is followed by something that ends well has been answered. -/
theorem stmt_then {Result : Type} {statement : Statement} {rest : statement.Reply → Login Result}
    {result : Result}
    (ran
      : (stmt connection statement >>= rest).alone (db.opened connection writes)
        = (.ok result, after))
    : ∃ reply more, (rest reply).alone (db.opened connection (writes ++ more)) = (.ok result, after)
        ∧ statement.plan db.lower (rules.applyAll db.accounts.committed writes)
          = .ok (reply, more) := by
  obtain ⟨reply, middle, first, ran⟩ := alone_ok ran
  rcases stmt_alone closed first with ⟨failed, _⟩ | ⟨answer, more, same, planned, rfl⟩
  · cases failed
  · cases same
    exact ⟨reply, more, ran, planned⟩

theorem Oidc.findUser_alone
    (ran
      : (Oidc.findUser config connection freshId identity).alone (db.opened connection [])
        = (.ok userId, after))
    : ∃ writes, after = db.opened connection writes
        ∧ Oidc.Finds config freshId identity db.accounts.committed userId writes := by
  obtain ⟨bound, _, ran, planned⟩ := stmt_then closed ran
  have reads : bound = (db.accounts.committed.findIdentity identity.issuer identity.subject).map
      (·.userId) := by
    cases planned
    rfl
  obtain ⟨_, rfl⟩ := Prod.mk.inj (Except.ok.inj planned)
  cases found : db.accounts.committed.findIdentity identity.issuer identity.subject with
  | some row =>
      rw [reads, found] at ran
      obtain ⟨_, _, ran, _⟩ := stmt_then closed ran
      obtain ⟨_, _, ran, _⟩ := stmt_then closed ran
      cases ran
      exact ⟨_, rfl, .bound found⟩
  | none =>
      rw [reads, found] at ran
      obtain ⟨existing, _, ran, planned⟩ := stmt_then closed ran
      have reads : existing = (db.accounts.committed.findByEmail identity.email).map
          (fun row => (row.id, row.active)) := by
        cases planned
        rfl
      obtain ⟨_, rfl⟩ := Prod.mk.inj (Except.ok.inj planned)
      cases there : db.accounts.committed.findByEmail identity.email with
      | some row =>
          rw [reads, there] at ran
          obtain ⟨already, _, ran, planned⟩ := stmt_then closed ran
          obtain ⟨_, rfl⟩ := Prod.mk.inj (Except.ok.inj planned)
          cases already with
          | some other => cases ran
          | none =>
              obtain ⟨_, _, ran, planned⟩ := stmt_then closed ran
              simp only [Statement.plan] at planned
              split at planned
              · cases planned
              · cases planned
                cases ran
                exact ⟨_, rfl, .linked found there⟩
      | none =>
          rw [reads, there] at ran
          change (if _ then _ else _ : Login Uuid).alone _ = _ at ran
          split at ran
          · cases ran
          · next jit =>
              obtain ⟨created, _, ran, planned⟩ := stmt_then closed ran
              simp only [Statement.plan] at planned
              split at planned
              · cases planned
              · next free =>
                  cases planned
                  obtain ⟨_, _, ran, planned⟩ := stmt_then closed ran
                  simp only [Statement.plan] at planned
                  split at planned
                  · cases planned
                  · cases planned
                    cases ran
                    refine ⟨_, rfl, .created found there ?_ rfl (Bool.eq_false_iff.mpr free)⟩
                    cases kind : config.provisioning with
                    | jit => rfl
                    | directory => exact absurd kind jit

omit closed in
/-- A sign-in that nobody disturbs leaves everything as it was, or commits what the user that it has
found takes.
-/
theorem Oidc.resolveUser_alone {result : Except AppError Uuid}
    (ran : (Oidc.resolveUser config connection freshId identity).alone db = (result, after))
    : (∃ error, result = .error error ∧ after = db)
      ∨ ∃ userId writes, result = .ok userId ∧ after = db.written writes
          ∧ Oidc.Finds config freshId identity db.accounts.committed userId writes := by
  rw [Oidc.resolveUser] at ran
  split at ran
  · cases ran
    exact Or.inl ⟨_, rfl, rfl⟩
  · cases opened : db.accounts.written connection with
    | some held =>
        cases ran.symm.trans (inTransaction_alone_open opened)
        exact Or.inl ⟨_, rfl, rfl⟩
    | none =>
        have within : Within connection (do
            let userId ← Oidc.findUser config connection freshId identity
            checkActive connection userId) :=
          Oidc.within_findUser.bind (fun userId => within_checkActive userId)
        obtain ⟨ended, writes, body⟩ := @body_alone _ db connection [] opened _ within
        cases ended with
        | error error =>
            cases ran.symm.trans (inTransaction_alone_error opened body)
            exact Or.inl ⟨_, rfl, rfl⟩
        | ok userId =>
            obtain ⟨found, middle, first, second⟩ := alone_ok body
            obtain ⟨made, rfl, finds⟩ := Oidc.findUser_alone opened first
            have checked : found = userId
                ∧ db.opened connection made = db.opened connection writes := by
              obtain ⟨active, _, second, planned⟩ := stmt_then opened second
              obtain ⟨_, rfl⟩ := Prod.mk.inj (Except.ok.inj planned)
              rw [List.append_nil] at second
              match active, second with
              | some true, second =>
                  obtain ⟨same, place⟩ := Prod.mk.inj second
                  exact ⟨Except.ok.inj same, place⟩
            rw [← checked.2] at body
            rw [checked.1] at finds
            cases ran.symm.trans (inTransaction_alone_ok opened body)
            exact Or.inr ⟨userId, made, rfl, rfl, finds⟩

end Oidc

end WslVpn.Auth
