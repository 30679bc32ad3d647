import WslVpn.Auth.Logins

/-! What each request does to the database when it is answered, and what all of them keep. -/

namespace WslVpn.Auth

open Transactions.Locking

section Exec

variable {db after : AuthDb} {connection : Nat}

theorem begin_cases (ran : db.begin connection = .ok ((), after))
    : db.accounts.written connection = none
      ∧ after = { db with accounts := db.accounts.begin connection } := by
  unfold AuthDb.begin at ran
  split at ran
  · cases ran
  · next closed =>
      cases ran
      exact ⟨closed, rfl⟩

theorem commit_cases (ran : db.commit connection = .ok ((), after))
    : (∃ writes, db.accounts.written connection = some writes)
      ∧ after = { db with accounts := db.accounts.commit rules connection } := by
  unfold AuthDb.commit at ran
  split at ran
  · cases ran
  · next writes opened =>
      cases ran
      exact ⟨⟨writes, opened⟩, rfl⟩

/-- A statement of a transaction adds what it writes to what the transaction has written. -/
theorem within_cases {statement : Statement} {reply : statement.Reply}
    (ran : db.within connection statement = .ok (reply, after))
    : ∃ held writes, db.accounts.written connection = some held
        ∧ statement.plan db.lower (db.accounts.view rules connection) = .ok (reply, writes)
        ∧ rules.checkAll (db.accounts.view rules connection) writes = none
        ∧ db.accounts.blocked rules connection writes = false
        ∧ after = { db with accounts := db.accounts.append connection writes } := by
  unfold AuthDb.within at ran
  split at ran
  · cases ran
  · next held opened =>
      cases planned : statement.plan db.lower (db.accounts.view rules connection) with
      | error fault =>
          rw [planned] at ran
          cases ran
      | ok pair =>
          obtain ⟨answer, writes⟩ := pair
          rw [planned] at ran
          simp only [bind, Except.bind] at ran
          split at ran
          · cases ran
          · next fine =>
              split at ran
              · cases ran
              · next free =>
                  cases ran
                  exact ⟨held, writes, opened, rfl, fine, by simpa using free, rfl⟩

/-- A statement of its own writes to the committed rows. -/
theorem auto_cases {statement : Statement} {reply : statement.Reply}
    (ran : db.auto statement = .ok (reply, after))
    : ∃ writes, statement.plan db.lower db.accounts.committed = .ok (reply, writes)
        ∧ rules.checkAll db.accounts.committed writes = none
        ∧ (∀ held ∈ db.accounts.pending, rules.clashes held.writes writes = false)
        ∧ after = { db.cascade statement with accounts := db.accounts.write rules writes } := by
  unfold AuthDb.auto at ran
  cases planned : statement.plan db.lower db.accounts.committed with
  | error fault =>
      rw [planned] at ran
      cases ran
  | ok pair =>
      obtain ⟨answer, writes⟩ := pair
      rw [planned] at ran
      simp only [bind, Except.bind] at ran
      split at ran
      · cases ran
      · next fine =>
          split at ran
          · cases ran
          · next free =>
              cases ran
              exact ⟨writes, rfl, fine, by simpa using free, rfl⟩

theorem ticket_accounts {statement : TicketStatement} {reply : statement.Reply}
    (ran : statement.exec db = .ok (reply, after))
    : after.accounts = db.accounts := by
  cases statement with
  | insertAuthState row =>
      simp only [TicketStatement.exec, AuthDb.insertAuthState] at ran
      split at ran <;> cases ran
      rfl
  | takeAuthState state =>
      cases ran
      rfl
  | insertExchange row =>
      simp only [TicketStatement.exec, AuthDb.insertExchange] at ran
      split at ran
      · cases ran
      · split at ran <;> cases ran
        rfl
  | takeExchange codeHash =>
      cases ran
      rfl
  | insertAccessToken row =>
      simp only [TicketStatement.exec, AuthDb.insertAccessToken] at ran
      split at ran
      · cases ran
      · split at ran <;> cases ran
        rfl

/-- What an answered request does to the accounts. -/
inductive Effect (db : AuthDb) : Request → Shared Accounts Write → Prop where
  | begin {connection : Nat} (closed : db.accounts.written connection = none)
    : Effect db (.begin connection) (db.accounts.begin connection)
  | within {connection : Nat} {statement : Statement} {reply held writes}
    (opened : db.accounts.written connection = some held)
    (planned : statement.plan db.lower (db.accounts.view rules connection) = .ok (reply, writes))
    (fine : rules.checkAll (db.accounts.view rules connection) writes = none)
    (free : db.accounts.blocked rules connection writes = false)
    : Effect db (.within connection statement) (db.accounts.append connection writes)
  | commit {connection : Nat} {held} (opened : db.accounts.written connection = some held)
    : Effect db (.commit connection) (db.accounts.commit rules connection)
  | rollback {connection : Nat} : Effect db (.rollback connection) (db.accounts.rollback connection)
  | auto {statement : Statement} {reply writes}
    (planned : statement.plan db.lower db.accounts.committed = .ok (reply, writes))
    (fine : rules.checkAll db.accounts.committed writes = none)
    (free : ∀ held ∈ db.accounts.pending, rules.clashes held.writes writes = false)
    : Effect db (.auto statement) (db.accounts.write rules writes)
  | elsewhere {request}
    (other
      : (∃ statement, request = .ticket statement)
        ∨ (∃ userId, request = .revokeUserSessions userId)
          ∨ (∃ userId, request = .joinDevelopers userId) ∨ request = .utcNow)
    : Effect db request db.accounts

/-- By cases on the request. -/
theorem effect_of_exec {request : Request} {reply : request.Reply}
    (ran : request.exec db = .ok (reply, after))
    : Effect db request after.accounts := by
  cases request with
  | begin connection =>
      obtain ⟨closed, rfl⟩ := begin_cases ran
      exact .begin closed
  | within connection statement =>
      obtain ⟨held, writes, opened, planned, fine, free, rfl⟩ := within_cases ran
      exact .within opened planned fine free
  | commit connection =>
      obtain ⟨⟨held, opened⟩, rfl⟩ := commit_cases ran
      exact .commit opened
  | rollback connection =>
      cases ran
      exact .rollback
  | auto statement =>
      obtain ⟨writes, planned, fine, free, rfl⟩ := auto_cases ran
      exact .auto planned fine free
  | ticket statement =>
      rw [ticket_accounts ran]
      exact .elsewhere (Or.inl ⟨statement, rfl⟩)
  | revokeUserSessions userId =>
      cases ran
      exact .elsewhere (Or.inr (Or.inl ⟨userId, rfl⟩))
  | joinDevelopers userId =>
      cases ran
      exact .elsewhere (Or.inr (Or.inr (Or.inl ⟨userId, rfl⟩)))
  | utcNow =>
      cases ran
      exact .elsewhere (Or.inr (Or.inr (Or.inr rfl)))

end Exec

-----------------------------------------------------------------------------------------
-- What all requests keep
-----------------------------------------------------------------------------------------

/-- The committed rows meet their constraints, and each open transaction could commit. -/
structure Valid (accounts : Shared Accounts Write) : Prop where
  good : accounts.committed.Good
  sound : Sound rules accounts

section Valid

variable {db after : AuthDb}

theorem Valid.start {tables : Accounts} (good : tables.Good) : Valid (.start tables) :=
  ⟨good, .start tables⟩

theorem Valid.view {accounts : Shared Accounts Write} (valid : Valid accounts) (connection : Nat)
    : (accounts.view rules connection).Good := by
  obtain ⟨writes, fine, view⟩ := @Sound.view_admitted _ _ _ _ _ connection valid.sound
  rw [view]
  exact Good.applyAll valid.good fine

/-- Every answered request keeps it, by cases on what the request does. -/
theorem Valid.step {request : Request} {reply : request.Reply} (valid : Valid db.accounts)
    (ran : request.exec db = .ok (reply, after))
    : Valid after.accounts := by
  have effect := effect_of_exec ran
  generalize after.accounts = accounts at effect ⊢
  cases effect with
  | begin closed => exact ⟨valid.good, valid.sound.begin closed⟩
  | within opened planned fine free => exact ⟨valid.good, valid.sound.append lawful fine free⟩
  | commit opened => exact ⟨valid.view _, valid.sound.commit lawful⟩
  | rollback => exact ⟨valid.good, valid.sound.rollback⟩
  | auto planned fine free =>
      exact ⟨Good.applyAll valid.good fine, valid.sound.write lawful fine free⟩
  | elsewhere other => exact valid

end Valid

end WslVpn.Auth
