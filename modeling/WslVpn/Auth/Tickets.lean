import WslVpn.Auth.Handshake
import WslVpn.Interleaving.Vouchers

/-! The rows of a handshake are handed out once: a state by the callback, and a code by the exchange. -/

namespace WslVpn.Auth

open Interleaving
open List (Subperm)

/-- The row that is taken out is not among those that stay. -/
theorem taken_subperm {Row : Type} (live : Row → Bool) (rows : List Row)
    : Subperm ((rows.find? live).toList ++ deleteWhere live rows) rows := by
  have taken : (rows.find? live).toList.Sublist (rows.filter live) := by
    rw [← List.head?_filter]
    cases rows.filter live with
    | nil => exact List.Sublist.refl _
    | cons row rest => exact List.Sublist.cons_cons row (List.nil_sublist rest)
  have both := (taken.append_right (deleteWhere live rows)).subperm
  exact both.trans (List.filter_append_perm live rows).subperm

section Exec

variable {db after : AuthDb}

/-- Only the statements on the tables of the handshake put rows there. -/
theorem tickets_kept {request : Request} {reply : request.Reply}
    (other : ∀ statement, request ≠ .ticket statement) (ran : request.exec db = .ok (reply, after))
    : after.authStates = db.authStates ∧ Subperm after.cliExchanges db.cliExchanges := by
  cases request with
  | begin connection =>
      obtain ⟨_, rfl⟩ := begin_cases ran
      exact ⟨rfl, Subperm.refl _⟩
  | within connection statement =>
      obtain ⟨_, _, _, _, _, _, rfl⟩ := within_cases ran
      exact ⟨rfl, Subperm.refl _⟩
  | commit connection =>
      obtain ⟨_, rfl⟩ := commit_cases ran
      exact ⟨rfl, Subperm.refl _⟩
  | auto statement =>
      obtain ⟨_, _, _, _, rfl⟩ := auto_cases ran
      cases statement with
      | deleteUser id => exact ⟨rfl, List.filter_sublist.subperm⟩
      | _ => exact ⟨rfl, Subperm.refl _⟩
  | ticket statement => exact absurd rfl (other statement)
  | rollback connection =>
      cases ran
      exact ⟨rfl, Subperm.refl _⟩
  | revokeUserSessions userId =>
      cases ran
      exact ⟨rfl, Subperm.refl _⟩
  | joinDevelopers userId =>
      cases ran
      exact ⟨rfl, Subperm.refl _⟩
  | utcNow =>
      cases ran
      exact ⟨rfl, Subperm.refl _⟩

theorem insertAuthState_cases {row : AuthStateRow} (ran : db.insertAuthState row = .ok ((), after))
    : after = { db with authStates := db.authStates ++ [row] } := by
  unfold AuthDb.insertAuthState at ran
  split at ran <;> cases ran
  rfl

theorem insertExchange_cases {row : ExchangeRow} (ran : db.insertExchange row = .ok ((), after))
    : after = { db with cliExchanges := db.cliExchanges ++ [row] } := by
  unfold AuthDb.insertExchange at ran
  split at ran
  · cases ran
  · split at ran <;> cases ran
    rfl

theorem insertAccessToken_cases {row : AccessTokenRow}
    (ran : db.insertAccessToken row = .ok ((), after))
    : after = { db with accessTokens := db.accessTokens ++ [row] } := by
  unfold AuthDb.insertAccessToken at ran
  split at ran
  · cases ran
  · split at ran <;> cases ran
    rfl

end Exec

-----------------------------------------------------------------------------------------
-- The two kinds of rows
-----------------------------------------------------------------------------------------

def Request.issuedState : Request → Option AuthStateRow
  | .ticket (.insertAuthState row) => some row
  | _ => none

def Request.redeemedState : (request : Request) → request.Reply → Option AuthStateRow
  | .ticket (.takeAuthState _), row => row
  | _, _ => none

def Request.issuedCode : Request → Option ExchangeRow
  | .ticket (.insertExchange row) => some row
  | _ => none

def Request.redeemedCode : (request : Request) → request.Reply → Option ExchangeRow
  | .ticket (.takeExchange _), row => row
  | _, _ => none

/-- The handshakes that have begun and wait for their callback. -/
def authStates : Vouchers authSql AuthStateRow where
  rows db := db.authStates
  issued := Request.issuedState
  redeemed := Request.redeemedState
  conserved := by
    intro request db reply after ran
    by_cases other : ∀ statement, request ≠ .ticket statement
    · have absent : request.redeemedState reply = none := by
        cases request with
        | ticket statement => exact absurd rfl (other statement)
        | _ => rfl
      rw [absent, (tickets_kept other ran).1]
      exact (List.sublist_append_left _ _).subperm
    · obtain ⟨statement, same⟩ := not_forall.mp other
      cases not_not.mp same
      cases statement with
      | insertAuthState row =>
          cases insertAuthState_cases ran
          exact Subperm.refl _
      | takeAuthState state =>
          cases ran
          exact (taken_subperm _ _).trans (List.sublist_append_left _ _).subperm
      | insertExchange row =>
          cases insertExchange_cases ran
          exact (List.sublist_append_left _ _).subperm
      | takeExchange codeHash =>
          cases ran
          exact (List.sublist_append_left _ _).subperm
      | insertAccessToken row =>
          cases insertAccessToken_cases ran
          exact (List.sublist_append_left _ _).subperm

/-- The codes that wait to be redeemed. -/
def cliExchanges : Vouchers authSql ExchangeRow where
  rows db := db.cliExchanges
  issued := Request.issuedCode
  redeemed := Request.redeemedCode
  conserved := by
    intro request db reply after ran
    by_cases other : ∀ statement, request ≠ .ticket statement
    · have absent : request.redeemedCode reply = none := by
        cases request with
        | ticket statement => exact absurd rfl (other statement)
        | _ => rfl
      rw [absent]
      exact (tickets_kept other ran).2.trans (List.sublist_append_left _ _).subperm
    · obtain ⟨statement, same⟩ := not_forall.mp other
      cases not_not.mp same
      cases statement with
      | insertAuthState row =>
          cases insertAuthState_cases ran
          exact (List.sublist_append_left _ _).subperm
      | takeAuthState state =>
          cases ran
          exact (List.sublist_append_left _ _).subperm
      | insertExchange row =>
          cases insertExchange_cases ran
          exact Subperm.refl _
      | takeExchange codeHash =>
          cases ran
          exact (taken_subperm _ _).trans (List.sublist_append_left _ _).subperm
      | insertAccessToken row =>
          cases insertAccessToken_cases ran
          exact (List.sublist_append_left _ _).subperm

/-- Nothing that happens besides the calls puts rows of either kind there. -/
theorem surroundings_drop (change : Surroundings) (db : AuthDb)
    : Subperm (authStates.rows (change.effect db)) (authStates.rows db)
      ∧ Subperm (cliExchanges.rows (change.effect db)) (cliExchanges.rows db) := by
  cases change with
  | elapses passed => exact ⟨Subperm.refl _, Subperm.refl _⟩
  | accounts changed => exact ⟨Subperm.refl _, Subperm.refl _⟩
  | deletesUser id => exact ⟨Subperm.refl _, List.filter_sublist.subperm⟩

end WslVpn.Auth
