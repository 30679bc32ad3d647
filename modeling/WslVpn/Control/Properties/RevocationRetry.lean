import WslVpn.Control.Effects

/-! Revoking a session again after a failed attempt. The first statement of a revocation is what
lets the others run, so an attempt that fails after it is never made up for.
-/

namespace WslVpn

open AddressSpace Interleaving

/-- One call of `revoke` during which the statements that `fails` names are lost. A crash between
two statements leaves what the loss of the second one leaves.
-/
def attemptRevoke (sessionId : Uuid) (fails : Nat → Bool) (db : Db) : Except AppError Bool × Db :=
  (SessionService.revoke sessionId).execute (fun _ db => db) fails 0 db

/-- The database after one attempt after another. -/
def attemptsRevoke (sessionId : Uuid) (attempts : List (Nat → Bool)) (db : Db) : Db :=
  attempts.foldl (fun db fails => (attemptRevoke sessionId fails db).2) db

/-- Each of the attempts, made one after another, returns an error. -/
def EachFails (sessionId : Uuid) : List (Nat → Bool) → Db → Prop
  | [], _ => True
  | fails :: rest, db =>
      (∃ error, (attemptRevoke sessionId fails db).1 = .error error)
      ∧ EachFails sessionId rest (attemptRevoke sessionId fails db).2

/-- What a revocation is for. -/
structure FullyRevoked (before after : Db) (sessionId gatewayId : Uuid) : Prop where
  ended : after.Ended sessionId
  peerless : ∀ peer ∈ after.wireguardPeers, peer.sessionId ≠ sessionId
  released : ∀ row ∈ after.ipamAllocations, row.sessionId ≠ some sessionId
  bumped
    : ∀ old, before.versionOf gatewayId = some old
        → ∃ new, after.versionOf gatewayId = some new ∧ old < new

section Attempts

variable {sessionId : Uuid} {fails : Nat → Bool} {db : Db}

/-- Everything that one attempt can do. Only in the third case is anything left undone. -/
theorem attemptRevoke_cases
    : (fails 0 = true ∧ attemptRevoke sessionId fails db = (.error .db, db))
      ∨ (fails 0 = false ∧ db.Ended sessionId
        ∧ attemptRevoke sessionId fails db = (.ok false, db))
      ∨ (fails 0 = false ∧ ¬ db.Ended sessionId
        ∧ ∃ after, attemptRevoke sessionId fails db = (.error .db, after)
            ∧ after.Ended sessionId ∧ after.gateways = db.gateways)
      ∨ (fails 0 = false ∧ ¬ db.Ended sessionId
        ∧ attemptRevoke sessionId fails db = (.ok true, db.revoked sessionId)) := by
  cases first : fails 0 with
  | true => exact Or.inl ⟨rfl, execute_query_lost first⟩
  | false =>
      refine Or.inr ?_
      have began : attemptRevoke sessionId fails db
          = (if db.sessions.countP (Db.isActiveSession sessionId) = 0 then return false
              else SessionService.dismantle sessionId).execute (fun _ db => db) fails 1
                (db.updateSessionRevoked sessionId) :=
        execute_query_answered first rfl
      by_cases ended : db.Ended sessionId
      · rw [if_pos (ended_iff_count.mp ended), updateSessionRevoked_of_ended ended] at began
        exact Or.inl ⟨rfl, ended, began⟩
      · rw [if_neg (mt ended_iff_count.mpr ended)] at began
        refine Or.inr ?_
        -- The statements left are those of `dismantle`; each may be the one that is lost.
        cases second : fails 1 with
        | true =>
            exact Or.inl ⟨rfl, ended, _, began.trans (execute_query_lost second),
              updateSessionRevoked_ended, rfl⟩
        | false =>
            have peers := began.trans (execute_query_answered second rfl)
            rw [IpamService.releaseSession_bind] at peers
            cases third : fails 2 with
            | true =>
                exact Or.inl ⟨rfl, ended, _, peers.trans (execute_query_lost third),
                  updateSessionRevoked_ended, rfl⟩
            | false =>
                have released := peers.trans (execute_query_answered third rfl)
                cases fourth : fails 3 with
                | true =>
                    exact Or.inl ⟨rfl, ended, _, released.trans (execute_query_lost fourth),
                      updateSessionRevoked_ended, rfl⟩
                | false =>
                    exact Or.inr ⟨rfl, ended,
                      released.trans (execute_query_answered fourth rfl)⟩

/-- Nothing is left to do for a session that has ended. -/
theorem attemptRevoke_of_ended (ended : db.Ended sessionId)
    : (attemptRevoke sessionId fails db).2 = db := by
  rcases attemptRevoke_cases with ⟨_, lost⟩ | ⟨_, _, spent⟩ | ⟨_, active, _⟩ | ⟨_, active, _⟩
  · rw [lost]
  · rw [spent]
  · exact absurd ended active
  · exact absurd ended active

/-- Nor does any number of attempts, by induction on them. -/
theorem attemptsRevoke_of_ended {attempts : List (Nat → Bool)} (ended : db.Ended sessionId)
    : attemptsRevoke sessionId attempts db = db := by
  induction attempts with
  | nil => rfl
  | cons fails rest ih =>
      simp only [attemptsRevoke, List.foldl_cons, attemptRevoke_of_ended ended]
      exact ih

/-- Failed attempts on an active session: either each one lost its first statement and nothing
has changed, or the session has ended and no version has moved. The induction is on the attempts.
-/
theorem attemptsRevoke_cases {attempts : List (Nat → Bool)} (active : ¬ db.Ended sessionId)
    (failed : EachFails sessionId attempts db)
    : ((∀ fails ∈ attempts, fails 0 = true) ∧ attemptsRevoke sessionId attempts db = db)
      ∨ ((∃ fails ∈ attempts, fails 0 = false)
        ∧ (attemptsRevoke sessionId attempts db).Ended sessionId
        ∧ (attemptsRevoke sessionId attempts db).gateways = db.gateways) := by
  induction attempts with
  | nil => exact Or.inl ⟨by simp, rfl⟩
  | cons fails rest ih =>
      obtain ⟨⟨error, returned⟩, later⟩ := failed
      have split : attemptsRevoke sessionId (fails :: rest) db
          = attemptsRevoke sessionId rest (attemptRevoke sessionId fails db).2 := rfl
      rcases attemptRevoke_cases with
        ⟨first, lost⟩ | ⟨_, ended, _⟩ | ⟨first, _, after, partway, ended, gateways⟩ | ⟨_, _, whole⟩
      · rw [lost] at split later
        rcases ih later with ⟨all, same⟩ | ⟨⟨other, member, began⟩, rest⟩
        · refine Or.inl ⟨?_, split.trans same⟩
          intro other member
          rcases List.mem_cons.mp member with rfl | member
          · exact first
          · exact all other member
        · refine Or.inr ⟨⟨other, List.mem_cons_of_mem _ member, began⟩, ?_⟩
          rw [split]
          exact rest
      · exact absurd ended active
      · rw [partway] at split
        rw [attemptsRevoke_of_ended ended] at split
        rw [split]
        exact Or.inr ⟨⟨fails, List.mem_cons_self, first⟩, ended, gateways⟩
      · rw [whole] at returned
        cases returned

/-- A whole revocation does what it is for. -/
theorem revoked_fullyRevoked {session : SessionRow} (stored : session ∈ db.sessions)
    : FullyRevoked db (db.revoked session.id) session.id session.gatewayId where
  ended := updateSessionRevoked_ended
  peerless := by
    intro peer member
    simpa using (mem_deleteWhere.mp member).2
  released := by
    intro row member
    simpa using (mem_deleteWhere.mp member).2
  bumped := by
    intro old known
    refine ⟨old + 1, versionOf_bumpWhere ?_ known, by omega⟩
    intro row _ isGateway
    -- The row of the session is still there, with another status.
    refine List.any_eq_true.mpr ⟨_, List.mem_map_of_mem stored, ?_⟩
    split <;> simp [isGateway]

/-- Calling `revoke` again until it returns without an error ends in a full revocation exactly
when every failed attempt had already lost its first statement.
-/
theorem revoke_retried_iff {attempts : List (Nat → Bool)} {last : Nat → Bool}
    {session : SessionRow} (stored : session ∈ db.sessions) (active : session.status = .active)
    (gateway : db.hasGateway session.gatewayId = true)
    (failed : EachFails session.id attempts db)
    (succeeded
      : ∃ revoked,
          (attemptRevoke session.id last (attemptsRevoke session.id attempts db)).1 = .ok revoked)
    : FullyRevoked db (attemptRevoke session.id last (attemptsRevoke session.id attempts db)).2
        session.id session.gatewayId
      ↔ ∀ fails ∈ attempts, fails 0 = true := by
  have running : ¬ db.Ended session.id := fun ended => ended session stored rfl active
  obtain ⟨revoked, succeeded⟩ := succeeded
  rcases attemptsRevoke_cases running failed with ⟨all, same⟩ | ⟨began, ended, gateways⟩
  · refine ⟨fun _ => all, fun _ => ?_⟩
    rw [same] at succeeded ⊢
    rcases attemptRevoke_cases
        with ⟨_, lost⟩ | ⟨_, ended, _⟩ | ⟨_, _, after, partway, _⟩ | ⟨_, _, whole⟩
    · rw [lost] at succeeded
      cases succeeded
    · exact absurd ended running
    · rw [partway] at succeeded
      cases succeeded
    · rw [whole]
      exact revoked_fullyRevoked stored
  · rw [attemptRevoke_of_ended ended]
    constructor
    · intro full
      obtain ⟨row, member, isGateway⟩ := List.any_eq_true.mp gateway
      have known : ∃ old, db.versionOf session.gatewayId = some old := by
        cases found : db.gateways.find? (·.id == session.gatewayId) with
        | none => exact absurd isGateway (by simpa using List.find?_eq_none.mp found row member)
        | some row => exact ⟨row.configVersion, by simp only [Db.versionOf, found, Option.map_some]⟩
      obtain ⟨old, known⟩ := known
      obtain ⟨new, updated, grown⟩ := full.bumped old known
      simp only [Db.versionOf, gateways] at known updated
      rw [known] at updated
      cases updated
      omega
    · intro all
      obtain ⟨fails, member, first⟩ := began
      rw [all fails member] at first
      cases first

end Attempts

/-- The small installation with one session in place. -/
def connectedInstallation : Db := {
  smallInstallation with
  sessions := [⟨6, 1, 2, 4, 3, some 5, some 1, .v4 (.host (BitVec.ofNat 32 0x0A080102)), .active,
    0, seconds 3600⟩]
  wireguardPeers := [⟨7, 6, 4, 2, "qqqqqqqqqqqqqqqqqqqqqqqqqqqqqqqqqqqqqqqqqqo=",
    [.v4 (.host (BitVec.ofNat 32 0x0A080102))], seconds 3600⟩]
  ipamAllocations := [⟨3, .v4 (.host (BitVec.ofNat 32 0x0A080102)), some 6⟩]
}

/-- A revocation whose first attempt never reached the database is made up for. -/
theorem revoke_retried_connected
    : FullyRevoked connectedInstallation
        (attemptRevoke 6 (fun _ => false)
          (attemptsRevoke 6 [fun _ => true] connectedInstallation)).2 6 4 :=
  (@revoke_retried_iff connectedInstallation [fun _ => true] (fun _ => false) _
    List.mem_cons_self rfl rfl ⟨⟨_, rfl⟩, trivial⟩ ⟨true, rfl⟩).mpr (by simp)

/-- One whose first attempt lost the deletion of the peer is not: the next call returns without
an error and the peer stays.
-/
theorem revoke_retried_keeps_peer
    : EachFails 6 [(· == 1)] connectedInstallation
      ∧ (attemptRevoke 6 (fun _ => false)
          (attemptsRevoke 6 [(· == 1)] connectedInstallation)).1 = .ok false
      ∧ ¬ FullyRevoked connectedInstallation
          (attemptRevoke 6 (fun _ => false)
            (attemptsRevoke 6 [(· == 1)] connectedInstallation)).2 6 4 := by
  refine ⟨⟨⟨_, rfl⟩, trivial⟩, rfl, ?_⟩
  intro full
  exact full.peerless _ List.mem_cons_self rfl

end WslVpn
