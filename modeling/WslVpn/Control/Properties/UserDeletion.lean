import WslVpn.Audit.Chain
import WslVpn.Control.Effects
import WslVpn.Control.Routes

/-! Deleting a user. The sessions are ended before the row goes, and the row is gone before the event
that names it is recorded; nothing takes back what was done before a step that fails.
-/

namespace WslVpn

open Interleaving

/-- The handlers that delete a user, with what authenticated the call. -/
inductive DeleteHandler where
  | admin (caller : AuthUser)
  | ops (tokenName : String)
  | scim

namespace DeleteHandler

def call : DeleteHandler → Uuid → Call Fields
  | admin caller => UsersRoute.delete caller
  | ops tokenName => OpsRoute.deleteUser tokenName
  | scim => ScimRoute.deleteUser

/-- The handlers that record the deletion. -/
def records : DeleteHandler → Bool
  | admin _ | ops _ => true
  | scim => false

end DeleteHandler

namespace Db

/-- The session is one of the user's. -/
def sessionOfUser (db : Db) (userId sessionId : Uuid) : Bool :=
  db.sessions.any (fun session => session.id == sessionId && session.userId == userId)

/-- The user has a session that has not ended. -/
def ActiveSessionOf (db : Db) (userId : Uuid) : Prop :=
  ∃ session ∈ db.sessions, session.userId = userId ∧ session.status = .active

/-- The audit log names the user or one of the user's devices. -/
def AuditNames (db : Db) (userId : Uuid) : Prop :=
  db.auditEvents.any (db.auditRefersTo userId) = true

/-- The audit log as the trigger chains it, each event behind the ones before it. `stored` gives the
row its identifier, its time and the text of its details.
-/
def auditLog (formats : Formats) (sha256 : String → String) (stored : AuditEntry → AuditInsert)
    (db : Db) : List AuditRow :=
  backfillFrom formats sha256 0 genesis (db.auditEvents.map stored)

end Db

/-- The user, its sessions, its peers and its allocations are exactly as before. -/
structure Untouched (userId : Uuid) (before after : Db) : Prop where
  user : after.users.filter (·.id == userId) = before.users.filter (·.id == userId)
  sessions
    : after.sessions.filter (·.userId == userId) = before.sessions.filter (·.userId == userId)
  peers
    : after.wireguardPeers.filter (fun peer => before.sessionOfUser userId peer.sessionId)
      = before.wireguardPeers.filter (fun peer => before.sessionOfUser userId peer.sessionId)
  allocations
    : after.ipamAllocations.filter (fun row => row.sessionId.any (before.sessionOfUser userId))
      = before.ipamAllocations.filter (fun row => row.sessionId.any (before.sessionOfUser userId))

/-- The deletion is in an audit log that verifies. -/
structure DeletionRecorded (formats : Formats) (sha256 : String → String)
    (stored : AuditEntry → AuditInsert) (userId : Uuid) (after : Db) : Prop where
  event : ∃ entry ∈ after.auditEvents, entry.action = "user.delete" ∧ entry.userId = some userId
  verifies : auditVerify formats sha256 (after.auditLog formats sha256 stored) = none

/-- What a deletion promises: on success the user is gone, on an error nothing has changed. -/
def DeletionAtomic (formats : Formats) (sha256 : String → String)
    (stored : AuditEntry → AuditInsert) (handler : DeleteHandler) (userId : Uuid) (before : Db)
    : Prop :=
  match (handler.call userId).alone before with
  | (.ok _, after) =>
      after.hasUser userId = false
      ∧ (handler.records = true → DeletionRecorded formats sha256 stored userId after)
  | (.error _, after) => Untouched userId before after

-----------------------------------------------------------------------------------------
-- Ending the sessions
-----------------------------------------------------------------------------------------

/-- What ending some sessions leaves: no table but those of the sessions has changed, and no session
is active that was not.
-/
structure Withdrawn (ended : List Uuid) (before after : Db) : Prop where
  users : after.users = before.users
  devices : after.devices = before.devices
  auditEvents : after.auditEvents = before.auditEvents
  later : ∀ id, before.Ended id → after.Ended id
  ended : ∀ id ∈ ended, after.Ended id

section Sessions

variable {db : Db}

theorem revoke_alone (sessionId : Uuid)
    : ∃ count after, (SessionService.revoke sessionId).alone db = (.ok count, after)
        ∧ Withdrawn [sessionId] db after := by
  have began : (SessionService.revoke sessionId).alone db
      = (if db.sessions.countP (Db.isActiveSession sessionId) = 0 then return false
          else SessionService.dismantle sessionId).alone (db.updateSessionRevoked sessionId) :=
    Program.alone_bind_ok (alone_query_ok rfl)
  have ends : ∀ id ∈ [sessionId], (db.updateSessionRevoked sessionId).Ended id := by
    intro id listed
    rw [List.mem_singleton.mp listed]
    exact updateSessionRevoked_ended
  have later : ∀ id, db.Ended id → (db.updateSessionRevoked sessionId).Ended id := by
    intro id ended session member same
    obtain ⟨old, there, isNow⟩ := mem_updateWhere.mp member
    rw [isNow] at same ⊢
    split
    · simp
    · next inactive =>
        rw [if_neg inactive] at same
        exact ended old there same
  split at began
  · exact ⟨false, _, began, ⟨rfl, rfl, rfl, later, ends⟩⟩
  · exact ⟨true, db.revoked sessionId, began, ⟨rfl, rfl, rfl, later, ends⟩⟩

/-- The loop over the listed sessions, by induction on the list. -/
theorem revokeEach_alone (sessions : List Uuid)
    : ∃ after, (SessionService.revokeEach sessions).alone db = (.ok (), after)
        ∧ Withdrawn sessions db after := by
  induction sessions generalizing db with
  | nil => exact ⟨db, rfl, rfl, rfl, rfl, fun _ ended => ended, by simp⟩
  | cons id rest ih =>
      obtain ⟨count, between, first, one⟩ := @revoke_alone db id
      obtain ⟨after, others, all⟩ := @ih between
      refine ⟨after, (Program.alone_bind_ok first).trans others, ?_⟩
      refine ⟨all.users.trans one.users, all.devices.trans one.devices,
        all.auditEvents.trans one.auditEvents, fun id ended => all.later id (one.later id ended), ?_⟩
      intro other listed
      rcases List.mem_cons.mp listed with rfl | listed
      · exact all.later _ (one.ended _ List.mem_cons_self)
      · exact all.ended other listed

/-- The database once the sessions of the user have ended. -/
theorem revokeUserSessions_alone (userId : Uuid)
    : ∃ after, (SessionService.revokeUserSessions userId).alone db = (.ok (), after)
        ∧ after.users = db.users ∧ after.devices = db.devices ∧ after.auditEvents = db.auditEvents
        ∧ (¬ db.ActiveSessionOf userId → after = db)
        ∧ (db.ActiveSessionOf userId → ¬ Untouched userId db after) := by
  let ids := (db.sessions.filter (fun row => row.userId == userId && row.status == .active)).map
    (·.id)
  obtain ⟨after, ran, withdrawn⟩ := @revokeEach_alone db ids
  have whole : (SessionService.revokeUserSessions userId).alone db = (.ok (), after) :=
    (Program.alone_bind_ok (alone_query_ok rfl)).trans ran
  refine ⟨after, whole, withdrawn.users, withdrawn.devices, withdrawn.auditEvents, ?_, ?_⟩
  · intro none
    have empty : ids = [] := by
      refine List.map_eq_nil_iff.mpr (List.filter_eq_nil_iff.mpr ?_)
      intro session there isActive
      simp only [Bool.and_eq_true, beq_iff_eq] at isActive
      exact none ⟨session, there, isActive⟩
    rw [empty] at ran
    cases ran
    rfl
  · intro active untouched
    obtain ⟨session, there, own, active⟩ := active
    have listed : session.id ∈ ids := by
      refine List.mem_map_of_mem (List.mem_filter.mpr ⟨there, ?_⟩)
      simp [own, active]
    have kept : session ∈ after.sessions.filter (·.userId == userId) := by
      rw [untouched.sessions]
      exact List.mem_filter.mpr ⟨there, by simp [own]⟩
    exact withdrawn.ended _ listed session (List.mem_of_mem_filter kept) rfl active

end Sessions

-----------------------------------------------------------------------------------------
-- Deleting the row, and recording it
-----------------------------------------------------------------------------------------

section Deletion

variable {db : Db}

theorem Untouched.refl (userId : Uuid) (db : Db) : Untouched userId db db :=
  ⟨rfl, rfl, rfl, rfl⟩

/-- A user who is gone is not as before. -/
theorem not_untouched_of_gone {userId : Uuid} {after : Db} (there : db.hasUser userId = true)
    (gone : after.hasUser userId = false)
    : ¬ Untouched userId db after := by
  intro untouched
  obtain ⟨user, member, same⟩ := List.any_eq_true.mp there
  have kept : user ∈ after.users.filter (·.id == userId) := by
    rw [untouched.user]
    exact List.mem_filter.mpr ⟨member, same⟩
  have still : after.hasUser userId = true :=
    List.any_eq_true.mpr ⟨user, List.mem_of_mem_filter kept, same⟩
  rw [gone] at still
  cases still

/-- What the statement that deletes the row does: nothing to a user who is not there, and the log
refuses it where it names the user.
-/
theorem deleteUser_cases (userId : Uuid)
    : (db.hasUser userId = false ∧ db.deleteUser userId = .ok (0, db))
      ∨ (db.hasUser userId = true ∧ db.AuditNames userId ∧ ∃ fault, db.deleteUser userId = .error fault)
      ∨ (db.hasUser userId = true ∧ ¬ db.AuditNames userId
        ∧ ∃ after, db.deleteUser userId = .ok (1, after) ∧ after.hasUser userId = false) := by
  cases there : db.hasUser userId with
  | false =>
      refine Or.inl ⟨rfl, ?_⟩
      simp only [Db.deleteUser, there, Bool.not_false, if_true]
  | true =>
      refine Or.inr ?_
      by_cases named : db.AuditNames userId
      · refine Or.inl ⟨rfl, named, ?_⟩
        simp only [Db.deleteUser, there, Bool.not_true, Bool.false_eq_true, if_false]
        exact ⟨_, if_pos named⟩
      · refine Or.inr ⟨rfl, named, ?_⟩
        simp only [Db.deleteUser, there, Bool.not_true, Bool.false_eq_true, if_false]
        refine ⟨_, if_neg named, ?_⟩
        simp [Db.hasUser]

/-- Everything that `UserService::delete` can do. The sessions have ended in each case. -/
theorem delete_cases (userId : Uuid)
    : ∃ between, (Untouched userId db between ↔ ¬ db.ActiveSessionOf userId)
        ∧ ((db.hasUser userId = false
            ∧ (UserService.delete userId).alone db = (.ok false, between))
          ∨ (db.hasUser userId = true ∧ db.AuditNames userId
            ∧ (UserService.delete userId).alone db = (.error .db, between))
          ∨ (db.hasUser userId = true ∧ ¬ db.AuditNames userId
            ∧ ∃ after, (UserService.delete userId).alone db = (.ok true, after)
                ∧ after.hasUser userId = false)) := by
  obtain ⟨between, revoked, users, devices, auditEvents, idle, ended⟩ :=
    @revokeUserSessions_alone db userId
  have untouched : Untouched userId db between ↔ ¬ db.ActiveSessionOf userId := by
    constructor
    · intro untouched active
      exact ended active untouched
    · intro none
      rw [idle none]
      exact .refl userId db
  have known : between.hasUser userId = db.hasUser userId := by
    rw [Db.hasUser, users, ← Db.hasUser]
  have names : between.AuditNames userId ↔ db.AuditNames userId := by
    have owns : between.ownsDevice userId = db.ownsDevice userId := by
      funext id
      rw [Db.ownsDevice, devices, ← Db.ownsDevice]
    have refers : between.auditRefersTo userId = db.auditRefersTo userId := by
      funext entry
      simp only [Db.auditRefersTo, owns]
    rw [Db.AuditNames, auditEvents, refers, Db.AuditNames]
  have goesOn : (UserService.delete userId).alone db
      = (do
          let affected : Nat ← query (.deleteUser userId)
          return decide (0 < affected) : Call Bool).alone between :=
    Program.alone_bind_ok revoked
  refine ⟨between, untouched, ?_⟩
  rw [← known, ← names, goesOn]
  rcases @deleteUser_cases between userId with
    ⟨absent, ran⟩ | ⟨there, named, fault, refused⟩ | ⟨there, free, after, ran, gone⟩
  · have answered : (Statement.deleteUser userId).exec between = .ok (0, between) := ran
    exact Or.inl ⟨absent, Program.alone_bind_ok (alone_query_ok answered)⟩
  · exact Or.inr (Or.inl ⟨there, named, Program.alone_bind_error (alone_query_error refused)⟩)
  · have answered : (Statement.deleteUser userId).exec between = .ok (1, after) := ran
    exact Or.inr (Or.inr ⟨there, free, after, Program.alone_bind_ok (alone_query_ok answered),
      gone⟩)

/-- An event about a user who is gone cannot be recorded. -/
theorem record_gone {Value : Type} {entry : AuditEntry} {userId : Uuid}
    {rest : Unit → Call Value} (names : entry.userId = some userId)
    (gone : db.hasUser userId = false)
    : (AuditService.record entry >>= rest).alone db = (.error .db, db) := by
  have refused : (Statement.insertAuditEvent entry).exec db = .error .foreignKeyViolation := by
    simp only [Statement.exec, Db.insertAuditEvent, names, Db.optionally, gone, Bool.false_and,
      Bool.false_eq_true, if_false]
  exact Program.alone_bind_error (alone_query_error refused)

variable {formats : Formats} {sha256 : String → String} {stored : AuditEntry → AuditInsert}
  {handler : DeleteHandler} {userId : Uuid} {after : Db}

theorem deletionAtomic_of_ok {value : Fields}
    (ran : (handler.call userId).alone db = (.ok value, after))
    : DeletionAtomic formats sha256 stored handler userId db
      ↔ after.hasUser userId = false
        ∧ (handler.records = true → DeletionRecorded formats sha256 stored userId after) := by
  rw [DeletionAtomic, ran]

theorem deletionAtomic_of_error {error : AppError}
    (ran : (handler.call userId).alone db = (.error error, after))
    : DeletionAtomic formats sha256 stored handler userId db ↔ Untouched userId db after := by
  rw [DeletionAtomic, ran]

theorem scim_deletion_iff
    : DeletionAtomic formats sha256 stored .scim userId db
      ↔ (db.hasUser userId = true ∧ ¬ db.AuditNames userId) ∨ ¬ db.ActiveSessionOf userId := by
  obtain ⟨between, untouched, cases⟩ := @delete_cases db userId
  rcases cases with ⟨absent, ran⟩ | ⟨_, named, ran⟩ | ⟨there, free, after, ran, gone⟩
  · have course : (DeleteHandler.scim.call userId).alone db = (.error .notFound, between) :=
      Program.alone_bind_ok ran
    rw [deletionAtomic_of_error course, untouched]
    simp [absent]
  · have course : (DeleteHandler.scim.call userId).alone db = (.error .db, between) :=
      Program.alone_bind_error ran
    rw [deletionAtomic_of_error course, untouched]
    simp [named]
  · have course : (DeleteHandler.scim.call userId).alone db = (.ok [], after) :=
      Program.alone_bind_ok ran
    rw [deletionAtomic_of_ok course]
    exact iff_of_true ⟨gone, fun records => by cases records⟩ (Or.inl ⟨there, free⟩)

/-- The event of a deletion names a user who is gone by then, so the handler fails behind it. -/
theorem ops_deletion_iff {tokenName : String}
    : DeletionAtomic formats sha256 stored (.ops tokenName) userId db
      ↔ (db.hasUser userId = false ∨ db.AuditNames userId) ∧ ¬ db.ActiveSessionOf userId := by
  obtain ⟨between, untouched, cases⟩ := @delete_cases db userId
  rcases cases with ⟨absent, ran⟩ | ⟨_, named, ran⟩ | ⟨there, free, after, ran, gone⟩
  · have course : ((DeleteHandler.ops tokenName).call userId).alone db
        = (.error .notFound, between) :=
      Program.alone_bind_ok ran
    rw [deletionAtomic_of_error course, untouched]
    simp [absent]
  · have course : ((DeleteHandler.ops tokenName).call userId).alone db = (.error .db, between) :=
      Program.alone_bind_error ran
    rw [deletionAtomic_of_error course, untouched]
    simp [named]
  · have course : ((DeleteHandler.ops tokenName).call userId).alone db = (.error .db, after) :=
      (Program.alone_bind_ok ran).trans (record_gone rfl gone)
    rw [deletionAtomic_of_error course]
    refine iff_of_false (not_untouched_of_gone there gone) ?_
    intro fine
    rcases fine.1 with absent | named
    · rw [there] at absent
      cases absent
    · exact free named

/-- The same, behind the checks that the administrator is another user and that the user is there.
-/
theorem admin_deletion_iff {caller : AuthUser}
    : DeletionAtomic formats sha256 stored (.admin caller) userId db
      ↔ userId = caller.userId ∨ db.hasUser userId = false
        ∨ (db.AuditNames userId ∧ ¬ db.ActiveSessionOf userId) := by
  by_cases own : userId = caller.userId
  · have course : ((DeleteHandler.admin caller).call userId).alone db
        = (.error (.badRequest "an administrator cannot delete their own account"), db) := by
      rw [DeleteHandler.call, UsersRoute.delete, if_pos own]
      rfl
    rw [deletionAtomic_of_error course]
    exact iff_of_true (.refl userId db) (Or.inl own)
  · cases known : db.userOf userId with
    | none =>
        have absent : db.hasUser userId = false := by
          rw [Db.hasUser, List.any_eq_false]
          exact List.find?_eq_none.mp (Option.map_eq_none_iff.mp known)
        have course : ((DeleteHandler.admin caller).call userId).alone db
            = (.error .notFound, db) := by
          rw [DeleteHandler.call, UsersRoute.delete, if_neg own, UserService.get]
          refine (Program.alone_bind_ok (alone_query_ok rfl)).trans ?_
          rw [known]
          rfl
        rw [deletionAtomic_of_error course]
        exact iff_of_true (.refl userId db) (Or.inr (Or.inl absent))
    | some target =>
        have there : db.hasUser userId = true := by
          obtain ⟨row, found, _⟩ := Option.map_eq_some_iff.mp known
          have same := List.find?_some found
          exact List.any_eq_true.mpr ⟨row, List.mem_of_find?_eq_some found, same⟩
        have goesOn : ((DeleteHandler.admin caller).call userId).alone db
            = (do
                let deleted ← UserService.delete userId
                if !deleted then throw .notFound
                else
                  AuditService.record (((((AuditEntry.new "user.delete").decided "allow").byUser
                    caller.userId caller.email).subject userId).about target.email)
                  return [("deleted", .flag true)] : Call Fields).alone db := by
          rw [DeleteHandler.call, UsersRoute.delete, if_neg own, UserService.get]
          refine (Program.alone_bind_ok (alone_query_ok rfl)).trans ?_
          rw [known]
        obtain ⟨between, untouched, cases⟩ := @delete_cases db userId
        rcases cases with ⟨absent, _⟩ | ⟨_, named, ran⟩ | ⟨_, free, after, ran, gone⟩
        · rw [there] at absent
          cases absent
        · rw [deletionAtomic_of_error (goesOn.trans (Program.alone_bind_error ran)), untouched]
          simp [own, there, named]
        · have course : ((DeleteHandler.admin caller).call userId).alone db = (.error .db, after) :=
            goesOn.trans ((Program.alone_bind_ok ran).trans (record_gone rfl gone))
          rw [deletionAtomic_of_error course]
          refine iff_of_false (not_untouched_of_gone there gone) ?_
          simp [own, there, free]

end Deletion

/-- When deleting a user, by each of the handlers, either succeeds or changes nothing. No deletion by an
administrator or a provisioning token succeeds: the event that records it is refused.
-/
theorem user_deletion_iff (formats : Formats) (sha256 : String → String)
    (stored : AuditEntry → AuditInsert) (db : Db) (userId : Uuid)
    : (∀ caller, DeletionAtomic formats sha256 stored (.admin caller) userId db
        ↔ userId = caller.userId ∨ db.hasUser userId = false
          ∨ (db.AuditNames userId ∧ ¬ db.ActiveSessionOf userId))
      ∧ (∀ tokenName, DeletionAtomic formats sha256 stored (.ops tokenName) userId db
        ↔ (db.hasUser userId = false ∨ db.AuditNames userId) ∧ ¬ db.ActiveSessionOf userId)
      ∧ (DeletionAtomic formats sha256 stored .scim userId db
        ↔ (db.hasUser userId = true ∧ ¬ db.AuditNames userId) ∨ ¬ db.ActiveSessionOf userId) :=
  ⟨fun _ => admin_deletion_iff, fun _ => ops_deletion_iff, scim_deletion_iff⟩

/-- An administrator and a user whom the directory has just provisioned. -/
def office : Db := {
  Db.empty 0 with
  users := [⟨1, "ada@example.com", none, none, true, .admin⟩,
    ⟨2, "bob@example.com", none, some "bob", true, .member⟩]
}

/-- The administrator is told of an error, and the user is gone all the same. -/
theorem deleted_despite_error
    : office.hasUser 2 = true
      ∧ ((UsersRoute.delete ⟨1, "ada@example.com", .admin⟩ 2).alone office).1 = .error .db
      ∧ ((UsersRoute.delete ⟨1, "ada@example.com", .admin⟩ 2).alone office).2.hasUser 2
        = false := by
  decide +kernel

end WslVpn
