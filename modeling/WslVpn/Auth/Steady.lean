import WslVpn.Auth.SignIns
import WslVpn.Auth.Writes

/-! What sign-ins and provisioning calls keep of the accounts, whoever's request comes next. -/

namespace WslVpn.Auth

open Transactions.Locking

section Plans

variable {tables : Accounts} {lower : String → String} {writes : List Write}

theorem plan_look {statement : Statement} {reply : statement.Reply} (looks : Looks statement)
    (planned : statement.plan lower tables = .ok (reply, writes))
    : writes = [] := by
  cases looks <;>
    · cases planned
      rfl

/-- A row that a sign-in writes is a new user's, or has the user as active as before. -/
def KeepsActive (tables : Accounts) (row : UserRow) : Prop :=
  tables.hasUser row.id = false
    ∨ ∃ stored ∈ tables.users, stored.id = row.id ∧ stored.active = row.active

/-- By cases on the statement. -/
theorem plan_signIn {statement : Statement} {reply : statement.Reply}
    (signsIn : SignInStatement statement)
    (planned : statement.plan lower tables = .ok (reply, writes))
    : (∀ id, Write.deleteUser id ∉ writes) ∧ ∀ row, Write.user row ∈ writes
      → KeepsActive tables row := by
  cases signsIn with
  | looks looks =>
      rw [plan_look looks planned]
      simp
  | carries issuer subject email =>
      simp only [Statement.plan] at planned
      split at planned <;>
        · cases planned
          simp
  | moves id email =>
      simp only [Statement.plan] at planned
      split at planned
      · cases planned
        simp
      · next stored found =>
          cases planned
          refine ⟨by simp, ?_⟩
          intro row member
          cases List.mem_singleton.mp member
          exact Or.inr ⟨stored, List.mem_of_find?_eq_some found, rfl, rfl⟩
  | creates row =>
      simp only [Statement.plan] at planned
      split at planned
      · cases planned
      · next free =>
          cases planned
          refine ⟨by simp, ?_⟩
          intro written member
          cases List.mem_singleton.mp member
          exact Or.inl (Bool.eq_false_iff.mpr free)
  | binds row =>
      simp only [Statement.plan] at planned
      split at planned
      · cases planned
      · cases planned
        simp
  | checks id =>
      cases planned
      simp

/-- The request takes the user's access away. -/
inductive Withdraws : Request → Uuid → Prop where
  | deactivates {request : UpdateUserRequest} {id : Uuid} (inactive : request.active = some false)
    : Withdraws (.auto (.updateUser id request)) id
  | deletes {id : Uuid} : Withdraws (.auto (.deleteUser id)) id

/-- What a provisioning call writes leaves an active user active, unless it withdraws their access.
-/
theorem plan_provision {statement : Statement} {reply : statement.Reply} {id : Uuid}
    (provisions : Provisions (.auto statement)) (good : tables.Good) (active : Active tables id)
    (stays : ¬ Withdraws (.auto statement) id)
    (planned : statement.plan lower tables = .ok (reply, writes))
    : (∀ row, Write.user row ∈ writes → row.id = id → row.active = true)
      ∧ Write.deleteUser id ∉ writes := by
  obtain ⟨user, there, rfl, up⟩ := active
  cases provisions with
  | create freshId request =>
      simp only [Statement.plan] at planned
      split at planned
      · next stored found =>
          split at planned
          · cases planned
            refine ⟨?_, by simp⟩
            intro row member same
            cases List.mem_singleton.mp member
            exact (good.ids stored (List.mem_of_find?_eq_some found) user there same) ▸ up
          · cases planned
            simp
      · split at planned
        · cases planned
        · next free =>
            cases planned
            refine ⟨?_, by simp⟩
            intro row member same
            cases List.mem_singleton.mp member
            exact absurd (Accounts.hasUser_iff.mpr ⟨user, there, same.symm⟩) free
  | update target request =>
      simp only [Statement.plan] at planned
      split at planned
      · cases planned
        simp
      · next stored found =>
          cases planned
          refine ⟨?_, by simp⟩
          intro row member same
          cases List.mem_singleton.mp member
          have named : stored.id = target := by simpa using List.find?_some found
          have same : stored.id = user.id := same
          have own : stored = user :=
            good.ids stored (List.mem_of_find?_eq_some found) user there same
          change request.active.getD stored.active = true
          cases asked : request.active with
          | none =>
              rw [own]
              exact up
          | some value =>
              cases value with
              | true => rfl
              | false =>
                  rw [← same, named] at stays
                  exact absurd (.deactivates asked) stays
  | delete target =>
      simp only [Statement.plan] at planned
      split at planned
      · cases planned
        simp
      · cases planned
        refine ⟨by simp, ?_⟩
        intro member
        cases List.mem_singleton.mp member
        exact stays .deletes

/-- A provisioning call deletes nobody but by its statement, and then that user is gone. -/
theorem plan_deletes {statement : Statement} {reply : statement.Reply} {id : Uuid}
    (provisions : Provisions (.auto statement))
    (planned : statement.plan lower tables = .ok (reply, writes))
    (deletes : Write.deleteUser id ∈ writes)
    : writes = [.deleteUser id] := by
  cases provisions with
  | create freshId request =>
      simp only [Statement.plan] at planned
      split at planned
      · split at planned <;>
          · cases planned
            simp at deletes
      · split at planned
        · cases planned
        · cases planned
          simp at deletes
  | update target request =>
      simp only [Statement.plan] at planned
      split at planned <;>
        · cases planned
          simp at deletes
  | delete target =>
      simp only [Statement.plan] at planned
      split at planned
      · cases planned
        simp at deletes
      · cases planned
        rw [List.mem_singleton.mp deletes]

end Plans

-----------------------------------------------------------------------------------------
-- Open transactions and the users' activity
-----------------------------------------------------------------------------------------

/-- An open transaction deletes nobody, and has each user that it has written as active as they are.
-/
structure Steady (accounts : Shared Accounts Write) : Prop where
  valid : Valid accounts
  noDeletes : ∀ held ∈ accounts.pending, ∀ id, Write.deleteUser id ∉ held.writes
  agree
    : ∀ held ∈ accounts.pending, ∀ row, Write.user row ∈ held.writes
        → ∀ stored ∈ accounts.committed.users, stored.id = row.id → stored.active = row.active

/-- The request is one that a sign-in or a provisioning call sends. -/
def Binds (request : Request)
    : Prop := (∃ connection, OfSignIn connection request) ∨ Provisions request

section Steady

variable {accounts : Shared Accounts Write} {connection : Nat} {db after : AuthDb} {id : Uuid}

theorem Steady.start {tables : Accounts} (good : tables.Good) : Steady (.start tables) := by
  refine ⟨.start good, ?_, ?_⟩
  · intro held member
    cases member
  · intro held member
    cases member

/-- What the transaction of the connection has written, or nothing. -/
theorem Steady.written (steady : Steady accounts)
    : (∀ id, Write.deleteUser id ∉ (accounts.written connection).getD [])
      ∧ ∀ row, Write.user row ∈ (accounts.written connection).getD []
        → ∀ stored ∈ accounts.committed.users, stored.id = row.id → stored.active = row.active := by
  cases opened : accounts.written connection with
  | none => simp
  | some writes =>
      have member := mem_of_written opened
      exact ⟨steady.noDeletes _ member, steady.agree _ member⟩

/-- A user in a view is as active as they are in the committed rows, if they are there. -/
theorem Steady.view_active (steady : Steady accounts) {row stored : UserRow}
    (seen : row ∈ (accounts.view rules connection).users)
    (there : stored ∈ accounts.committed.users)
    (same : stored.id = row.id)
    : stored.active = row.active := by
  rcases mem_users_applyAll seen with before | written
  · rw [steady.valid.good.ids stored there row before same]
  · exact steady.written.2 row written stored there same

/-- By cases on what the request does. -/
theorem Steady.step {request : Request} {reply : request.Reply} (steady : Steady db.accounts)
    (binds : Binds request) (ran : request.exec db = .ok (reply, after))
    : Steady after.accounts := by
  have valid : Valid after.accounts := steady.valid.step ran
  have effect := effect_of_exec ran
  generalize after.accounts = accounts at effect valid ⊢
  cases effect with
  | begin closed =>
      refine ⟨valid, ?_, ?_⟩
      · intro held member
        rcases List.mem_append.mp member with old | new
        · exact steady.noDeletes held old
        · rw [List.mem_singleton.mp new]
          simp
      · intro held member
        rcases List.mem_append.mp member with old | new
        · exact steady.agree held old
        · rw [List.mem_singleton.mp new]
          simp
  | @within connection statement reply held writes opened planned fine free =>
      have signsIn : SignInStatement statement := by
        rcases binds with ⟨other, own⟩ | provisions
        · rcases own with same | ⟨_, same, signsIn⟩ | same | same
          · cases same
          · cases same
            exact signsIn
          · cases same
          · cases same
        · cases provisions
      obtain ⟨noDeletes, keeps⟩ := plan_signIn signsIn planned
      refine ⟨valid, ?_, ?_⟩
      · intro old member
        obtain ⟨held, there, rfl⟩ := List.mem_map.mp member
        split
        · intro id inside
          rcases List.mem_append.mp inside with before | new
          · exact steady.noDeletes held there id before
          · exact noDeletes id new
        · exact steady.noDeletes held there
      · intro old member
        obtain ⟨held, there, rfl⟩ := List.mem_map.mp member
        split
        · intro row inside stored committed same
          rcases List.mem_append.mp inside with before | new
          · exact steady.agree held there row before stored committed same
          · rcases keeps row new with absent | ⟨seen, inView, named, active⟩
            · obtain ⟨now, inView, named⟩ := users_kept committed (steady.written.1 stored.id)
              have known : (db.accounts.view rules connection).hasUser row.id = true :=
                Accounts.hasUser_iff.mpr ⟨now, inView, named.trans same⟩
              rw [absent] at known
              cases known
            · rw [← active]
              exact steady.view_active inView committed (same.trans named.symm)
        · exact steady.agree held there
  | @commit connection writes opened =>
      refine ⟨valid, ?_, ?_⟩
      · exact fun held member => steady.noDeletes held (List.mem_of_mem_filter member)
      · intro held member row written stored committed same
        obtain ⟨there, apart⟩ := List.mem_filter.mp member
        rcases mem_users_applyAll committed with before | own
        · exact steady.agree held there row written stored before same
        · have ownMember := mem_of_written opened
          rw [opened, Option.getD_some] at own
          have free := steady.valid.sound.apart held there _ ownMember (by simpa using apart)
          have clash : rules.clashes held.writes writes = true := by
            refine List.any_eq_true.mpr ⟨_, written, List.any_eq_true.mpr ⟨_, own, ?_⟩⟩
            simp [clash, same]
          rw [free] at clash
          cases clash
  | rollback =>
      refine ⟨valid, ?_, ?_⟩
      · exact fun held member => steady.noDeletes held (List.mem_of_mem_filter member)
      · exact fun held member => steady.agree held (List.mem_of_mem_filter member)
  | @auto statement reply writes planned fine free =>
      refine ⟨valid, steady.noDeletes, ?_⟩
      intro held there row written stored committed same
      rcases mem_users_applyAll committed with before | own
      · exact steady.agree held there row written stored before same
      · have clash : rules.clashes held.writes writes = true := by
          refine List.any_eq_true.mpr ⟨_, written, List.any_eq_true.mpr ⟨_, own, ?_⟩⟩
          simp [clash, same]
        rw [free held there] at clash
        cases clash
  | elsewhere other => exact steady

/-- A statement of its own is a provisioning call's. -/
theorem provisions_of_binds {statement : Statement} (binds : Binds (.auto statement))
    : Provisions (.auto statement) := by
  rcases binds with ⟨other, own⟩ | provisions
  · rcases own with same | ⟨_, same, _⟩ | same | same <;> cases same
  · exact provisions

/-- A binding stays with its user, or the user is gone, by cases on what the request does. -/
theorem Steady.binding_step {request : Request} {reply : request.Reply}
    (steady : Steady db.accounts)
    (binds : Binds request) (ran : request.exec db = .ok (reply, after)) {binding : IdentityRow}
    (there : binding ∈ db.accounts.committed.identities)
    : (∃ now ∈ after.accounts.committed.identities,
        now.issuer = binding.issuer ∧ now.subject = binding.subject ∧ now.userId = binding.userId)
      ∨ after.accounts.committed.hasUser binding.userId = false := by
  have effect := effect_of_exec ran
  generalize after.accounts = accounts at effect ⊢
  cases effect with
  | begin closed => exact Or.inl ⟨binding, there, rfl, rfl, rfl⟩
  | within opened planned fine free => exact Or.inl ⟨binding, there, rfl, rfl, rfl⟩
  | rollback => exact Or.inl ⟨binding, there, rfl, rfl, rfl⟩
  | elsewhere other => exact Or.inl ⟨binding, there, rfl, rfl, rfl⟩
  | commit opened =>
      have member := mem_of_written opened
      have kept := binding_kept there (steady.valid.sound.admitted _ member)
        (steady.noDeletes _ member binding.userId)
      refine Or.inl ?_
      change ∃ now ∈ (db.accounts.view rules _).identities, _
      rw [Shared.view, opened]
      exact kept
  | @auto statement reply writes planned fine free =>
      by_cases deletes : Write.deleteUser binding.userId ∈ writes
      · refine Or.inr ?_
        have only := plan_deletes (provisions_of_binds binds) planned deletes
        change (rules.applyAll db.accounts.committed writes).hasUser binding.userId = false
        rw [only, Bool.eq_false_iff]
        intro known
        obtain ⟨row, left, named⟩ := Accounts.hasUser_iff.mp known
        exact (mem_users_delete.mp left).2 named
      · exact Or.inl (binding_kept there fine deletes)

/-- The committed rows change only when a sign-in commits. -/
theorem committed_of_signIn {request : Request} {reply : request.Reply}
    (own : OfSignIn connection request) (other : request ≠ .commit connection)
    (ran : request.exec db = .ok (reply, after))
    : after.accounts.committed = db.accounts.committed := by
  have effect := effect_of_exec ran
  generalize after.accounts = accounts at effect ⊢
  rcases own with rfl | ⟨statement, rfl, _⟩ | rfl | rfl
  · cases effect with
    | begin closed => rfl
    | elsewhere other => rfl
  · cases effect with
    | within opened planned fine free => rfl
    | elsewhere other => rfl
  · exact absurd rfl other
  · cases effect with
    | rollback => rfl
    | elsewhere other => rfl

/-- A sign-in activates nobody. -/
theorem Steady.inactive_step {request : Request} {reply : request.Reply}
    (steady : Steady db.accounts)
    (own : OfSignIn connection request) (ran : request.exec db = .ok (reply, after))
    {row now : UserRow}
    (there : row ∈ db.accounts.committed.users) (inactive : row.active = false)
    (thereNow : now ∈ after.accounts.committed.users) (same : now.id = row.id)
    : now.active = false := by
  by_cases commits : request = .commit connection
  · subst commits
    obtain ⟨_, rfl⟩ := commit_cases ran
    rw [← steady.view_active thereNow there same.symm]
    exact inactive
  · rw [committed_of_signIn own commits ran] at thereNow
    rw [steady.valid.good.ids now thereNow row there same]
    exact inactive

/-- The request is another call's: it is none of the connection's transaction. -/
def Elsewhere (connection : Nat) (request : Request) : Prop :=
  (∃ other, other ≠ connection ∧ OfSignIn other request) ∨ Provisions request

theorem Elsewhere.binds {request : Request} (elsewhere : Elsewhere connection request)
    : Binds request := by
  rcases elsewhere with ⟨other, _, own⟩ | provisions
  · exact Or.inl ⟨other, own⟩
  · exact Or.inr provisions

/-- A transaction that another call works in is another one. -/
theorem Elsewhere.apart {request : Request} (elsewhere : Elsewhere connection request) {other : Nat}
    (named
      : request = .begin other ∨ (∃ statement, request = .within other statement)
          ∨ request = .commit other ∨ request = .rollback other)
    : other ≠ connection := by
  rcases elsewhere with ⟨own, different, sends⟩ | provisions
  · rcases named with rfl | ⟨_, rfl⟩ | rfl | rfl <;>
      rcases sends with same | ⟨_, same, _⟩ | same | same <;> cases same <;>
      exact different
  · rcases named with rfl | ⟨_, rfl⟩ | rfl | rfl <;> cases provisions

/-- What another call does, and what it leaves as it is. -/
theorem Elsewhere.cases {request : Request} {reply : request.Reply}
    (elsewhere : Elsewhere connection request) (ran : request.exec db = .ok (reply, after))
    : after.accounts.written connection = db.accounts.written connection
      ∧ (after.accounts.committed = db.accounts.committed
        ∨ (∃ other writes, db.accounts.written other = some writes
            ∧ after.accounts.committed = rules.applyAll db.accounts.committed writes)
        ∨ ∃ statement reply writes, request = .auto statement
            ∧ statement.plan db.lower db.accounts.committed = .ok (reply, writes)
            ∧ after.accounts.committed = rules.applyAll db.accounts.committed writes) := by
  have effect := effect_of_exec ran
  generalize after.accounts = accounts at effect ⊢
  cases effect with
  | begin closed => exact ⟨written_begin_other (elsewhere.apart (Or.inl rfl)), Or.inl rfl⟩
  | within opened planned fine free =>
      exact ⟨written_append_other (elsewhere.apart (Or.inr (Or.inl ⟨_, rfl⟩))), Or.inl rfl⟩
  | @commit other writes opened =>
      have different := elsewhere.apart (Or.inr (Or.inr (Or.inl rfl)))
      refine ⟨written_commit_other different, Or.inr (Or.inl ⟨other, writes, opened, ?_⟩)⟩
      change db.accounts.view rules other = _
      rw [Shared.view, opened]
      rfl
  | rollback =>
      exact ⟨written_rollback_other (elsewhere.apart (Or.inr (Or.inr (Or.inr rfl)))), Or.inl rfl⟩
  | @auto statement answer writes planned fine free =>
      exact ⟨rfl, Or.inr (Or.inr ⟨statement, answer, writes, rfl, planned, rfl⟩)⟩
  | elsewhere other => exact ⟨rfl, Or.inl rfl⟩

/-- A user who is active in a view stays so whatever another call does, unless it withdraws their access.
The row that the view shows is a committed one, or one of the transaction's own.
-/
theorem Steady.view_active_elsewhere {request : Request} {reply : request.Reply}
    (steady : Steady db.accounts) (elsewhere : Elsewhere connection request)
    (stays : Active db.accounts.committed id → ¬ Withdraws request id)
    (ran : request.exec db = .ok (reply, after))
    (active : Active (db.accounts.view rules connection) id)
    : Active (after.accounts.view rules connection) id := by
  obtain ⟨written, changes⟩ := elsewhere.cases ran
  have committed : Active db.accounts.committed id → Active after.accounts.committed id := by
    intro active
    rcases changes
        with same | ⟨other, writes, opened, changed⟩ | ⟨statement, _, writes, rfl, planned, changed⟩
    · rw [same]
      exact active
    · rw [changed]
      have member := mem_of_written opened
      refine active.applyAll ?_ (steady.noDeletes _ member id)
      intro row inside named
      obtain ⟨stored, there, storedNamed, up⟩ := active
      rw [← steady.agree _ member row inside stored there (storedNamed.trans named.symm)]
      exact up
    · rw [changed]
      obtain ⟨versions, kept⟩ :=
        plan_provision (provisions_of_binds elsewhere.binds) steady.valid.good
        active (stays active) planned
      exact active.applyAll versions kept
  obtain ⟨row, seen, rfl, up⟩ := active
  rw [Shared.view, written]
  rcases origin_of_user steady.written.1 seen with ⟨there, spares⟩ | own
  · obtain ⟨now, thereNow, named, upNow⟩ := committed ⟨row, there, rfl, up⟩
    exact ⟨now, mem_users_spared thereNow (named ▸ spares), named, upNow⟩
  · exact ⟨row, own _, rfl, up⟩

end Steady

end WslVpn.Auth
