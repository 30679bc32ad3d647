import WslVpn.Auth.Alone

/-! What the start of the process makes of the users: it grants the role to the listed addresses, one
statement for each, and takes it from all others in one more.
-/

namespace WslVpn.Auth

open Interleaving Transactions.Locking

/-- The addresses of the configuration, trimmed and in lower case, without the blank ones. -/
def listedAdmins (config : AuthConfig) : List String :=
  (config.adminEmails.map (fun email => config.toLowercase (trimmed email))).filter (· ≠ "")

/-- The addresses are acted on where there are any. -/
theorem reconcileAdmins_acts (config : AuthConfig) (freshId : String → Uuid)
    (acts : listedAdmins config ≠ [])
    : reconcileAdmins config freshId
      = (do
          grantAdmins freshId (listedAdmins config)
          let _ : Nat ← send (.auto (.demoteOthers (listedAdmins config)))
          return ()) := by
  rw [reconcileAdmins]
  exact if_neg acts

-----------------------------------------------------------------------------------------
-- Rows
-----------------------------------------------------------------------------------------

section Rows

variable (emails : List String) (lower : String → String) (row : UserRow)

/-- A row behind the grants. -/
def granted : UserRow := if row.email ∈ emails then { row with role := .admin } else row

/-- A row behind the demotion. -/
def demoted : UserRow :=
  if row.role = .admin ∧ lower row.email ∉ emails then { row with role := .member } else row

@[simp] theorem granted_id : (granted emails row).id = row.id := by
  unfold granted
  split <;> rfl

@[simp] theorem granted_email : (granted emails row).email = row.email := by
  unfold granted
  split <;> rfl

@[simp] theorem demoted_id : (demoted emails lower row).id = row.id := by
  unfold demoted
  split <;> rfl

@[simp] theorem demoted_email : (demoted emails lower row).email = row.email := by
  unfold demoted
  split <;> rfl

theorem granted_role : (granted emails row).role = .admin ↔ row.role = .admin ∨ row.email ∈ emails := by
  by_cases listed : row.email ∈ emails <;> simp [granted, listed]

theorem demoted_role
    : (demoted emails lower row).role = .admin ↔ row.role = .admin ∧ lower row.email ∈ emails := by
  by_cases admin : row.role = .admin <;> by_cases listed : lower row.email ∈ emails <;>
    simp [demoted, admin, listed]

/-- Nothing but the role changes. -/
theorem granted_eq : granted emails row = { row with role := (granted emails row).role } := by
  by_cases listed : row.email ∈ emails <;> simp [granted, listed]

theorem demoted_eq : demoted emails lower row = { row with role := (demoted emails lower row).role } := by
  by_cases taken : row.role = .admin ∧ lower row.email ∉ emails <;> simp [demoted, taken]

theorem granted_of_role (kept : row.role = .admin ∨ row.email ∉ emails) : granted emails row = row := by
  by_cases listed : row.email ∈ emails
  · rw [granted, if_pos listed, ← kept.resolve_right (not_not_intro listed)]
  · exact if_neg listed

theorem demoted_of_role (kept : row.role ≠ .admin ∨ lower row.email ∈ emails)
    : demoted emails lower row = row :=
  if_neg (fun taken => kept.elim (· taken.1) (taken.2 ·))

theorem granted_cons (email : String)
    : granted emails (granted [email] row) = granted (email :: emails) row := by
  by_cases here : row.email = email
  · by_cases listed : email ∈ emails <;> simp [granted, here, listed]
  · by_cases listed : row.email ∈ emails <;> simp [granted, here, listed]

/-- A row that has been through both stays as it is, by cases on whether it is demoted. -/
theorem reconciled_twice
    : demoted emails lower (granted emails (demoted emails lower (granted emails row)))
      = demoted emails lower (granted emails row) := by
  by_cases listed : lower row.email ∈ emails
  · have first : demoted emails lower (granted emails row) = granted emails row :=
      demoted_of_role _ _ _ (.inr (by simpa using listed))
    rw [first]
    by_cases named : row.email ∈ emails
    · rw [granted_of_role _ (granted emails row) (.inl ((granted_role _ _).mpr (.inr named))), first]
    · rw [granted_of_role _ (granted emails row) (.inr (by simpa using named)), first]
  · by_cases named : row.email ∈ emails
    · simp [granted, demoted, named, listed]
    · rw [granted_of_role _ (demoted _ _ _) (.inr (by simpa using named))]
      apply demoted_of_role
      rw [Ne, demoted_role]
      simp [listed]

end Rows

/-- What the grants leave: every row that there was, and rows for addresses that had none. -/
structure Granted (emails : List String) (before after : Accounts) : Prop where
  kept : ∀ old ∈ before.users, granted emails old ∈ after.users
  origin
    : ∀ row ∈ after.users, (∃ old ∈ before.users, row = granted emails old)
        ∨ row.email ∈ emails ∧ row.role = .admin
          ∧ ∀ old ∈ before.users, old.id ≠ row.id ∧ old.email ≠ row.email
  present : ∀ email ∈ emails, ∃ row ∈ after.users, row.email = email

section Granted

variable {emails : List String} {email : String} {before between after : Accounts}

theorem Granted.nil (tables : Accounts) : Granted [] tables tables := by
  refine ⟨?_, ?_, by simp⟩
  · intro old there
    simpa [granted] using there
  · intro row there
    exact .inl ⟨row, there, by simp [granted]⟩

/-- One grant and then the others. -/
theorem Granted.cons (one : Granted [email] before between) (others : Granted emails between after)
    : Granted (email :: emails) before after := by
  refine ⟨?_, ?_, ?_⟩
  · intro old there
    rw [← granted_cons]
    exact others.kept _ (one.kept old there)
  · intro row there
    rcases others.origin row there with ⟨middle, inside, rfl⟩ | ⟨listed, admin, fresh⟩
    · rcases one.origin middle inside with ⟨old, stored, rfl⟩ | ⟨listed, admin, fresh⟩
      · exact .inl ⟨old, stored, granted_cons _ _ _⟩
      · refine .inr ⟨?_, (granted_role _ _).mpr (.inl admin), ?_⟩
        · rw [granted_email, List.mem_singleton.mp listed]
          exact List.mem_cons_self
        · simpa using fresh
    · refine .inr ⟨List.mem_cons_of_mem _ listed, admin, fun old stored => ?_⟩
      simpa using fresh _ (one.kept old stored)
  · intro other member
    rcases List.mem_cons.mp member with rfl | member
    · obtain ⟨row, there, named⟩ := one.present other List.mem_cons_self
      exact ⟨_, others.kept row there, (granted_email _ _).trans named⟩
    · exact others.present other member

section Upsert

variable {tables : Accounts}

/-- The address is a stored one. -/
theorem Granted.found {stored : UserRow} (good : tables.Good) (there : stored ∈ tables.users)
    : Granted [stored.email] tables (tables.apply (.user { stored with role := .admin })) := by
  have only : ∀ old ∈ tables.users, old.email = stored.email → old = stored :=
    fun old inside same => good.logins old inside stored there (sameLogin_iff.mpr (.inl same))
  have new : granted [stored.email] stored = { stored with role := .admin } :=
    if_pos List.mem_cons_self
  refine ⟨?_, ?_, ?_⟩
  · intro old inside
    by_cases same : old.email = stored.email
    · rw [only old inside same, new]
      exact mem_users_user.mpr (.inl rfl)
    · rw [granted_of_role _ _ (.inr (by simpa using same))]
      refine mem_users_user.mpr (.inr ⟨inside, fun sameId => same ?_⟩)
      rw [good.ids old inside stored there sameId]
  · intro row inside
    rcases mem_users_user.mp inside with rfl | ⟨inside, apart⟩
    · exact .inl ⟨stored, there, new.symm⟩
    · refine .inl ⟨row, inside, (granted_of_role _ _ (.inr ?_)).symm⟩
      intro listed
      rw [only row inside (List.mem_singleton.mp listed)] at apart
      exact apart rfl
  · intro other member
    exact ⟨_, mem_users_user.mpr (.inl rfl), (List.mem_singleton.mp member).symm⟩

/-- The address is a new one. -/
theorem Granted.created {freshId : Uuid} (free : ∀ old ∈ tables.users, old.id ≠ freshId)
    (missing : ∀ old ∈ tables.users, old.email ≠ email)
    : Granted [email] tables (tables.apply (.user (newAdmin freshId email))) := by
  refine ⟨?_, ?_, ?_⟩
  · intro old inside
    rw [granted_of_role _ _ (.inr (by simpa using missing old inside))]
    exact mem_users_user.mpr (.inr ⟨inside, free old inside⟩)
  · intro row inside
    rcases mem_users_user.mp inside with rfl | ⟨inside, _⟩
    · exact .inr ⟨List.mem_cons_self, rfl, fun old stored => ⟨free old stored, missing old stored⟩⟩
    · refine .inl ⟨row, inside, (granted_of_role _ _ (.inr ?_)).symm⟩
      simpa using missing row inside
  · intro other member
    exact ⟨_, mem_users_user.mpr (.inl rfl), (List.mem_singleton.mp member).symm⟩

theorem Granted.upsert {lower : String → String} {freshId : Uuid} {writes : List Write}
    (good : tables.Good)
    (planned : (Statement.upsertAdmin freshId email).plan lower tables = .ok ((), writes))
    : Granted [email] tables (rules.applyAll tables writes) := by
  simp only [Statement.plan] at planned
  split at planned
  · next stored found =>
      cases planned
      have named : stored.email = email := by simpa using List.find?_some found
      subst named
      exact .found good (List.mem_of_find?_eq_some found)
  · next missing =>
      split at planned
      · cases planned
      · next free =>
          cases planned
          refine .created ?_ ?_
          · simpa [Accounts.hasUser] using free
          · simpa [Accounts.findByEmail] using missing

end Upsert

end Granted

/-- New versions of some rows take their places, by induction on the rows. -/
theorem mem_users_changed {change : UserRow → UserRow} (same : ∀ row, (change row).id = row.id)
    {rows : List UserRow} (ids : ∀ first ∈ rows, ∀ second ∈ rows, first.id = second.id → first = second)
    {tables : Accounts} {row : UserRow}
    : row ∈ (rules.applyAll tables (rows.map (fun old => .user (change old)))).users
      ↔ (row ∈ tables.users ∧ ∀ old ∈ rows, old.id ≠ row.id) ∨ ∃ old ∈ rows, row = change old := by
  induction rows generalizing tables with
  | nil => simp [Writes.applyAll]
  | cons first rest ih =>
      have later : ∀ one ∈ rest, ∀ two ∈ rest, one.id = two.id → one = two :=
        fun one inOne two inTwo => ids one (List.mem_cons_of_mem _ inOne) two (List.mem_cons_of_mem _ inTwo)
      refine (@ih later (tables.apply (.user (change first)))).trans ?_
      rw [mem_users_user, same]
      constructor
      · intro found
        rcases found with ⟨rfl | ⟨inside, apart⟩, others⟩ | ⟨old, member, rfl⟩
        · exact .inr ⟨first, List.mem_cons_self, rfl⟩
        · exact .inl ⟨inside, List.forall_mem_cons.mpr ⟨apart.symm, others⟩⟩
        · exact .inr ⟨old, List.mem_cons_of_mem _ member, rfl⟩
      · intro found
        rcases found with ⟨inside, apart⟩ | ⟨old, member, rfl⟩
        · obtain ⟨here, others⟩ := List.forall_mem_cons.mp apart
          exact .inl ⟨.inr ⟨inside, here.symm⟩, others⟩
        · rcases List.mem_cons.mp member with rfl | member
          · by_cases again : ∃ other ∈ rest, other.id = old.id
            · obtain ⟨other, inRest, sameId⟩ := again
              have is : other = old :=
                ids other (List.mem_cons_of_mem _ inRest) old List.mem_cons_self sameId
              exact .inr ⟨other, inRest, congrArg change is.symm⟩
            · refine .inl ⟨.inl rfl, fun other inRest sameId => again ⟨other, inRest, ?_⟩⟩
              exact sameId.trans (same old)
          · exact .inr ⟨old, member, rfl⟩

theorem demoteOthers_users {lower : String → String} {emails : List String} {count : Nat}
    {writes : List Write} {tables : Accounts} (good : tables.Good)
    (planned : (Statement.demoteOthers emails).plan lower tables = .ok (count, writes)) {row : UserRow}
    : row ∈ (rules.applyAll tables writes).users
      ↔ ∃ old ∈ tables.users, row = demoted emails lower old := by
  cases planned
  have ids : ∀ first ∈ tables.users, ∀ second ∈ tables.users, first.id = second.id → first = second :=
    good.ids
  have taken : ∀ old, old ∈ tables.users.filter
      (fun row => row.role == .admin && !emails.contains (lower row.email))
      ↔ old ∈ tables.users ∧ old.role = .admin ∧ lower old.email ∉ emails := by
    intro old
    simp
  have unnamed : ∀ row : UserRow, ({ row with role := .member } : UserRow).id = row.id := fun _ => rfl
  refine (mem_users_changed unnamed ?_).trans ?_
  · intro first inFirst second inSecond
    exact ids first ((taken first).mp inFirst).1 second ((taken second).mp inSecond).1
  · simp only [taken]
    constructor
    · intro found
      rcases found with ⟨inside, others⟩ | ⟨old, ⟨inside, out⟩, rfl⟩
      · refine ⟨row, inside, (if_neg (fun out => ?_)).symm⟩
        exact others row ⟨inside, out⟩ rfl
      · exact ⟨old, inside, (if_pos out).symm⟩
    · intro found
      obtain ⟨old, inside, rfl⟩ := found
      by_cases out : old.role = .admin ∧ lower old.email ∉ emails
      · exact .inr ⟨old, ⟨inside, out⟩, if_pos out⟩
      · rw [demoted, if_neg out]
        refine .inl ⟨inside, fun other there sameId => out ?_⟩
        rw [← ids other there.1 old inside sameId]
        exact there.2

-----------------------------------------------------------------------------------------
-- The statements
-----------------------------------------------------------------------------------------

section Run

variable {Value : Type} {db after : AuthDb} {statement : Statement}

/-- A statement of its own, where what follows it ends well. -/
theorem auto_then {rest : statement.Reply → Login Value} {value : Value}
    (ran : (send (.auto statement) >>= rest).alone db = (.ok value, after))
    : ∃ reply writes, statement.plan db.lower db.accounts.committed = .ok (reply, writes)
        ∧ rules.checkAll db.accounts.committed writes = none
        ∧ (rest reply).alone { db.cascade statement with accounts := db.accounts.write rules writes }
          = (.ok value, after) := by
  obtain ⟨reply, middle, first, others⟩ := alone_ok ran
  cases answer : (Request.auto statement).exec db with
  | error fault =>
      have refused : (send (.auto statement)).alone db = (.error .db, db) :=
        Program.alone_request_error answer
      cases refused.symm.trans first
  | ok pair =>
      obtain ⟨reply', middle'⟩ := pair
      have answered : (send (.auto statement)).alone db = (.ok reply', middle') :=
        Program.alone_request_ok answer
      cases answered.symm.trans first
      obtain ⟨writes, planned, fine, _, rfl⟩ := auto_cases answer
      exact ⟨reply, writes, planned, fine, others⟩

/-- By induction on the addresses. -/
theorem grantAdmins_ok {freshId : String → Uuid} {emails : List String}
    (good : db.accounts.committed.Good)
    (ran : (grantAdmins freshId emails).alone db = (.ok (), after))
    : Granted emails db.accounts.committed after.accounts.committed
      ∧ after.accounts.committed.Good ∧ after.lower = db.lower := by
  induction emails generalizing db with
  | nil =>
      cases ran
      exact ⟨.nil _, good, rfl⟩
  | cons email rest ih =>
      obtain ⟨_, writes, planned, fine, others⟩ := auto_then ran
      obtain ⟨granted, goodAfter, same⟩ := ih (Good.applyAll good fine) others
      exact ⟨.cons (.upsert good planned) granted, goodAfter, same⟩

/-- The users behind a start that succeeds are those before and the new ones, each granted the role or
not and then demoted or not.
-/
theorem reconcileAdmins_ok {config : AuthConfig} {freshId : String → Uuid}
    (good : db.accounts.committed.Good) (acts : listedAdmins config ≠ [])
    (ran : (reconcileAdmins config freshId).alone db = (.ok (), after))
    : ∃ between, Granted (listedAdmins config) db.accounts.committed between
        ∧ after.accounts.committed.Good ∧ after.lower = db.lower
        ∧ ∀ row, row ∈ after.accounts.committed.users
            ↔ ∃ old ∈ between.users, row = demoted (listedAdmins config) db.lower old := by
  rw [reconcileAdmins_acts config freshId acts] at ran
  obtain ⟨_, middle, grants, ran⟩ := alone_ok ran
  obtain ⟨granted, goodBetween, same⟩ := grantAdmins_ok good grants
  obtain ⟨count, writes, planned, fine, ran⟩ := auto_then ran
  cases ran
  rw [same] at planned
  exact ⟨_, granted, Good.applyAll goodBetween fine, same, fun row => demoteOthers_users goodBetween planned⟩

end Run

end WslVpn.Auth
