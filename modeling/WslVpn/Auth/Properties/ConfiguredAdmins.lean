import WslVpn.Auth.Administrators
import WslVpn.Auth.Properties.EmailLinking

/-! The administrators behind the start of the process against the addresses of the configuration. The
role is granted by the stored spelling of an address and taken by its lower-cased one.
-/

namespace WslVpn.Auth

/-- The address is one of the configuration's, whatever its case. -/
def Listed (config : AuthConfig) (email : String) : Prop :=
  config.toLowercase email ∈ listedAdmins config

/-- The administrators are the configured ones, and the start has changed nothing but roles. -/
structure Configured (config : AuthConfig) (before after : AuthDb) : Prop where
  exactly : ∀ row ∈ after.accounts.committed.users, row.role = .admin ↔ Listed config row.email
  someone : ∃ row ∈ after.accounts.committed.users, row.role = .admin
  rows
    : ∀ old ∈ before.accounts.committed.users, ∃ row ∈ after.accounts.committed.users,
        row = { old with role := row.role }
  again
    : ∀ freshId later, (reconcileAdmins config freshId).alone after = (.ok (), later) →
        ∀ row, row ∈ later.accounts.committed.users ↔ row ∈ after.accounts.committed.users

/-- The three ways to compare an address come to the same for the stored users and the listed addresses.
-/
structure Agree (config : AuthConfig) (db : AuthDb) : Prop where
  spelled
    : ∀ row ∈ db.accounts.committed.users, Listed config row.email →
        row.role = .admin ∨ row.email ∈ listedAdmins config
  administrators
    : ∀ row ∈ db.accounts.committed.users, row.role = .admin →
        (db.lower row.email ∈ listedAdmins config ↔ Listed config row.email)
  addresses : ∀ email ∈ listedAdmins config, db.lower email ∈ listedAdmins config

section Reconciliation

variable {config : AuthConfig} {db after : AuthDb} {freshId : String → Uuid}

/-- An address on the list is listed: lower-casing it again changes nothing. -/
theorem listed_of_mem
    (settled : ∀ text, config.toLowercase (config.toLowercase text) = config.toLowercase text)
    {email : String} (member : email ∈ listedAdmins config) : Listed config email := by
  obtain ⟨raw, _, same⟩ := List.mem_map.mp (List.mem_of_mem_filter member)
  have lowered : config.toLowercase email = email := by rw [← same, settled]
  rwa [Listed, lowered]

theorem reconciled_role (emails : List String) (lower : String → String) (row : UserRow)
    : (demoted emails lower (granted emails row)).role = .admin
      ↔ (row.role = .admin ∨ row.email ∈ emails) ∧ lower row.email ∈ emails := by
  rw [demoted_role, granted_role, granted_email]

theorem reconciled_eq (emails : List String) (lower : String → String) (row : UserRow)
    : demoted emails lower (granted emails row)
      = { row with role := (demoted emails lower (granted emails row)).role } := by
  refine (demoted_eq _ _ _).trans ?_
  generalize (demoted emails lower (granted emails row)).role = role
  rw [granted_eq]

section Ran

variable (good : db.accounts.committed.Good) (acts : listedAdmins config ≠ [])
  (ran : (reconcileAdmins config freshId).alone db = (.ok (), after))

include good acts ran

/-- Every user behind the start is one from before, or one of a listed address, granted and demoted. -/
theorem user_after {row : UserRow} (there : row ∈ after.accounts.committed.users)
    : ∃ old, (old ∈ db.accounts.committed.users
          ∨ old.role = .admin ∧ old.email ∈ listedAdmins config)
        ∧ row = demoted (listedAdmins config) db.lower (granted (listedAdmins config) old) := by
  obtain ⟨between, grants, _, _, users⟩ := reconcileAdmins_ok good acts ran
  obtain ⟨middle, inside, rfl⟩ := (users row).mp there
  rcases grants.origin middle inside with ⟨old, stored, rfl⟩ | ⟨listed, admin, _⟩
  · exact ⟨old, .inl stored, rfl⟩
  · exact ⟨middle, .inr ⟨admin, listed⟩, by rw [granted_of_role _ middle (.inl admin)]⟩

theorem user_kept {old : UserRow} (stored : old ∈ db.accounts.committed.users)
    : demoted (listedAdmins config) db.lower (granted (listedAdmins config) old)
      ∈ after.accounts.committed.users := by
  obtain ⟨between, grants, _, _, users⟩ := reconcileAdmins_ok good acts ran
  exact (users _).mpr ⟨_, grants.kept old stored, rfl⟩

theorem user_present {email : String} (member : email ∈ listedAdmins config)
    : ∃ row ∈ after.accounts.committed.users, row.email = email
        ∧ (row.role = .admin ↔ db.lower email ∈ listedAdmins config) := by
  obtain ⟨between, grants, _, _, users⟩ := reconcileAdmins_ok good acts ran
  obtain ⟨middle, inside, rfl⟩ := grants.present email member
  have admin : middle.role = .admin := by
    rcases grants.origin middle inside with ⟨old, _, rfl⟩ | ⟨_, admin, _⟩
    · exact (granted_role _ _).mpr (.inr (by simpa using member))
    · exact admin
  refine ⟨_, (users _).mpr ⟨middle, inside, rfl⟩, demoted_email _ _ _, ?_⟩
  simp [demoted_role, admin]

/-- A second start finds every listed address, and leaves each row as it is. -/
theorem reconciled_again {freshId' : String → Uuid} {later : AuthDb}
    (reran : (reconcileAdmins config freshId').alone after = (.ok (), later)) (row : UserRow)
    : row ∈ later.accounts.committed.users ↔ row ∈ after.accounts.committed.users := by
  obtain ⟨_, _, goodAfter, same, _⟩ := reconcileAdmins_ok good acts ran
  have stays : ∀ row ∈ after.accounts.committed.users,
      demoted (listedAdmins config) after.lower (granted (listedAdmins config) row) = row := by
    intro row there
    obtain ⟨old, _, rfl⟩ := user_after good acts ran there
    rw [same, reconciled_twice]
  obtain ⟨between, grants, _, _, users⟩ := reconcileAdmins_ok goodAfter acts reran
  constructor
  · intro there
    obtain ⟨middle, inside, rfl⟩ := (users row).mp there
    rcases grants.origin middle inside with ⟨old, stored, rfl⟩ | ⟨listed, _, fresh⟩
    · rwa [stays old stored]
    · obtain ⟨known, stored, named, _⟩ := user_present good acts ran listed
      exact absurd named (fresh known stored).2
  · intro there
    have kept := user_kept goodAfter acts reran there
    rwa [stays row there] at kept

/-- The administrators are the configured ones exactly where no other spelling of a listed address is
stored without the role and the comparisons of the database and the code agree.
-/
theorem configured_iff
    (settled : ∀ text, config.toLowercase (config.toLowercase text) = config.toLowercase text)
    : Configured config db after ↔ Agree config db := by
  constructor
  · intro configured
    have same : ∀ old ∈ db.accounts.committed.users,
        (old.role = .admin ∨ old.email ∈ listedAdmins config) ∧ db.lower old.email ∈ listedAdmins config
          ↔ Listed config old.email := by
      intro old stored
      rw [← reconciled_role, configured.exactly _ (user_kept good acts ran stored)]
      simp
    refine ⟨?_, ?_, ?_⟩
    · intro old stored listed
      exact ((same old stored).mpr listed).1
    · intro old stored admin
      rw [← same old stored, and_iff_right (.inl admin)]
    · intro email member
      obtain ⟨row, there, named, admin⟩ := user_present good acts ran member
      rw [← admin, configured.exactly row there, named]
      exact listed_of_mem settled member
  · intro agree
    have exactly : ∀ row ∈ after.accounts.committed.users,
        row.role = .admin ↔ Listed config row.email := by
      intro row there
      obtain ⟨old, origin, rfl⟩ := user_after good acts ran there
      rw [reconciled_role, demoted_email, granted_email]
      have onList : old.email ∈ listedAdmins config →
          db.lower old.email ∈ listedAdmins config ∧ Listed config old.email :=
        fun member => ⟨agree.addresses _ member, listed_of_mem settled member⟩
      rcases origin with stored | ⟨_, member⟩
      · have spelled := agree.spelled old stored
        have administrators := agree.administrators old stored
        tauto
      · have := onList member
        tauto
    obtain ⟨email, member⟩ := List.exists_mem_of_ne_nil _ acts
    obtain ⟨row, there, named, admin⟩ := user_present good acts ran member
    exact {
      exactly
      someone := ⟨row, there, admin.mpr (agree.addresses email member)⟩
      rows := fun old stored => ⟨_, user_kept good acts ran stored, reconciled_eq _ _ _⟩
      again := fun _ _ reran => reconciled_again good acts ran reran
    }

end Ran

end Reconciliation

-----------------------------------------------------------------------------------------
-- Two installations
-----------------------------------------------------------------------------------------

def bossConfig : AuthConfig := { plainConfig with adminEmails := ["  Boss@Example.com", " "] }

/-- An administrator who is no longer on the list. -/
def eve : UserRow := { boss with id := 2, email := "eve@example.com" }

theorem bossAndEve_good : (usersOnly [boss, eve]).accounts.committed.Good := by
  refine ⟨?_, ?_, nofun, nofun, nofun⟩
  · intro row there other otherThere
    simp only [usersOnly, Transactions.Locking.Shared.start, List.mem_cons, List.not_mem_nil, or_false]
      at there otherThere
    rcases there with rfl | rfl <;> rcases otherThere with rfl | rfl <;> decide
  · intro row there other otherThere
    simp only [usersOnly, Transactions.Locking.Shared.start, List.mem_cons, List.not_mem_nil, or_false]
      at there otherThere
    rcases there with rfl | rfl <;> rcases otherThere with rfl | rfl <;> decide

theorem configured_bossAndEve
    : Configured bossConfig (usersOnly [boss, eve])
        ((reconcileAdmins bossConfig (fun _ => 3)).alone (usersOnly [boss, eve])).2 := by
  have ran : ((reconcileAdmins bossConfig (fun _ => 3)).alone (usersOnly [boss, eve])).1 = .ok () := rfl
  refine (configured_iff bossAndEve_good (by decide) (Prod.ext ran rfl) asciiLower_asciiLower).mpr ?_
  refine ⟨?_, fun _ _ _ => Iff.rfl, by decide⟩
  intro row there _
  have either : row = boss ∨ row = eve := by simpa [usersOnly, Transactions.Locking.Shared.start] using there
  rcases either with rfl | rfl <;> exact .inl rfl

/-- Another spelling of the address that is listed. -/
def respelt : UserRow := { boss with email := "Boss@Example.com", role := .member }

theorem other_spelling_kept_out
    : ((reconcileAdmins bossConfig (fun _ => 3)).alone (usersOnly [respelt])).1 = .ok ()
      ∧ ¬ Configured bossConfig (usersOnly [respelt])
          ((reconcileAdmins bossConfig (fun _ => 3)).alone (usersOnly [respelt])).2 := by
  refine ⟨rfl, ?_⟩
  intro configured
  have there : respelt ∈ ((reconcileAdmins bossConfig (fun _ => 3)).alone
      (usersOnly [respelt])).2.accounts.committed.users := by
    decide
  have listed : Listed bossConfig respelt.email := by
    unfold Listed
    decide
  cases (configured.exactly respelt there).mpr listed

end WslVpn.Auth
