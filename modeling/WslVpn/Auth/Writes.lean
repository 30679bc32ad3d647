import WslVpn.Auth.Effects

/-! What becomes of users and bindings under a list of writes. -/

namespace WslVpn.Auth

open Transactions.Locking

/-- The user is there and active. -/
def Active (tables : Accounts) (id : Uuid)
    : Prop := ∃ row ∈ tables.users, row.id = id ∧ row.active = true

section Lists

variable {tables other : Accounts} {writes : List Write} {row : UserRow} {id : Uuid}

/-- A user after the writes was there before, or has been written, by induction on the writes. -/
theorem mem_users_applyAll (there : row ∈ (rules.applyAll tables writes).users)
    : row ∈ tables.users ∨ Write.user row ∈ writes := by
  induction writes generalizing tables with
  | nil => exact Or.inl there
  | cons write rest ih =>
      rcases @ih (tables.apply write) there with before | later
      · cases write with
        | user new =>
            rcases mem_users_user.mp before with rfl | ⟨before, _⟩
            · exact Or.inr List.mem_cons_self
            · exact Or.inl before
        | identity binding => exact Or.inl before
        | deleteUser id => exact Or.inl (mem_users_delete.mp before).1
      · exact Or.inr (List.mem_cons_of_mem _ later)

/-- The writes leave the row of a user alone. -/
def Spares (writes : List Write) (id : Uuid) : Prop :=
  (∀ row, Write.user row ∈ writes → row.id ≠ id) ∧ Write.deleteUser id ∉ writes

/-- By induction on the writes. -/
theorem mem_users_spared (there : row ∈ tables.users) (spares : Spares writes row.id)
    : row ∈ (rules.applyAll tables writes).users := by
  induction writes generalizing tables with
  | nil => exact there
  | cons write rest ih =>
      have later : Spares rest row.id :=
        ⟨fun new member => spares.1 new (List.mem_cons_of_mem _ member),
          fun member => spares.2 (List.mem_cons_of_mem _ member)⟩
      refine @ih (tables.apply write) ?_ later
      cases write with
      | user new => exact mem_users_user.mpr (Or.inr ⟨there, (spares.1 new List.mem_cons_self).symm⟩)
      | identity binding => exact there
      | deleteUser id =>
          refine mem_users_delete.mpr ⟨there, ?_⟩
          intro same
          exact spares.2 (same ▸ List.mem_cons_self)

/-- A user stays, perhaps in a new version, unless deleted, by induction on the writes. -/
theorem users_kept (there : row ∈ tables.users) (kept : Write.deleteUser row.id ∉ writes)
    : ∃ now ∈ (rules.applyAll tables writes).users, now.id = row.id := by
  induction writes generalizing tables row with
  | nil => exact ⟨row, there, rfl⟩
  | cons write rest ih =>
      have later : Write.deleteUser row.id ∉ rest :=
        fun member => kept (List.mem_cons_of_mem _ member)
      cases write with
      | user new =>
          by_cases same : row.id = new.id
          · obtain ⟨now, member, named⟩ := @ih (tables.apply (.user new)) new
              (mem_users_user.mpr (Or.inl rfl)) (same ▸ later)
            exact ⟨now, member, named.trans same.symm⟩
          · exact @ih (tables.apply (.user new)) row (mem_users_user.mpr (Or.inr ⟨there, same⟩))
              later
      | identity binding => exact @ih (tables.apply (.identity binding)) row there later
      | deleteUser id =>
          have apart : row.id ≠ id := fun same => kept (same ▸ List.mem_cons_self)
          exact @ih (tables.apply (.deleteUser id)) row (mem_users_delete.mpr ⟨there, apart⟩) later

/-- A user comes from the tables, untouched, or from the writes, whatever the tables are, by induction
on the writes.
-/
theorem origin_of_user (noDeletes : ∀ id, Write.deleteUser id ∉ writes)
    (there : row ∈ (rules.applyAll tables writes).users)
    : (row ∈ tables.users ∧ Spares writes row.id)
      ∨ ∀ other : Accounts, row ∈ (rules.applyAll other writes).users := by
  induction writes generalizing tables with
  | nil => exact Or.inl ⟨there, by simp [Spares]⟩
  | cons write rest ih =>
      have later : ∀ id, Write.deleteUser id ∉ rest :=
        fun id member => noDeletes id (List.mem_cons_of_mem _ member)
      rcases @ih (tables.apply write) later there with ⟨before, spares⟩ | written
      · cases write with
        | user new =>
            rcases mem_users_user.mp before with rfl | ⟨before, apart⟩
            · refine Or.inr (fun other => ?_)
              exact @mem_users_spared (other.apply (.user row)) rest row
                (mem_users_user.mpr (Or.inl rfl)) spares
            · refine Or.inl ⟨before, ?_, ?_⟩
              · intro added member
                rcases List.mem_cons.mp member with same | member
                · cases same
                  exact apart.symm
                · exact spares.1 added member
              · intro member
                exact noDeletes _ member
        | identity binding =>
            refine Or.inl ⟨before, ?_, ?_⟩
            · intro added member
              rcases List.mem_cons.mp member with same | member
              · cases same
              · exact spares.1 added member
            · intro member
              exact noDeletes _ member
        | deleteUser id => exact absurd List.mem_cons_self (noDeletes id)
      · exact Or.inr (fun other => written (other.apply write))

/-- An active user stays active under writes that neither deactivate nor delete them, by induction.
-/
theorem Active.applyAll (active : Active tables id)
    (versions : ∀ row, Write.user row ∈ writes → row.id = id → row.active = true)
    (kept : Write.deleteUser id ∉ writes)
    : Active (rules.applyAll tables writes) id := by
  induction writes generalizing tables with
  | nil => exact active
  | cons write rest ih =>
      refine @ih (tables.apply write) ?_
        (fun row member => versions row (List.mem_cons_of_mem _ member))
        (fun member => kept (List.mem_cons_of_mem _ member))
      obtain ⟨row, there, rfl, up⟩ := active
      cases write with
      | user new =>
          by_cases same : row.id = new.id
          · exact ⟨new, mem_users_user.mpr (Or.inl rfl), same.symm,
              versions new List.mem_cons_self same.symm⟩
          · exact ⟨row, mem_users_user.mpr (Or.inr ⟨there, same⟩), rfl, up⟩
      | identity binding => exact ⟨row, there, rfl, up⟩
      | deleteUser id =>
          refine ⟨row, mem_users_delete.mpr ⟨there, ?_⟩, rfl, up⟩
          intro same
          exact kept (same ▸ List.mem_cons_self)

/-- A binding stays with its user under admitted writes, unless the user is deleted, by induction.
-/
theorem binding_kept {binding : IdentityRow} (there : binding ∈ tables.identities)
    (fine : rules.checkAll tables writes = none) (kept : Write.deleteUser binding.userId ∉ writes)
    : ∃ now ∈ (rules.applyAll tables writes).identities,
        now.issuer = binding.issuer ∧ now.subject = binding.subject
          ∧ now.userId = binding.userId := by
  induction writes generalizing tables binding with
  | nil => exact ⟨binding, there, rfl, rfl, rfl⟩
  | cons write rest ih =>
      obtain ⟨here, fine⟩ := checkAll_cons.mp fine
      have later : Write.deleteUser binding.userId ∉ rest :=
        fun member => kept (List.mem_cons_of_mem _ member)
      cases write with
      | user new => exact @ih (tables.apply (.user new)) binding there fine later
      | identity bound =>
          by_cases same : sameSubject binding bound = true
          · obtain ⟨issuer, subject⟩ := sameSubject_iff.mp same
            have person := same.symm.trans ((check_identity.mp here).1 binding there)
            obtain ⟨_, user⟩ := samePerson_iff.mp person.symm
            obtain ⟨now, member, nowIssuer, nowSubject, nowUser⟩ :=
              @ih (tables.apply (.identity bound))
              bound (mem_identities_identity.mpr (Or.inl rfl)) fine (user ▸ later)
            exact ⟨now, member, nowIssuer.trans issuer.symm, nowSubject.trans subject.symm,
              nowUser.trans user.symm⟩
          · have stays := mem_identities_identity.mpr
              (Or.inr ⟨there, Bool.eq_false_iff.mpr same⟩)
            exact @ih (tables.apply (.identity bound)) binding stays fine later
      | deleteUser id =>
          have apart : binding.userId ≠ id := fun same => kept (same ▸ List.mem_cons_self)
          exact @ih (tables.apply (.deleteUser id)) binding
            (mem_identities_delete.mpr ⟨there, apart⟩) fine
            later

end Lists

end WslVpn.Auth
