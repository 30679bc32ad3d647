import WslVpn.Control.Statements
import WslVpn.Transactions.Locking

/-! Users and their bindings to identity providers, as the rows that transactions write. -/

namespace WslVpn.Auth

open Transactions.Locking

/-- A row of `oidc_identities`. -/
structure IdentityRow where
  issuer : String
  subject : String
  userId : Uuid
  email : String
  deriving DecidableEq

/-- The tables that say who a login is. -/
structure Accounts where
  users : List UserRow
  identities : List IdentityRow

/-- A new version of a row, or the end of a user and of what refers to it. -/
inductive Write where
  | user (row : UserRow)
  | identity (row : IdentityRow)
  | deleteUser (id : Uuid)
  deriving DecidableEq

/-- The unique columns besides the id: `email`, and `external_id` unless it is NULL. -/
def sameLogin (first second : UserRow) : Bool :=
  first.email == second.email
    || (first.externalId.isSome && first.externalId == second.externalId)

/-- The primary key `(issuer, subject)`. -/
def sameSubject (first second : IdentityRow) : Bool :=
  first.issuer == second.issuer && first.subject == second.subject

/-- The unique index on `(issuer, user_id)`. -/
def samePerson (first second : IdentityRow) : Bool :=
  first.issuer == second.issuer && first.userId == second.userId

namespace Accounts

def hasUser (tables : Accounts) (id : Uuid) : Bool := tables.users.any (·.id == id)

/-- A version of a user may not have the email or the external id of another one, and one of a binding
stays with its user, who has no other one of the issuer.
-/
def check (tables : Accounts) : Write → Option DbError
  | .user row =>
      if tables.users.any (fun other => other.id != row.id && sameLogin other row) then
        some .uniqueViolation
      else none
  | .identity row =>
      if tables.identities.any (fun other => sameSubject other row != samePerson other row) then
        some .uniqueViolation
      else if !tables.hasUser row.userId then some .foreignKeyViolation
      else none
  | .deleteUser _ => none

/-- The new version takes the place of the old one. The bindings of a user go with the user. -/
def apply (tables : Accounts) : Write → Accounts
  | .user row => { tables with users := tables.users.filter (·.id != row.id) ++ [row] }
  | .identity row => {
      tables with
      identities := tables.identities.filter (fun other => !sameSubject other row) ++ [row]
    }
  | .deleteUser id => {
      users := tables.users.filter (·.id != id)
      identities := tables.identities.filter (·.userId != id)
    }

end Accounts

/-- Versions of one row exclude each other, and so do rows that a unique index keeps apart. A reference
to a user keeps the user from being deleted.
-/
def clash : Write → Write → Bool
  | .user first, .user second => first.id == second.id || sameLogin first second
  | .identity first, .identity second => sameSubject first second || samePerson first second
  | .deleteUser id, .user row | .user row, .deleteUser id => row.id == id
  | .deleteUser id, .identity row | .identity row, .deleteUser id => row.userId == id
  | .deleteUser first, .deleteUser second => first == second
  | .user _, .identity _ | .identity _, .user _ => false

abbrev rules : Writes Accounts Write DbError where
  check := Accounts.check
  apply := Accounts.apply
  clash := clash

-----------------------------------------------------------------------------------------
-- What the writes do
-----------------------------------------------------------------------------------------

section Laws

variable {tables : Accounts} {row other : UserRow} {binding bound : IdentityRow} {id : Uuid}

theorem sameLogin_iff
    : sameLogin row other = true
      ↔ row.email = other.email ∨ (row.externalId ≠ none ∧ row.externalId = other.externalId) := by
  simp [sameLogin, Option.isSome_iff_ne_none]

theorem sameSubject_iff
    : sameSubject binding bound = true
      ↔ binding.issuer = bound.issuer ∧ binding.subject = bound.subject := by
  simp [sameSubject]

theorem samePerson_iff
    : samePerson binding bound = true
      ↔ binding.issuer = bound.issuer ∧ binding.userId = bound.userId := by
  simp [samePerson]

@[simp] theorem Accounts.hasUser_iff
    : tables.hasUser id = true ↔ ∃ row ∈ tables.users, row.id = id := by
  simp [Accounts.hasUser]

theorem check_user
    : tables.check (.user row) = none
      ↔ ∀ other ∈ tables.users, other.id ≠ row.id → sameLogin other row = false := by
  simp [Accounts.check]

theorem check_identity
    : tables.check (.identity binding) = none
      ↔ (∀ other ∈ tables.identities, sameSubject other binding = samePerson other binding)
        ∧ ∃ row ∈ tables.users, row.id = binding.userId := by
  rw [Accounts.check]
  split
  · next broken =>
      refine iff_of_false (by simp) ?_
      intro fine
      obtain ⟨other, there, differs⟩ := List.any_eq_true.mp broken
      exact absurd (fine.1 other there) (by simpa using differs)
  · next fine =>
      have fine : ∀ other ∈ tables.identities, sameSubject other binding
          = samePerson other binding := by
        simpa using fine
      simpa using fun _ _ _ => fine

@[simp] theorem mem_users_user
    : row ∈ (tables.apply (.user other)).users
      ↔ row = other ∨ (row ∈ tables.users ∧ row.id ≠ other.id) := by
  simp [Accounts.apply, or_comm]

@[simp] theorem mem_users_delete
    : row ∈ (tables.apply (.deleteUser id)).users ↔ row ∈ tables.users ∧ row.id ≠ id := by
  simp [Accounts.apply]

@[simp] theorem mem_identities_identity
    : binding ∈ (tables.apply (.identity bound)).identities
      ↔ binding = bound ∨ (binding ∈ tables.identities ∧ sameSubject binding bound = false) := by
  simp [Accounts.apply, or_comm]

@[simp] theorem mem_identities_delete
    : binding ∈ (tables.apply (.deleteUser id)).identities
      ↔ binding ∈ tables.identities ∧ binding.userId ≠ id := by
  simp [Accounts.apply]

@[simp] theorem users_identity : (tables.apply (.identity bound)).users = tables.users := rfl

@[simp] theorem identities_user : (tables.apply (.user row)).identities = tables.identities := rfl

end Laws

/-- The same rows, in whatever order. -/
structure SameRows (left right : Accounts) : Prop where
  users : ∀ row, row ∈ left.users ↔ row ∈ right.users
  identities : ∀ binding, binding ∈ left.identities ↔ binding ∈ right.identities

section Lawful

variable {tables left right : Accounts} {first second write : Write}

theorem clash_symm (first second : Write) : clash first second = clash second first := by
  cases first with
  | user row =>
      cases second with
      | user other =>
          rw [Bool.eq_iff_iff]
          simp only [clash, Bool.or_eq_true, beq_iff_eq, sameLogin_iff]
          grind
      | identity binding => rfl
      | deleteUser id => rfl
  | identity binding =>
      cases second with
      | user other => rfl
      | identity bound =>
          rw [Bool.eq_iff_iff]
          simp only [clash, Bool.or_eq_true, sameSubject_iff, samePerson_iff]
          grind
      | deleteUser id => rfl
  | deleteUser id =>
      cases second with
      | user other => rfl
      | identity binding => rfl
      | deleteUser other => exact BEq.comm

theorem check_same (same : SameRows left right) (fine : left.check write = none)
    : right.check write = none := by
  cases write with
  | user row =>
      rw [check_user] at fine ⊢
      intro other there
      exact fine other ((same.users other).mpr there)
  | identity binding =>
      rw [check_identity] at fine ⊢
      obtain ⟨free, row, there, named⟩ := fine
      refine ⟨?_, row, (same.users row).mp there, named⟩
      intro other there
      exact free other ((same.identities other).mpr there)
  | deleteUser id => rfl

theorem apply_same (write : Write) (same : SameRows left right)
    : SameRows (left.apply write) (right.apply write) := by
  cases write with
  | user row =>
      refine ⟨?_, same.identities⟩
      intro other
      rw [mem_users_user, mem_users_user, same.users]
  | identity binding =>
      refine ⟨same.users, ?_⟩
      intro other
      rw [mem_identities_identity, mem_identities_identity, same.identities]
  | deleteUser id =>
      refine ⟨?_, ?_⟩
      · intro other
        rw [mem_users_delete, mem_users_delete, same.users]
      · intro other
        rw [mem_identities_delete, mem_identities_delete, same.identities]

/-- By cases on the two writes: what the second one adds or takes away is not what the first one
depends on.
-/
theorem stable (free : clash first second = false) (fine : tables.check first = none)
    (admitted : tables.check second = none)
    : (tables.apply second).check first = none := by
  cases first with
  | user row =>
      rw [check_user] at fine ⊢
      intro other there apart
      cases second with
      | user added =>
          rw [mem_users_user] at there
          rcases there with rfl | ⟨there, _⟩
          · simp only [clash, Bool.or_eq_false_iff] at free
            have symm := free.2
            rw [← Bool.not_eq_true, sameLogin_iff] at symm ⊢
            grind
          · exact fine other there apart
      | identity binding => exact fine other there apart
      | deleteUser id =>
          rw [mem_users_delete] at there
          exact fine other there.1 apart
  | identity binding =>
      rw [check_identity] at fine ⊢
      obtain ⟨unique, row, there, named⟩ := fine
      cases second with
      | user added =>
          refine ⟨unique, ?_⟩
          by_cases same : row.id = added.id
          · exact ⟨added, mem_users_user.mpr (Or.inl rfl), same.symm.trans named⟩
          · exact ⟨row, mem_users_user.mpr (Or.inr ⟨there, same⟩), named⟩
      | identity bound =>
          refine ⟨?_, row, there, named⟩
          intro other member
          rw [mem_identities_identity] at member
          rcases member with rfl | ⟨member, _⟩
          · simp only [clash, Bool.or_eq_false_iff] at free
            rw [Bool.eq_iff_iff, sameSubject_iff, samePerson_iff]
            have notSubject := Bool.eq_false_iff.mp free.1
            have notPerson := Bool.eq_false_iff.mp free.2
            rw [Ne, sameSubject_iff] at notSubject
            rw [Ne, samePerson_iff] at notPerson
            grind
          · exact unique other member
      | deleteUser id =>
          have kept : ¬ binding.userId = id := by simpa [clash] using free
          refine ⟨?_, row, mem_users_delete.mpr ⟨there, named ▸ kept⟩, named⟩
          intro other member
          exact unique other (mem_identities_delete.mp member).1
  | deleteUser id => rfl

/-- By cases on the two writes. -/
theorem swap (free : clash first second = false) (fine : tables.check first = none)
    (admitted : tables.check second = none)
    : SameRows ((tables.apply first).apply second) ((tables.apply second).apply first) := by
  cases first with
  | user row =>
      cases second with
      | user other =>
          have apart : row.id ≠ other.id := by
            simp only [clash, Bool.or_eq_false_iff, beq_eq_false_iff_ne] at free
            exact free.1
          refine ⟨?_, fun _ => Iff.rfl⟩
          intro member
          simp only [mem_users_user]
          grind
      | identity binding => exact ⟨fun _ => Iff.rfl, fun _ => Iff.rfl⟩
      | deleteUser id =>
          have apart : row.id ≠ id := by simpa [clash] using free
          refine ⟨?_, fun _ => Iff.rfl⟩
          intro member
          simp only [mem_users_user, mem_users_delete]
          grind
  | identity binding =>
      cases second with
      | user row => exact ⟨fun _ => Iff.rfl, fun _ => Iff.rfl⟩
      | identity bound =>
          refine ⟨fun _ => Iff.rfl, ?_⟩
          intro member
          simp only [clash, Bool.or_eq_false_iff] at free
          have apart := Bool.eq_false_iff.mp free.1
          rw [Ne, sameSubject_iff] at apart
          simp only [mem_identities_identity, ← Bool.not_eq_true, sameSubject_iff]
          grind
      | deleteUser id =>
          have apart : binding.userId ≠ id := by simpa [clash] using free
          refine ⟨fun _ => Iff.rfl, ?_⟩
          intro member
          simp only [mem_identities_identity, mem_identities_delete]
          grind
  | deleteUser id =>
      cases second with
      | user row =>
          have apart : row.id ≠ id := by simpa [clash] using free
          refine ⟨?_, fun _ => Iff.rfl⟩
          intro member
          simp only [mem_users_user, mem_users_delete]
          grind
      | identity binding =>
          have apart : binding.userId ≠ id := by simpa [clash] using free
          refine ⟨fun _ => Iff.rfl, ?_⟩
          intro member
          simp only [mem_identities_identity, mem_identities_delete]
          grind
      | deleteUser other =>
          refine ⟨?_, ?_⟩
          · intro member
            simp only [mem_users_delete]
            grind
          · intro member
            simp only [mem_identities_delete]
            grind

def lawful : Lawful rules where
  same := SameRows
  clash_symm := clash_symm
  check_same := check_same
  apply_same := apply_same
  stable := stable
  swap := swap

end Lawful

-----------------------------------------------------------------------------------------
-- The constraints
-----------------------------------------------------------------------------------------

/-- What the keys, the unique indexes and the references of the tables say. -/
structure Accounts.Good (tables : Accounts) : Prop where
  ids : ∀ row ∈ tables.users, ∀ other ∈ tables.users, row.id = other.id → row = other
  logins : ∀ row ∈ tables.users, ∀ other ∈ tables.users, sameLogin row other = true → row = other
  subjects
    : ∀ binding ∈ tables.identities, ∀ other ∈ tables.identities, sameSubject binding other = true
        → binding = other
  persons
    : ∀ binding ∈ tables.identities, ∀ other ∈ tables.identities, samePerson binding other = true
        → binding = other
  references : ∀ binding ∈ tables.identities, ∃ row ∈ tables.users, row.id = binding.userId

section Good

variable {tables : Accounts} {write : Write}

theorem sameLogin_symm (row other : UserRow) : sameLogin row other = sameLogin other row := by
  rw [Bool.eq_iff_iff, sameLogin_iff, sameLogin_iff]
  grind

theorem sameSubject_symm (binding other : IdentityRow)
    : sameSubject binding other = sameSubject other binding := by
  rw [Bool.eq_iff_iff, sameSubject_iff, sameSubject_iff, eq_comm, @eq_comm _ binding.subject]

theorem samePerson_symm (binding other : IdentityRow)
    : samePerson binding other = samePerson other binding := by
  rw [Bool.eq_iff_iff, samePerson_iff, samePerson_iff, eq_comm, @eq_comm _ binding.userId]

theorem Good.user (good : tables.Good) {row : UserRow} (fine : tables.check (.user row) = none)
    : (tables.apply (.user row)).Good := by
  have free := check_user.mp fine
  refine ⟨?_, ?_, good.subjects, good.persons, ?_⟩
  · intro first firstIn second secondIn same
    rcases mem_users_user.mp firstIn with rfl | ⟨firstOld, firstApart⟩
    · rcases mem_users_user.mp secondIn with rfl | ⟨_, apart⟩
      · rfl
      · exact absurd same.symm apart
    · rcases mem_users_user.mp secondIn with rfl | ⟨secondOld, _⟩
      · exact absurd same firstApart
      · exact good.ids first firstOld second secondOld same
  · intro first firstIn second secondIn same
    rcases mem_users_user.mp firstIn with rfl | ⟨firstOld, firstApart⟩
    · rcases mem_users_user.mp secondIn with rfl | ⟨secondOld, apart⟩
      · rfl
      · rw [sameLogin_symm, free second secondOld apart] at same
        cases same
    · rcases mem_users_user.mp secondIn with rfl | ⟨secondOld, _⟩
      · rw [free first firstOld firstApart] at same
        cases same
      · exact good.logins first firstOld second secondOld same
  · intro binding there
    obtain ⟨other, otherIn, named⟩ := good.references binding there
    by_cases replaced : other.id = row.id
    · exact ⟨row, mem_users_user.mpr (Or.inl rfl), replaced.symm.trans named⟩
    · exact ⟨other, mem_users_user.mpr (Or.inr ⟨otherIn, replaced⟩), named⟩

theorem Good.identity (good : tables.Good) {binding : IdentityRow}
    (fine : tables.check (.identity binding) = none)
    : (tables.apply (.identity binding)).Good := by
  obtain ⟨free, known⟩ := check_identity.mp fine
  refine ⟨good.ids, good.logins, ?_, ?_, ?_⟩
  · intro first firstIn second secondIn same
    rcases mem_identities_identity.mp firstIn with rfl | ⟨firstOld, firstApart⟩
    · rcases mem_identities_identity.mp secondIn with rfl | ⟨secondOld, apart⟩
      · rfl
      · rw [sameSubject_symm, apart] at same
        cases same
    · rcases mem_identities_identity.mp secondIn with rfl | ⟨secondOld, _⟩
      · rw [firstApart] at same
        cases same
      · exact good.subjects first firstOld second secondOld same
  · intro first firstIn second secondIn same
    rcases mem_identities_identity.mp firstIn with rfl | ⟨firstOld, firstApart⟩
    · rcases mem_identities_identity.mp secondIn with rfl | ⟨secondOld, apart⟩
      · rfl
      · rw [samePerson_symm, ← free second secondOld, apart] at same
        cases same
    · rcases mem_identities_identity.mp secondIn with rfl | ⟨secondOld, _⟩
      · rw [← free first firstOld, firstApart] at same
        cases same
      · exact good.persons first firstOld second secondOld same
  · intro other there
    rcases mem_identities_identity.mp there with rfl | ⟨there, _⟩
    · exact known
    · exact good.references other there

theorem Good.deleteUser (good : tables.Good) (id : Uuid)
    : (tables.apply (.deleteUser id)).Good := by
  refine ⟨?_, ?_, ?_, ?_, ?_⟩
  · intro first firstIn second secondIn
    exact good.ids first (mem_users_delete.mp firstIn).1 second (mem_users_delete.mp secondIn).1
  · intro first firstIn second secondIn
    exact good.logins first (mem_users_delete.mp firstIn).1 second (mem_users_delete.mp secondIn).1
  · intro first firstIn second secondIn
    exact good.subjects first (mem_identities_delete.mp firstIn).1 second
      (mem_identities_delete.mp secondIn).1
  · intro first firstIn second secondIn
    exact good.persons first (mem_identities_delete.mp firstIn).1 second
      (mem_identities_delete.mp secondIn).1
  · intro binding there
    obtain ⟨there, kept⟩ := mem_identities_delete.mp there
    obtain ⟨row, rowIn, named⟩ := good.references binding there
    exact ⟨row, mem_users_delete.mpr ⟨rowIn, named ▸ kept⟩, named⟩

/-- Every admitted write keeps the constraints, by cases on the write. -/
theorem Good.apply (good : tables.Good) (fine : tables.check write = none)
    : (tables.apply write).Good := by
  cases write with
  | user row => exact Good.user good fine
  | identity binding => exact Good.identity good fine
  | deleteUser id => exact Good.deleteUser good id

theorem Good.applyAll {writes : List Write} (good : tables.Good)
    (fine : rules.checkAll tables writes = none)
    : (rules.applyAll tables writes).Good :=
  applyAll_keeps (fun _ _ good fine => Good.apply good fine) good fine

end Good

end WslVpn.Auth
