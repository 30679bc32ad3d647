import WslVpn.Auth.Provider
import WslVpn.Control.Properties.UserDeletion
import WslVpn.Control.Scim
import WslVpn.Records.Latest

/-! The operations of a SCIM PATCH against their application to the record one after another. A path with
a value of another type takes back what came before it, and a display name in an object is dropped.
-/

namespace WslVpn

open Interleaving Records

-----------------------------------------------------------------------------------------
-- One operation after another
-----------------------------------------------------------------------------------------

namespace PatchOp

section Reading

variable (toLowercase : String → String)

/-- The operation replaces the field by its path. -/
def ByPath (field : String) (op : PatchOp) : Prop :=
  toLowercase op.op = "replace" ∧ op.path = some field

/-- What a replace gives a field, by its path or in an object. -/
def given (field : String) (op : PatchOp) : Option Json :=
  if toLowercase op.op = "replace" then
    if op.path = some "active" ∨ op.path = some "displayName" then
      if op.path = some field then op.value else none
    -- An operation with any other path is read like one without a path.
    else (op.value.bind Json.asObject).bind (Json.lookup field)
  else none

/-- What the operation validly sets `active` to. -/
def setsActive (op : PatchOp) : Option Bool := (op.given toLowercase "active").bind Json.readBool

def setsName (op : PatchOp) : Option String :=
  (op.given toLowercase "displayName").bind Json.readString

/-- An operation applied to a record. One that gives a value of another type changes nothing. -/
def apply (row : UserRow) (op : PatchOp) : UserRow := {
  row with
  active := (op.setsActive toLowercase).getD row.active
  displayName := (op.setsName toLowercase).or row.displayName
}

end Reading

/-- The two forms of a replace give the fields the same. -/
theorem given_forms (toLowercase : String → String) {op field : String} (value : Json)
    (two : field = "active" ∨ field = "displayName") (other : String)
    : given toLowercase other ⟨op, some field, some value⟩
      = given toLowercase other ⟨op, none, some (.object [(field, value)])⟩ := by
  by_cases same : field = other
  · subst same
    simp [given, two, Json.asObject, Json.lookup]
  · simp [given, two, same, Json.asObject, Json.lookup]

end PatchOp

/-- An operation deactivates, and none behind it validly activates. -/
def Deactivates (toLowercase : String → String) (operations : List PatchOp) : Prop :=
  ∃ before op after, operations = before ++ op :: after ∧ op.setsActive toLowercase = some false
    ∧ ∀ later ∈ after, later.setsActive toLowercase ≠ some true

/-- The update is that of the operations one after another, and reaches the sessions. -/
structure AppliedInOrder (toLowercase : String → String) (operations : List PatchOp) : Prop where
  record
    : ∀ db id shown after,
        (ScimRoute.patchUser toLowercase id operations).alone db = (.ok shown, after) →
          after.users
            = updateWhere (·.id == id) (fun row => operations.foldl (PatchOp.apply toLowercase) row)
                db.users
  sessions
    : Deactivates toLowercase operations → ∀ db id shown after,
        (ScimRoute.patchUser toLowercase id operations).alone db = (.ok shown, after) →
          ¬ after.ActiveSessionOf id

/-- The last operation that the update reads a field from gives it what the last one gives that validly
sets it.
-/
structure Intact (toLowercase : String → String) (operations : List PatchOp) : Prop where
  active
    : Reaches (fun op => op.ByPath toLowercase "active" ∨ (op.setsActive toLowercase).isSome)
        (PatchOp.setsActive toLowercase) operations
  displayName
    : Reaches (PatchOp.ByPath toLowercase "displayName") (PatchOp.setsName toLowercase) operations

-----------------------------------------------------------------------------------------
-- What is gathered and what is applied
-----------------------------------------------------------------------------------------

section Folds

variable (toLowercase : String → String)

instance (field : String) : DecidablePred (PatchOp.ByPath toLowercase field) :=
  fun op => inferInstanceAs (Decidable (toLowercase op.op = "replace" ∧ op.path = some field))

/-- What the update reads `active` from. -/
def writesActive : PatchOp → Option (Option Bool) :=
  overwrites (fun op => op.ByPath toLowercase "active" ∨ (op.setsActive toLowercase).isSome)
    (PatchOp.setsActive toLowercase)

def writesName : PatchOp → Option (Option String) :=
  overwrites (PatchOp.ByPath toLowercase "displayName") (PatchOp.setsName toLowercase)

/-- One turn of the loop, by cases on the form of the operation. -/
theorem gather_eq (fields : PatchedFields) (op : PatchOp)
    : ScimRoute.gather toLowercase fields op
      = { active := (writesActive toLowercase op).getD fields.active
          displayName := (writesName toLowercase op).getD fields.displayName } := by
  by_cases replaces : toLowercase op.op = "replace"
  · by_cases active : op.path = some "active"
    · simp [ScimRoute.gather, writesActive, writesName, overwrites, PatchOp.ByPath, PatchOp.setsActive,
        PatchOp.given, replaces, active]
    · by_cases named : op.path = some "displayName"
      · simp [ScimRoute.gather, writesActive, writesName, overwrites, PatchOp.ByPath, PatchOp.setsActive,
          PatchOp.setsName, PatchOp.given, replaces, named]
      · have sets : op.setsActive toLowercase
            = ((op.value.bind Json.asObject).bind (Json.lookup "active")).bind Json.readBool := by
          simp [PatchOp.setsActive, PatchOp.given, replaces, active, named]
        cases members : op.value.bind Json.asObject with
        | none =>
            rw [members] at sets
            simp [ScimRoute.gather, writesActive, writesName, overwrites, PatchOp.ByPath, replaces, active,
              named, members, sets]
        | some members' =>
            rw [members, Option.bind_some] at sets
            cases read : (Json.lookup "active" members').bind Json.readBool <;>
              simp [ScimRoute.gather, writesActive, writesName, overwrites, PatchOp.ByPath, replaces,
                active, named, members, sets, read]
  · simp [ScimRoute.gather, writesActive, writesName, overwrites, PatchOp.ByPath, PatchOp.setsActive,
      PatchOp.given, replaces]

/-- By induction on the operations. -/
theorem foldl_gather (operations : List PatchOp) (fields : PatchedFields)
    : operations.foldl (ScimRoute.gather toLowercase) fields
      = { active := (latest (writesActive toLowercase) operations).getD fields.active
          displayName := (latest (writesName toLowercase) operations).getD fields.displayName } := by
  induction operations generalizing fields with
  | nil => rfl
  | cons op rest ih =>
      rw [List.foldl_cons, ih, gather_eq, latest_cons, latest_cons]
      cases latest (writesActive toLowercase) rest <;> cases latest (writesName toLowercase) rest <;> rfl

/-- By induction on the operations. -/
theorem foldl_apply (operations : List PatchOp) (row : UserRow)
    : operations.foldl (PatchOp.apply toLowercase) row
      = { row with
          active := (latest (PatchOp.setsActive toLowercase) operations).getD row.active
          displayName := (latest (PatchOp.setsName toLowercase) operations).or row.displayName } := by
  induction operations generalizing row with
  | nil => rfl
  | cons op rest ih =>
      rw [List.foldl_cons, ih, PatchOp.apply, latest_cons, latest_cons]
      cases latest (PatchOp.setsActive toLowercase) rest
        <;> cases latest (PatchOp.setsName toLowercase) rest <;> rfl

/-- The update is the one of the operations in their order. -/
theorem request_eq_iff (operations : List PatchOp)
    : ScimRoute.patchRequest toLowercase operations
        = ⟨latest (PatchOp.setsName toLowercase) operations,
          latest (PatchOp.setsActive toLowercase) operations, none⟩
      ↔ Intact toLowercase operations := by
  rw [ScimRoute.patchRequest, foldl_gather, UpdateUserRequest.mk.injEq]
  constructor
  · intro same
    exact ⟨(latest_overwrites_iff _).mp same.2.1, (latest_overwrites_iff _).mp same.1⟩
  · intro intact
    exact ⟨(latest_overwrites_iff _).mpr intact.displayName,
      (latest_overwrites_iff _).mpr intact.active, rfl⟩

theorem Deactivates.latest {operations : List PatchOp} (deactivates : Deactivates toLowercase operations)
    : Records.latest (PatchOp.setsActive toLowercase) operations = some false := by
  obtain ⟨before, op, after, rfl, off, never⟩ := deactivates
  rw [latest_append, latest_cons, off]
  cases later : Records.latest (PatchOp.setsActive toLowercase) after with
  | none => rfl
  | some value =>
      obtain ⟨item, ⟨front, back, split, _⟩, here⟩ := latest_eq_some.mp later
      have member : item ∈ after := split ▸ List.mem_append_right _ List.mem_cons_self
      cases value with
      | false => rfl
      | true => exact absurd here (never item member)

end Folds

-----------------------------------------------------------------------------------------
-- The call
-----------------------------------------------------------------------------------------

section Call

variable {db : Db}

/-- A session that is active now has been one of the same user's before. -/
def Db.Continues (before after : Db) : Prop :=
  ∀ session ∈ after.sessions, session.status = .active →
    ∃ old ∈ before.sessions, old.id = session.id ∧ old.userId = session.userId ∧ old.status = .active

theorem updateSessionRevoked_continues (id : Uuid) : db.Continues (db.updateSessionRevoked id) := by
  intro session member active
  obtain ⟨old, there, rfl⟩ := mem_updateWhere.mp member
  split at active
  · cases active
  · next inactive =>
      rw [if_neg inactive]
      exact ⟨old, there, rfl, rfl, active⟩

theorem revoke_continues (id : Uuid) : db.Continues ((SessionService.revoke id).alone db).2 := by
  have began : (SessionService.revoke id).alone db
      = (if db.sessions.countP (Db.isActiveSession id) = 0 then return false
          else SessionService.dismantle id).alone (db.updateSessionRevoked id) :=
    Program.alone_bind_ok (alone_query_ok rfl)
  rw [began]
  split
  · exact updateSessionRevoked_continues id
  · exact updateSessionRevoked_continues id

/-- By induction on the sessions. -/
theorem revokeEach_continues (ids : List Uuid)
    : db.Continues ((SessionService.revokeEach ids).alone db).2 := by
  induction ids generalizing db with
  | nil => exact fun session member active => ⟨session, member, rfl, rfl, active⟩
  | cons id rest ih =>
      obtain ⟨count, between, first, _⟩ := @revoke_alone db id
      have one := @revoke_continues db id
      have goesOn : (SessionService.revokeEach (id :: rest)).alone db
          = (SessionService.revokeEach rest).alone between := Program.alone_bind_ok first
      rw [first] at one
      rw [goesOn]
      intro session member active
      obtain ⟨old, there, same, own, was⟩ := @ih between session member active
      obtain ⟨older, before, same', own', was'⟩ := one old there was
      exact ⟨older, before, same'.trans same, own'.trans own, was'⟩

/-- No session of the user is active behind the revocation. -/
theorem revokeUserSessions_ends (userId : Uuid)
    : ¬ ((SessionService.revokeUserSessions userId).alone db).2.ActiveSessionOf userId := by
  let ids := (db.sessions.filter (fun row => row.userId == userId && row.status == .active)).map (·.id)
  obtain ⟨after, ran, withdrawn⟩ := @revokeEach_alone db ids
  have whole : (SessionService.revokeUserSessions userId).alone db = (.ok (), after) :=
    (Program.alone_bind_ok (alone_query_ok rfl)).trans ran
  have continues := @revokeEach_continues db ids
  rw [ran] at continues
  rw [whole]
  intro still
  obtain ⟨session, member, own, active⟩ := still
  obtain ⟨old, there, same, own', was⟩ := continues session member active
  have listed : old.id ∈ ids := by
    refine List.mem_map_of_mem (List.mem_filter.mpr ⟨there, ?_⟩)
    simp [own', own, was]
  exact withdrawn.ended _ listed session member same.symm active

/-- What the call leaves of the users, and of the sessions of one that it deactivates. -/
theorem update_alone (id : Uuid) (request : UpdateUserRequest)
    : ∃ after, (UserService.update id request).alone db = (.ok (db.updateUser id request).1, after)
        ∧ after.users = (db.updateUser id request).2.users
        ∧ (request.active = some false → ¬ after.ActiveSessionOf id) := by
  have began : (UserService.update id request).alone db
      = (if request.active = some false then do
            SessionService.revokeUserSessions id
            return (db.updateUser id request).1
          else return (db.updateUser id request).1 : Call (Option User)).alone
          (db.updateUser id request).2 :=
    Program.alone_bind_ok (alone_query_ok rfl)
  rw [began]
  by_cases off : request.active = some false
  · obtain ⟨after, ran, users, _⟩ := @revokeUserSessions_alone (db.updateUser id request).2 id
    have ends := @revokeUserSessions_ends (db.updateUser id request).2 id
    rw [ran] at ends
    rw [if_pos off]
    exact ⟨after, Program.alone_bind_ok ran, users, fun _ => ends⟩
  · rw [if_neg off]
    exact ⟨_, rfl, rfl, fun off' => absurd off' off⟩

variable {toLowercase : String → String} {operations : List PatchOp} {id : Uuid} {shown : ScimUser}
  {after : Db}

theorem patchUser_ok
    (ran : (ScimRoute.patchUser toLowercase id operations).alone db = (.ok shown, after))
    : after.users = (db.updateUser id (ScimRoute.patchRequest toLowercase operations)).2.users
      ∧ ((ScimRoute.patchRequest toLowercase operations).active = some false →
          ¬ after.ActiveSessionOf id) := by
  obtain ⟨between, updates, users, sessions⟩ :=
    @update_alone db id (ScimRoute.patchRequest toLowercase operations)
  rw [ScimRoute.patchUser, Program.alone_bind_ok updates] at ran
  cases row : (db.updateUser id (ScimRoute.patchRequest toLowercase operations)).1 with
  | none =>
      rw [row] at ran
      cases ran
  | some user =>
      rw [row] at ran
      cases ran
      exact ⟨users, sessions⟩

/-- The only user of a database is updated. -/
theorem patchUser_single (toLowercase : String → String) (operations : List PatchOp) (row : UserRow)
    : ∃ shown after,
        (ScimRoute.patchUser toLowercase row.id operations).alone { Db.empty 0 with users := [row] }
          = (.ok shown, after) := by
  obtain ⟨between, updates, _⟩ :=
    @update_alone { Db.empty 0 with users := [row] } row.id
      (ScimRoute.patchRequest toLowercase operations)
  have found : ∃ user, (Db.updateUser { Db.empty 0 with users := [row] } row.id
      (ScimRoute.patchRequest toLowercase operations)).1 = some user := by
    simp [Db.updateUser]
  obtain ⟨user, found⟩ := found
  rw [found] at updates
  exact ⟨toScimUser user, between, Program.alone_bind_ok updates⟩

end Call

/-- The update is that of the operations one after another exactly where the last operation that it reads
a field from is the last one that validly sets it, or gives the same.
-/
theorem appliedInOrder_iff (toLowercase : String → String) (operations : List PatchOp)
    : AppliedInOrder toLowercase operations ↔ Intact toLowercase operations := by
  rw [← request_eq_iff]
  constructor
  · intro applied
    have same : ∀ row : UserRow,
        { row with
          displayName := (ScimRoute.patchRequest toLowercase operations).displayName.or row.displayName
          active := (ScimRoute.patchRequest toLowercase operations).active.getD row.active }
        = operations.foldl (PatchOp.apply toLowercase) row := by
      intro row
      obtain ⟨shown, after, ran⟩ := patchUser_single toLowercase operations row
      have users := (patchUser_ok ran).1.symm.trans (applied.record _ _ _ _ ran)
      simpa [Db.updateUser, updateWhere, ScimRoute.patchRequest] using users
    have one : ∀ active, (ScimRoute.patchRequest toLowercase operations).displayName
          = latest (PatchOp.setsName toLowercase) operations
        ∧ (ScimRoute.patchRequest toLowercase operations).active.getD active
          = (latest (PatchOp.setsActive toLowercase) operations).getD active := by
      intro active
      simpa [foldl_apply] using same ⟨1, "bob@example.com", none, none, active, .member⟩
    have active : (ScimRoute.patchRequest toLowercase operations).active
        = latest (PatchOp.setsActive toLowercase) operations := by
      have off := (one false).2
      have on := (one true).2
      revert off on
      cases (ScimRoute.patchRequest toLowercase operations).active
        <;> cases latest (PatchOp.setsActive toLowercase) operations <;> simp_all
    rw [← (one true).1, ← active]
    rfl
  · intro same
    refine ⟨?_, ?_⟩
    · intro db id shown after ran
      rw [(patchUser_ok ran).1, same]
      simp only [foldl_apply]
      rfl
    · intro deactivates db id shown after ran
      refine (patchUser_ok ran).2 ?_
      rw [same, deactivates.latest]

/-- A user is deactivated, and the operation behind that gives `active` a text. -/
def misspelt : List PatchOp :=
  [⟨"replace", some "active", some (.bool false)⟩, ⟨"replace", some "active", some (.string "False")⟩]

theorem deactivation_lost : ¬ AppliedInOrder Auth.asciiLower misspelt := by
  intro applied
  obtain ⟨shown, after, ran⟩ :=
    patchUser_single Auth.asciiLower misspelt ⟨1, "bob@example.com", none, none, true, .member⟩
  have users := (patchUser_ok ran).1.symm.trans (applied.record _ _ _ _ ran)
  have lost : ScimRoute.patchRequest Auth.asciiLower misspelt = ⟨none, none, none⟩ := rfl
  have inOrder : misspelt.foldl (PatchOp.apply Auth.asciiLower)
      ⟨1, "bob@example.com", none, none, true, .member⟩
        = ⟨1, "bob@example.com", none, none, false, .member⟩ := rfl
  rw [lost] at users
  simp [Db.updateUser, updateWhere, inOrder] at users

end WslVpn
