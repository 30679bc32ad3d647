import WslVpn.Interleaving.Contracts
import WslVpn.Control.Traffic

/-! The tables of the policies: what each statement does to them, and what holds of them whatever
calls are interleaved.
-/

namespace WslVpn

open Interleaving

/-- The greatest stored version of a policy, 0 when there is none. -/
def Db.latestVersion (db : Db) (policyId : Uuid) : Int :=
  ((db.policyVersions.filter (·.policyId == policyId)).map (·.version)).foldl max 0

section Latest

variable {db : Db} {policyId : Uuid} {row : PolicyVersionRow}

/-- The fold of a maximum is above its start and its elements, and is one of them. -/
theorem foldl_max_spec (versions : List Int) (start : Int)
    : start ≤ versions.foldl max start ∧ (∀ version ∈ versions, version ≤ versions.foldl max start)
      ∧ (versions.foldl max start = start ∨ versions.foldl max start ∈ versions) := by
  induction versions generalizing start with
  | nil => simp
  | cons head rest ih =>
      obtain ⟨above, bounds, reached⟩ := ih (max start head)
      simp only [List.foldl_cons]
      refine ⟨le_trans (le_max_left _ _) above, ?_, ?_⟩
      · intro version there
        rcases List.mem_cons.mp there with rfl | later
        · exact le_trans (le_max_right _ _) above
        · exact bounds version later
      · rcases reached with same | later
        · rcases max_choice start head with left | right
          · exact Or.inl (same.trans left)
          · exact Or.inr (List.mem_cons.mpr (Or.inl (same.trans right)))
        · exact Or.inr (List.mem_cons_of_mem _ later)

theorem latestVersion_nonneg : 0 ≤ db.latestVersion policyId := (foldl_max_spec _ _).1

theorem le_latestVersion (there : row ∈ db.policyVersions) (own : row.policyId = policyId)
    : row.version ≤ db.latestVersion policyId :=
  (foldl_max_spec _ 0).2.1 row.version
    (List.mem_map_of_mem (List.mem_filter.mpr ⟨there, by simp [own]⟩))

/-- A version that has been stored after the others. -/
theorem latestVersion_append {versions : List PolicyVersionRow}
    (stored : db.policyVersions = versions ++ [row]) {before : Db}
    (old : before.policyVersions = versions)
    : db.latestVersion policyId
      = if row.policyId = policyId then max (before.latestVersion policyId) row.version
        else before.latestVersion policyId := by
  unfold Db.latestVersion
  rw [stored, old, List.filter_append]
  by_cases own : row.policyId = policyId
  · simp [own]
  · simp [own]

end Latest

namespace Statement

def policiesAfter : Statement → Db → List PolicyRow
  | .upsertPolicy id name gitCommit, db =>
      match db.policies.find? (·.name == name) with
      | some _ => db.policies
      | none => db.policies ++ [{ id, name, currentVersion := 0, gitCommit }]
  | .updatePolicyVersion id version gitCommit, db =>
      updateWhere (·.id == id) (fun row => { row with currentVersion := version, gitCommit })
        db.policies
  | _, db => db.policies

def policyVersionsAfter : Statement → Db → List PolicyVersionRow
  | .insertPolicyVersion row, db => db.policyVersions ++ [row]
  | _, db => db.policyVersions

variable {statement : Statement} {db after : Db} {reply : statement.Reply}

theorem insertPolicyVersion_ok {row reply : PolicyVersionRow}
    (ran : db.insertPolicyVersion row = .ok (reply, after))
    : (∀ other ∈ db.policyVersions,
        ¬ (other.policyId = row.policyId ∧ other.version = row.version))
      ∧ db.hasPolicy row.policyId = true ∧ reply = row
      ∧ after = { db with policyVersions := db.policyVersions ++ [row] } := by
  unfold Db.insertPolicyVersion at ran
  split at ran
  · cases ran
  · rename_i unused
    split at ran
    · rename_i known
      cases ran
      refine ⟨?_, known, rfl, rfl⟩
      intro other there given
      obtain ⟨policy, version⟩ := given
      exact unused (List.any_eq_true.mpr ⟨other, there, by simp [policy, version]⟩)
    · cases ran

theorem upsertPolicy_ok {id : Uuid} {name : String} {gitCommit : Option String} {reply : Uuid}
    (ran : (Statement.upsertPolicy id name gitCommit).exec db = .ok (reply, after))
    : ((∃ stored ∈ db.policies, stored.name = name ∧ reply = stored.id) ∧ after = db)
      ∨ ((∀ policy ∈ db.policies, policy.name ≠ name) ∧ db.hasPolicy id = false ∧ reply = id
        ∧ after = { db with
            policies := db.policies ++ [{ id, name, currentVersion := 0, gitCommit }] }) := by
  simp only [exec] at ran
  split at ran
  · rename_i stored found
    cases ran
    exact Or.inl ⟨⟨stored, List.mem_of_find?_eq_some found, by simpa using List.find?_some found,
      rfl⟩, rfl⟩
  · rename_i missing
    split at ran
    · cases ran
    · rename_i unused
      cases ran
      refine Or.inr ⟨?_, by simpa using unused, rfl, rfl⟩
      exact fun policy there => by simpa using List.find?_eq_none.mp missing policy there

/-- What a statement leaves in the tables of the policies, by cases on the statement. -/
theorem policies_exec (ran : statement.exec db = .ok (reply, after))
    : after.policies = statement.policiesAfter db
      ∧ after.policyVersions = statement.policyVersionsAfter db := by
  have frame := exec_frame ran
  cases statement with
  | insertPolicyVersion row =>
      obtain ⟨_, _, _, rfl⟩ := insertPolicyVersion_ok ran
      exact ⟨rfl, rfl⟩
  | updatePolicyVersion =>
      cases ran
      exact ⟨rfl, rfl⟩
  | upsertPolicy id name gitCommit =>
      simp only [exec] at ran
      split at ran
      · rename_i found
        cases ran
        simp only [policiesAfter, policyVersionsAfter, found, and_self]
      · rename_i missing
        split at ran
        · cases ran
        · cases ran
          simp only [policiesAfter, policyVersionsAfter, missing, and_self]
  | _ => exact ⟨frame.policies rfl, frame.policyVersions rfl⟩

end Statement

-----------------------------------------------------------------------------------------
-- What always holds of the tables
-----------------------------------------------------------------------------------------

/-- The versions of each policy are numbered from 1 on without gaps, they carry its name, and the
policy points to one of them, with its commit, or to none yet.
-/
structure Versioned (db : Db) : Prop where
  ids : ∀ left ∈ db.policies, ∀ right ∈ db.policies, left.id = right.id → left = right
  names : ∀ left ∈ db.policies, ∀ right ∈ db.policies, left.name = right.name → left = right
  keys
    : ∀ left ∈ db.policyVersions, ∀ right ∈ db.policyVersions,
        left.policyId = right.policyId → left.version = right.version → left = right
  named
    : ∀ row ∈ db.policyVersions, ∃ policy ∈ db.policies,
        policy.id = row.policyId ∧ policy.name = row.document.metadata.name
  positive : ∀ row ∈ db.policyVersions, 1 ≤ row.version
  dense
    : ∀ policyId version, 1 ≤ version → version ≤ db.latestVersion policyId
        → ∃ row ∈ db.policyVersions, row.policyId = policyId ∧ row.version = version
  pointer
    : ∀ policy ∈ db.policies, policy.currentVersion = 0
        ∨ ∃ row ∈ db.policyVersions, row.policyId = policy.id
            ∧ row.version = policy.currentVersion ∧ row.gitCommit = policy.gitCommit

/-- Policies keep their names, and versions stay as they are. -/
structure Grown (before after : Db) : Prop where
  policies
    : ∀ policy ∈ before.policies, ∃ new ∈ after.policies,
        new.id = policy.id ∧ new.name = policy.name
  versions : ∀ row ∈ before.policyVersions, row ∈ after.policyVersions

/-- The policy of the version is there under the name in its document. -/
def Db.Names (db : Db) (row : PolicyVersionRow) : Prop :=
  ∃ policy ∈ db.policies, policy.id = row.policyId ∧ policy.name = row.document.metadata.name

/-- A version is stored for its policy as the next one at most, and a pointer follows its version.
-/
def versionsInOrder : Statement → Db → Prop
  | .insertPolicyVersion row, db =>
      db.Names row ∧ 1 ≤ row.version ∧ row.version ≤ db.latestVersion row.policyId + 1
  | .updatePolicyVersion id version gitCommit, db =>
      ∃ row ∈ db.policyVersions, row.policyId = id ∧ row.version = version
        ∧ row.gitCommit = gitCommit
  | _, _ => True

section Step

variable {statement : Statement} {db after now : Db} {reply : statement.Reply}

theorem Grown.refl (db : Db) : Grown db db where
  policies := fun policy there => ⟨policy, there, rfl, rfl⟩
  versions := fun _ there => there

theorem Grown.trans (first : Grown db after) (second : Grown after now) : Grown db now where
  policies := by
    intro policy there
    obtain ⟨middle, between, id, name⟩ := first.policies policy there
    obtain ⟨new, member, id', name'⟩ := second.policies middle between
    exact ⟨new, member, id'.trans id, name'.trans name⟩
  versions := fun row there => second.versions row (first.versions row there)

theorem Grown.names (grown : Grown db after) {row : PolicyVersionRow} (names : db.Names row)
    : after.Names row := by
  obtain ⟨policy, there, id, name⟩ := names
  obtain ⟨new, member, newId, newName⟩ := grown.policies policy there
  exact ⟨new, member, newId.trans id, newName.trans name⟩

/-- The latest version is 0 or stored. -/
theorem latestVersion_stored (db : Db) (policyId : Uuid)
    : db.latestVersion policyId = 0
      ∨ ∃ row ∈ db.policyVersions, row.policyId = policyId
          ∧ row.version = db.latestVersion policyId := by
  rcases (foldl_max_spec ((db.policyVersions.filter (·.policyId == policyId)).map (·.version)) 0).2.2
    with none | reached
  · exact Or.inl none
  · obtain ⟨row, listed, version⟩ := List.mem_map.mp reached
    obtain ⟨there, own⟩ := List.mem_filter.mp listed
    exact Or.inr ⟨row, there, by simpa using own, version⟩

theorem Grown.latestVersion (grown : Grown db after) (policyId : Uuid)
    : db.latestVersion policyId ≤ after.latestVersion policyId := by
  rcases latestVersion_stored db policyId with none | ⟨row, there, own, version⟩
  · rw [none]
    exact latestVersion_nonneg
  · rw [← version]
    exact le_latestVersion (grown.versions row there) own

/-- No statement removes a policy or a version, by cases on the statement. -/
theorem exec_grown (ran : statement.exec db = .ok (reply, after)) : Grown db after := by
  obtain ⟨policies, versions⟩ := Statement.policies_exec ran
  refine ⟨?_, ?_⟩
  · intro policy there
    rw [policies]
    cases statement with
    | upsertPolicy id name gitCommit =>
        simp only [Statement.policiesAfter]
        split
        · exact ⟨policy, there, rfl, rfl⟩
        · exact ⟨policy, List.mem_append_left _ there, rfl, rfl⟩
    | updatePolicyVersion id version gitCommit =>
        refine ⟨_, mem_updateWhere.mpr ⟨policy, there, rfl⟩, ?_⟩
        split <;> exact ⟨rfl, rfl⟩
    | _ => exact ⟨policy, there, rfl, rfl⟩
  · intro row there
    rw [versions]
    cases statement with
    | insertPolicyVersion => exact List.mem_append_left _ there
    | _ => exact there

/-- A version that is stored in order is the latest one of its policy. -/
theorem Versioned.latestVersion_insert (versioned : Versioned db) {row : PolicyVersionRow}
    {stored : PolicyVersionRow} (inOrder : versionsInOrder (.insertPolicyVersion row) db)
    (ran : (Statement.insertPolicyVersion row).exec db = .ok (stored, after))
    : row.version = db.latestVersion row.policyId + 1 := by
  obtain ⟨unused, _, _, _⟩ := Statement.insertPolicyVersion_ok ran
  obtain ⟨_, positive, next⟩ := inOrder
  by_contra older
  obtain ⟨other, there, own, version⟩ :=
    versioned.dense row.policyId row.version positive (by omega)
  exact unused other there ⟨own, version⟩

theorem latestVersion_congr (versions : after.policyVersions = db.policyVersions) (policyId : Uuid)
    : after.latestVersion policyId = db.latestVersion policyId := by
  rw [Db.latestVersion, versions, Db.latestVersion]

/-- A new policy has no versions yet. -/
theorem Versioned.upsertPolicy (versioned : Versioned db) {id : Uuid} {name : String}
    {gitCommit : Option String} (unnamed : ∀ policy ∈ db.policies, policy.name ≠ name)
    (unused : db.hasPolicy id = false)
    : Versioned { db with
        policies := db.policies ++ [{ id, name, currentVersion := 0, gitCommit }] } where
  ids := by
    have fresh : ∀ policy ∈ db.policies, policy.id ≠ id := by
      intro policy there same
      have known : db.hasPolicy id = true := List.any_eq_true.mpr ⟨policy, there, by simp [same]⟩
      rw [unused] at known
      cases known
    intro left leftThere right rightThere same
    rcases List.mem_append.mp leftThere with leftOld | leftNew <;>
      rcases List.mem_append.mp rightThere with rightOld | rightNew
    · exact versioned.ids left leftOld right rightOld same
    · obtain rfl := List.mem_singleton.mp rightNew
      exact absurd same (fresh left leftOld)
    · obtain rfl := List.mem_singleton.mp leftNew
      exact absurd same.symm (fresh right rightOld)
    · rw [List.mem_singleton.mp leftNew, List.mem_singleton.mp rightNew]
  names := by
    intro left leftThere right rightThere same
    rcases List.mem_append.mp leftThere with leftOld | leftNew <;>
      rcases List.mem_append.mp rightThere with rightOld | rightNew
    · exact versioned.names left leftOld right rightOld same
    · obtain rfl := List.mem_singleton.mp rightNew
      exact absurd same (unnamed left leftOld)
    · obtain rfl := List.mem_singleton.mp leftNew
      exact absurd same.symm (unnamed right rightOld)
    · rw [List.mem_singleton.mp leftNew, List.mem_singleton.mp rightNew]
  keys := versioned.keys
  named := by
    intro row there
    obtain ⟨policy, member, names⟩ := versioned.named row there
    exact ⟨policy, List.mem_append_left _ member, names⟩
  positive := versioned.positive
  dense := versioned.dense
  pointer := by
    intro policy there
    rcases List.mem_append.mp there with old | new
    · exact versioned.pointer policy old
    · rw [List.mem_singleton.mp new]
      exact Or.inl rfl

/-- The next version of a policy. -/
theorem Versioned.insertPolicyVersion (versioned : Versioned db) {row : PolicyVersionRow}
    (names : db.Names row) (next : row.version = db.latestVersion row.policyId + 1)
    (unused : ∀ other ∈ db.policyVersions,
      ¬ (other.policyId = row.policyId ∧ other.version = row.version))
    : Versioned { db with policyVersions := db.policyVersions ++ [row] } where
  ids := versioned.ids
  names := versioned.names
  keys := by
    intro left leftThere right rightThere policy version
    rcases List.mem_append.mp leftThere with leftOld | leftNew <;>
      rcases List.mem_append.mp rightThere with rightOld | rightNew
    · exact versioned.keys left leftOld right rightOld policy version
    · obtain rfl := List.mem_singleton.mp rightNew
      exact absurd ⟨policy, version⟩ (unused left leftOld)
    · obtain rfl := List.mem_singleton.mp leftNew
      exact absurd ⟨policy.symm, version.symm⟩ (unused right rightOld)
    · rw [List.mem_singleton.mp leftNew, List.mem_singleton.mp rightNew]
  named := by
    intro other there
    rcases List.mem_append.mp there with old | new
    · exact versioned.named other old
    · rw [List.mem_singleton.mp new]
      exact names
  positive := by
    intro other there
    rcases List.mem_append.mp there with old | new
    · exact versioned.positive other old
    · rw [List.mem_singleton.mp new, next]
      have := @latestVersion_nonneg db row.policyId
      omega
  dense := by
    intro policyId version positive bound
    rw [@latestVersion_append _ policyId row db.policyVersions rfl db rfl] at bound
    by_cases older : version ≤ db.latestVersion policyId
    · obtain ⟨other, there, own⟩ := versioned.dense policyId version positive older
      exact ⟨other, List.mem_append_left _ there, own⟩
    · refine ⟨row, List.mem_append_right _ List.mem_cons_self, ?_⟩
      split at bound
      · rename_i own
        subst own
        refine ⟨rfl, ?_⟩
        omega
      · exact absurd bound older
  pointer := by
    intro policy there
    rcases versioned.pointer policy there with none | ⟨other, member, own⟩
    · exact Or.inl none
    · exact Or.inr ⟨other, List.mem_append_left _ member, own⟩

/-- A policy that is pointed to a stored version, with its commit. -/
theorem Versioned.updatePolicyVersion (versioned : Versioned db) {id : Uuid} {version : Int}
    {gitCommit : Option String}
    (stored : ∃ row ∈ db.policyVersions, row.policyId = id ∧ row.version = version
      ∧ row.gitCommit = gitCommit)
    : Versioned { db with
        policies := updateWhere (·.id == id)
          (fun row => { row with currentVersion := version, gitCommit }) db.policies } := by
  -- The update touches neither identifiers nor names.
  have same : ∀ {old : PolicyRow},
      (if (old.id == id) = true then { old with currentVersion := version, gitCommit } else old).id
          = old.id
        ∧ (if (old.id == id) = true then { old with currentVersion := version, gitCommit }
            else old).name = old.name := by
    intro old
    split <;> exact ⟨rfl, rfl⟩
  constructor
  case ids =>
    intro left leftThere right rightThere ids
    obtain ⟨oldLeft, leftMember, rfl⟩ := mem_updateWhere.mp leftThere
    obtain ⟨oldRight, rightMember, rfl⟩ := mem_updateWhere.mp rightThere
    rw [same.1, same.1] at ids
    rw [versioned.ids oldLeft leftMember oldRight rightMember ids]
  case names =>
    intro left leftThere right rightThere names
    obtain ⟨oldLeft, leftMember, rfl⟩ := mem_updateWhere.mp leftThere
    obtain ⟨oldRight, rightMember, rfl⟩ := mem_updateWhere.mp rightThere
    rw [same.2, same.2] at names
    rw [versioned.names oldLeft leftMember oldRight rightMember names]
  case keys => exact versioned.keys
  case named =>
    intro row there
    obtain ⟨policy, member, names⟩ := versioned.named row there
    exact ⟨_, mem_updateWhere.mpr ⟨policy, member, rfl⟩, same.1.trans names.1, same.2.trans names.2⟩
  case positive => exact versioned.positive
  case dense => exact versioned.dense
  case pointer =>
    intro policy there
    obtain ⟨old, member, rfl⟩ := mem_updateWhere.mp there
    split
    · rename_i own
      have own : old.id = id := by simpa using own
      obtain ⟨row, rowThere, policyId, isVersion, commit⟩ := stored
      exact Or.inr ⟨row, rowThere, policyId.trans own.symm, isVersion, commit⟩
    · exact versioned.pointer old member

/-- What holds of other tables does not matter. -/
theorem Versioned.congr (versioned : Versioned db) (policies : after.policies = db.policies)
    (versions : after.policyVersions = db.policyVersions)
    : Versioned after where
  ids := policies ▸ versioned.ids
  names := policies ▸ versioned.names
  keys := versions ▸ versioned.keys
  named := by
    rw [policies, versions]
    exact versioned.named
  positive := versions ▸ versioned.positive
  dense := by
    intro policyId version positive bound
    rw [latestVersion_congr versions] at bound
    rw [versions]
    exact versioned.dense policyId version positive bound
  pointer := by
    rw [policies, versions]
    exact versioned.pointer

/-- Statements that are sent in order keep the tables so, by cases on the statement. -/
theorem Versioned.step (versioned : Versioned db) (inOrder : versionsInOrder statement db)
    (ran : statement.exec db = .ok (reply, after))
    : Versioned after := by
  cases statement with
  | upsertPolicy id name gitCommit =>
      rcases Statement.upsertPolicy_ok ran with ⟨_, rfl⟩ | ⟨unnamed, unused, _, rfl⟩
      · exact versioned
      · exact versioned.upsertPolicy unnamed unused
  | insertPolicyVersion row =>
      have next := versioned.latestVersion_insert inOrder ran
      obtain ⟨unused, _, _, rfl⟩ := Statement.insertPolicyVersion_ok ran
      exact versioned.insertPolicyVersion inOrder.1 next unused
  | updatePolicyVersion id version gitCommit =>
      cases ran
      exact versioned.updatePolicyVersion inOrder
  | _ =>
      obtain ⟨policies, versions⟩ := Statement.policies_exec ran
      exact versioned.congr policies versions

end Step

/-- Every call stores versions in order. -/
def versioning : Contract sql where
  possible := Versioned
  later := fun _ => Grown
  may := fun _ _ => True
  mayLose := fun _ _ => True
  asserts := fun _ => versionsInOrder
  later_refl := fun _ => Grown.refl
  later_trans := Grown.trans
  exec_sound := by
    intro call op state reply after versioned _ inOrder ran
    exact ⟨versioned.step inOrder ran, fun _ _ => exec_grown ran⟩

section Calls

variable {call : Nat} {db : Db}

/-- A policy that is applied: its row, its next version, the pointer to it. -/
theorem applyPolicyYaml_keeps {freshId : Uuid} {document : AccessPolicyDocument}
    {gitCommit : Option String}
    : (GitOpsService.applyPolicyYaml freshId document gitCommit).Keeps versioning call
        (fun _ _ => True) db := by
  unfold GitOpsService.applyPolicyYaml
  split
  · trivial
  · rename_i doc _
    refine Program.Keeps.request ?_
    intro now _ _ _
    refine ⟨trivial, ?_⟩
    intro policyId after ran _
    -- The row of the policy is there, whether it is new or not.
    have there : ∃ policy ∈ after.policies, policy.id = policyId
        ∧ policy.name = doc.metadata.name := by
      rcases Statement.upsertPolicy_ok ran with
        ⟨⟨stored, member, name, isStored⟩, unchanged⟩ | ⟨_, _, isFresh, changed⟩
      · rw [unchanged]
        exact ⟨stored, member, isStored.symm, name⟩
      · rw [changed]
        exact ⟨_, List.mem_append_right _ List.mem_cons_self, isFresh.symm, rfl⟩
    refine Program.Keeps.request ?_
    intro now grown _ _
    refine ⟨trivial, ?_⟩
    intro version after' ran _
    cases ran
    refine Program.Keeps.request ?_
    intro last grown' _ _
    have names : last.Names ⟨policyId, now.nextPolicyVersion policyId, doc, gitCommit⟩ :=
      (grown.trans grown').names there
    have positive := @latestVersion_nonneg now policyId
    have next : now.nextPolicyVersion policyId = now.latestVersion policyId + 1 := rfl
    have bound := grown'.latestVersion policyId
    refine ⟨⟨names, ?_, ?_⟩, ?_⟩
    · change 1 ≤ now.nextPolicyVersion policyId
      omega
    · change now.nextPolicyVersion policyId ≤ last.latestVersion policyId + 1
      omega
    · intro stored after ran _
      obtain ⟨_, _, _, stores⟩ := Statement.insertPolicyVersion_ok ran
      refine Program.Keeps.request ?_
      intro final grown _ _
      subst stores
      refine ⟨⟨_, grown.versions _ (List.mem_append_right _ List.mem_cons_self), rfl, rfl, rfl⟩, ?_⟩
      exact fun _ _ _ _ _ _ _ => trivial

/-- The statement stores no version and moves no pointer. -/
def Statement.plain : Statement → Bool
  | .insertPolicyVersion _ | .updatePolicyVersion .. => false
  | _ => true

/-- A program of plain statements, from any state. -/
theorem plain_keeps {Value : Type} {program : Call Value}
    (plain
      : program.Along (fun _ _ => True) (fun statement : Statement => statement.plain = true)
          (fun _ => True))
    : program.Keeps versioning call (fun _ _ => True) db := by
  refine plain.keeps (fun _ _ _ _ => trivial) ?_ trivial
  intro statement now plain _ _ _
  refine ⟨?_, fun _ _ _ => trivial⟩
  cases statement <;> trivial

/-- Only the statements of a version are not plain. -/
theorem Statement.cases_of_not_plain {statement : Statement} (notPlain : statement.plain ≠ true)
    : (∃ row, statement = .insertPolicyVersion row)
      ∨ ∃ id version gitCommit, statement = .updatePolicyVersion id version gitCommit := by
  cases statement with
  | insertPolicyVersion row => exact Or.inl ⟨row, rfl⟩
  | updatePolicyVersion id version gitCommit => exact Or.inr ⟨id, version, gitCommit, rfl⟩
  | _ => exact absurd rfl notPlain

/-- A plain statement stores no version. -/
theorem Statement.policyVersions_plain {statement : Statement} {after : Db}
    {reply : statement.Reply} (plain : statement.plain = true)
    (ran : statement.exec db = .ok (reply, after))
    : after.policyVersions = db.policyVersions := by
  rw [(policies_exec ran).2]
  cases statement with
  | insertPolicyVersion => cases plain
  | _ => rfl

/-- The policies that a plain statement adds have no versions. -/
theorem Versioned.policy_after {statement : Statement} {after : Db} {reply : statement.Reply}
    (versioned : Versioned db) (plain : statement.plain = true)
    (ran : statement.exec db = .ok (reply, after))
    : ∀ policy ∈ after.policies, policy ∈ db.policies
        ∨ (policy.currentVersion = 0 ∧ after.latestVersion policy.id = 0) := by
  intro policy there
  have policies := (Statement.policies_exec ran).1
  cases statement with
  | upsertPolicy id name gitCommit =>
      have versions := Statement.policyVersions_plain plain ran
      rcases Statement.upsertPolicy_ok ran with ⟨_, rfl⟩ | ⟨_, unused, _, added⟩
      · exact Or.inl there
      · rw [added] at there
        rcases List.mem_append.mp there with old | new
        · exact Or.inl old
        · obtain rfl := List.mem_singleton.mp new
          refine Or.inr ⟨rfl, ?_⟩
          rw [latestVersion_congr versions]
          -- Versions belong to known policies, so a new policy has none.
          rcases latestVersion_stored db id with none | ⟨row, member, own, _⟩
          · exact none
          · obtain ⟨stored, storedThere, same, _⟩ := versioned.named row member
            have known : db.hasPolicy id = true :=
              List.any_eq_true.mpr ⟨stored, storedThere, by simp [same, own]⟩
            rw [unused] at known
            cases known
  | updatePolicyVersion => cases plain
  | _ =>
      rw [policies] at there
      exact Or.inl there

theorem plain_of_quiet {statement : Statement} (quiet : statement.quiet = true)
    : statement.plain = true := by
  cases statement <;> first | rfl | cases quiet

theorem plain_of_declaration {statement : Statement} (own : declarationWrites statement)
    : statement.plain = true := by
  cases statement <;> first | rfl | cases own

/-- The loop over a directory, by induction on its entries. -/
theorem forYaml_keeps {contract : Contract sql} {Document : Type} {describe : String → String}
    {body : DirEntry Document → Document → Call Unit}
    (each
      : ∀ entry document now, contract.possible now
          → (body entry document).Keeps contract call (fun _ _ => True) now)
    (entries : List (Option (DirEntry Document))) (possible : contract.possible db)
    : (forYaml describe body entries).Keeps contract call (fun _ _ => True) db := by
  induction entries generalizing db with
  | nil => exact fun _ _ _ => trivial
  | cons entry rest ih =>
      cases entry with
      | none => trivial
      | some entry =>
          unfold forYaml
          split
          · exact ih possible
          · split
            · trivial
            · trivial
            · refine Program.Keeps.bind possible (each _ _ _ possible) ?_
              intro _ now possible _
              exact Program.Keeps.returning possible (ih possible)

theorem forDirectory_keeps {contract : Contract sql} {Document : Type} {describe : String → String}
    {body : DirEntry Document → Document → Call Unit}
    (each
      : ∀ entry document now, contract.possible now
          → (body entry document).Keeps contract call (fun _ _ => True) now)
    (listing : Option (Listing Document)) (possible : contract.possible db)
    : (forDirectory describe body listing).Keeps contract call (fun _ _ => True) db := by
  rcases listing with _ | _ | entries
  · exact fun _ _ _ => trivial
  · trivial
  · exact forYaml_keeps each entries possible

theorem applyDirectory_keeps {directory : GitOpsDirectory} {gitCommit : Option String}
    (versioned : Versioned db)
    : (GitOpsService.applyDirectory directory gitCommit).Keeps versioning call (fun _ _ => True)
        db := by
  have quiet : ∀ statement : Statement, statement.quiet = true → statement.plain = true :=
    fun _ quiet => plain_of_quiet quiet
  have declares : ∀ statement, declarationWrites statement → statement.plain = true :=
    fun _ own => plain_of_declaration own
  unfold GitOpsService.applyDirectory
  split
  · trivial
  · refine Program.Keeps.bind versioned
      (plain_keeps (forDirectory_along (fun entry v => applyGroup_along entry v declares) _)) ?_
    intro _ now versioned _
    refine Program.Keeps.bind versioned
      (plain_keeps (forDirectory_along (fun entry v => applyNetwork_along entry v quiet declares) _)) ?_
    intro _ now versioned _
    refine forDirectory_keeps ?_ _ versioned
    intro entry document now versioned
    unfold GitOpsService.applyPolicyFile
    refine Program.Keeps.bind versioned applyPolicyYaml_keeps ?_
    intro _ now _ _
    exact plain_keeps
      (@query_along _ (fun statement => statement.plain = true) (.insertGitRevision _) rfl)

/-- What these requests send is plain. -/
theorem plain_of_issues {request : Request} {statement : Statement}
    (applies : ∀ directory gitCommit, request ≠ .applyDirectory directory gitCommit)
    (appliesPolicy : ∀ freshId document gitCommit, request
      ≠ .applyPolicy freshId document gitCommit)
    (creates : ∀ freshId req, request ≠ .createNetwork freshId req)
    (issued : request.issues statement)
    : statement.plain = true := by
  cases statement with
  | insertPolicyVersion row =>
      cases request with
      | applyDirectory directory gitCommit => exact absurd rfl (applies directory gitCommit)
      | applyPolicy freshId document gitCommit =>
          exact absurd rfl (appliesPolicy freshId document gitCommit)
      | createNetwork freshId req => exact absurd rfl (creates freshId req)
      | _ =>
          simp [Request.issues, Request.writes, Statement.quiet, createWrites, revocationWrites,
            sweepWrites] at issued
  | updatePolicyVersion id version gitCommit =>
      cases request with
      | applyDirectory directory gitCommit => exact absurd rfl (applies directory gitCommit)
      | applyPolicy freshId document gitCommit =>
          exact absurd rfl (appliesPolicy freshId document gitCommit)
      | createNetwork freshId req => exact absurd rfl (creates freshId req)
      | _ =>
          simp [Request.issues, Request.writes, Statement.quiet, createWrites, revocationWrites,
            sweepWrites] at issued
  | _ => rfl

/-- Every request stores versions in order, by cases on the request. -/
theorem Request.call_keeps_versions {state : AppState} (request : Request)
    (versioned : Versioned db)
    : (request.call state).Keeps versioning call (fun _ _ => True) db := by
  cases request with
  | applyDirectory directory gitCommit =>
      exact Program.Keeps.returning versioned (applyDirectory_keeps versioned)
  | applyPolicy freshId document gitCommit =>
      exact Program.Keeps.returning versioned applyPolicyYaml_keeps
  | createNetwork freshId req =>
      refine plain_keeps (Program.Along.seq ?_ (fun _ => trivial))
      exact Program.Along.request rfl (fun _ _ => trivial) (fun _ _ => trivial)
  | _ =>
      refine plain_keeps (Program.Along.mono ?_ (Request.call_along _))
      intro statement issued
      exact plain_of_issues (by rintro _ _ ⟨⟩) (by rintro _ _ _ ⟨⟩) (by rintro _ _ ⟨⟩) issued

end Calls

/-- From a start in order, the tables stay in order along every run. -/
theorem ControlPlane.start_versioned {state : AppState} {requests : List Request} {db : Db}
    (versioned : Versioned db)
    : (ControlPlane.start state requests db).Kept versioning (fun _ _ _ => True) := by
  refine ⟨versioned, ?_⟩
  intro call program found
  rw [ControlPlane.start_calls] at found
  obtain ⟨request, made, rfl⟩ := Option.map_eq_some_iff.mp found
  exact request.call_keeps_versions versioned

/-- Every turn leaves the tables in order. -/
theorem versioning_step {plane after : ControlPlane} {turn : Turn}
    (kept : plane.Kept versioning (fun _ _ _ => True)) (moves : plane.Moves elapse turn after)
    : System.Kept versioning (fun _ _ _ => True) after := by
  refine kept.step ?_ ?_ moves
  · intro passed db versioned
    exact ⟨versioned.congr rfl rfl, fun _ => ⟨fun policy there => ⟨policy, there, rfl, rfl⟩,
      fun _ there => there⟩⟩
  · cases turn with
    | env => trivial
    | _ => exact fun _ _ _ => trivial

theorem smallInstallation_versioned : Versioned smallInstallation := by
  have policy : ∀ policy ∈ smallInstallation.policies, policy = ⟨5, "all", 1, none⟩ :=
    fun policy there => List.mem_singleton.mp there
  have version : ∀ row ∈ smallInstallation.policyVersions,
      row.policyId = 5 ∧ row.version = 1 ∧ row.gitCommit = none
        ∧ row.document.metadata.name = "all" := by
    intro row there
    obtain rfl := List.mem_singleton.mp there
    exact ⟨rfl, rfl, rfl, rfl⟩
  constructor
  case ids | names =>
    intro left leftThere right rightThere _
    rw [policy left leftThere, policy right rightThere]
  case keys =>
    intro left leftThere right rightThere _ _
    exact (List.mem_singleton.mp leftThere).trans (List.mem_singleton.mp rightThere).symm
  case named =>
    intro row there
    obtain ⟨own, _, _, name⟩ := version row there
    exact ⟨_, List.mem_cons_self, own.symm, name.symm⟩
  case positive =>
    intro row there
    rw [(version row there).2.1]
  case dense =>
    intro policyId number positive bound
    refine ⟨_, List.mem_cons_self, ?_⟩
    by_cases own : policyId = 5
    · subst own
      have bound : number ≤ 1 := bound
      exact ⟨rfl, le_antisymm positive bound⟩
    · have none : smallInstallation.latestVersion policyId = 0 := by
        have other : ((5 : Uuid) == policyId) = false := by simpa using fun same => own same.symm
        simp [Db.latestVersion, smallInstallation, other]
      omega
  case pointer =>
    intro old there
    rw [policy old there]
    exact Or.inr ⟨_, List.mem_cons_self, rfl, rfl, rfl⟩

end WslVpn
