import WslVpn.Control.Versions

/-! The pointer of a policy to its newest version. The version is stored by one statement and
pointed to by the next one, so the pointers of two calls can be written in the wrong order.
-/

namespace WslVpn

open Interleaving

/-- The next statement of the call that has stored this version. -/
def pointerTo (row : PolicyVersionRow) : Statement :=
  .updatePolicyVersion row.policyId row.version row.gitCommit

/-- The pointer to a version follows the insert of that version at once, and nothing else. -/
structure PointsNext (statement : Statement) (reply : Except DbError statement.Reply)
    (next : Option Statement) : Prop where
  follows
    : ∀ row, statement = .insertPolicyVersion row → (∃ value, reply = .ok value)
        → next = some (pointerTo row)
  only
    : ∀ id version gitCommit, next = some (.updatePolicyVersion id version gitCommit)
        → ∃ row, statement = .insertPolicyVersion row ∧ (∃ value, reply = .ok value)
            ∧ pointerTo row = .updatePolicyVersion id version gitCommit

section Calls

variable {Value : Type}

/-- Neither side is about a version. -/
theorem PointsNext.plain {statement : Statement} {reply : Except DbError statement.Reply}
    {next : Option Statement} (first : statement.plain = true)
    (second : ∀ later, next = some later → later.plain = true)
    : PointsNext statement reply next where
  follows := by
    rintro row rfl
    cases first
  only := by
    rintro id version gitCommit rfl
    cases second _ rfl

/-- After a refusal a call is at its end. -/
theorem PointsNext.refused {statement : Statement} {fault : DbError}
    : PointsNext statement (.error fault) none where
  follows := by rintro row _ ⟨value, ⟨⟩⟩
  only := by rintro _ _ _ ⟨⟩

/-- A program of plain statements. -/
theorem plain_adjacent {program : Call Value}
    (plain
      : program.Along (fun _ _ => True) (fun statement : Statement => statement.plain = true)
          (fun _ => True))
    : program.Adjacent PointsNext := by
  refine plain.adjacent ?_ ?_
  · intro op reply isPlain
    exact PointsNext.plain isPlain (by rintro _ ⟨⟩)
  · intro op reply later isPlain laterPlain
    refine PointsNext.plain isPlain ?_
    rintro _ ⟨⟩
    exact laterPlain

/-- What a program that ends can be linked to, another one that starts plainly can as well. -/
theorem PointsNext.join {statement : Statement} {reply : Except DbError statement.Reply}
    {next : Option Statement} (ends : PointsNext statement reply none)
    (starts : ∀ later, next = some later → later.plain = true)
    : PointsNext statement reply next where
  follows := by
    intro row same answered
    cases ends.follows row same answered
  only := by
    rintro id version gitCommit rfl
    cases starts _ rfl

/-- The last two statements of a policy that is applied are its version and the pointer to it. -/
theorem applyPolicyYaml_adjacent {freshId : Uuid} {document : AccessPolicyDocument}
    {gitCommit : Option String}
    : (GitOpsService.applyPolicyYaml freshId document gitCommit).Adjacent PointsNext := by
  unfold GitOpsService.applyPolicyYaml
  split
  · trivial
  · rename_i doc _
    refine Program.Adjacent.request (fun _ => PointsNext.refused) ?_
    intro policyId
    refine ⟨PointsNext.plain rfl (by rintro _ ⟨⟩; rfl), ?_⟩
    refine Program.Adjacent.request (fun _ => PointsNext.refused) ?_
    intro version
    refine ⟨?_, ?_⟩
    · exact ⟨by rintro _ ⟨⟩, by rintro _ _ _ ⟨⟩⟩
    refine Program.Adjacent.request (fun _ => PointsNext.refused) ?_
    intro row
    refine ⟨?_, ?_⟩
    · refine ⟨?_, ?_⟩
      · rintro _ ⟨⟩ _
        rfl
      · rintro _ _ _ ⟨⟩
        exact ⟨⟨policyId, version, doc, gitCommit⟩, rfl, ⟨row, rfl⟩, rfl⟩
    refine Program.Adjacent.request (fun _ => PointsNext.refused) ?_
    intro count
    refine ⟨⟨by rintro _ ⟨⟩, by rintro _ _ _ ⟨⟩⟩, trivial⟩

/-- The first statement of the program, if it has one, is plain. -/
def StartsPlain (program : Call Value) : Prop :=
  ∀ later, program.pending? = some later → later.plain = true

theorem StartsPlain.bind {Result : Type} {program : Call Value} {rest : Value → Call Result}
    (first : StartsPlain program) (second : ∀ value, StartsPlain (rest value))
    : StartsPlain (program >>= rest) := by
  cases program with
  | done result =>
      cases result with
      | ok value => exact second value
      | error error => rintro _ ⟨⟩
  | step op next => exact first

theorem StartsPlain.of_along {program : Call Value}
    (plain
      : program.Along (fun _ _ => True) (fun statement : Statement => statement.plain = true)
          (fun _ => True))
    : StartsPlain program := by
  cases program with
  | done result => rintro _ ⟨⟩
  | step op next =>
      rintro _ ⟨⟩
      exact plain.1

/-- A sequence whose second program starts plainly. -/
theorem adjacent_seq {Result : Type} {program : Call Value} {rest : Value → Call Result}
    (first : program.Adjacent PointsNext)
    (second : ∀ value, (rest value).Adjacent PointsNext ∧ StartsPlain (rest value))
    : (program >>= rest).Adjacent PointsNext :=
  first.bind (fun value => (second value).1) (fun value _ _ ends => ends.join (second value).2)

theorem applyPolicyYaml_starts {freshId : Uuid} {document : AccessPolicyDocument}
    {gitCommit : Option String}
    : StartsPlain (GitOpsService.applyPolicyYaml freshId document gitCommit) := by
  unfold GitOpsService.applyPolicyYaml
  split
  · rintro _ ⟨⟩
  · rintro _ ⟨⟩
    rfl

/-- The loop over a directory, by induction on its entries. -/
theorem forYaml_adjacent {Document : Type} {describe : String → String}
    {body : DirEntry Document → Document → Call Unit}
    (each
      : ∀ entry document, (body entry document).Adjacent PointsNext
          ∧ StartsPlain (body entry document))
    (entries : List (Option (DirEntry Document)))
    : (forYaml describe body entries).Adjacent PointsNext
      ∧ StartsPlain (forYaml describe body entries) := by
  have ended : ∀ {result : Except AppError Nat},
      (Program.done result : Call Nat).Adjacent PointsNext
        ∧ StartsPlain (Program.done result : Call Nat) :=
    fun {_} => ⟨trivial, by rintro _ ⟨⟩⟩
  induction entries with
  | nil => exact ended
  | cons entry rest ih =>
      cases entry with
      | none => exact ended
      | some entry =>
          unfold forYaml
          split
          · exact ih
          · split
            · exact ended
            · exact ended
            · rename_i document _
              have counted : ∀ _ : Unit,
                  ((forYaml describe body rest >>= fun count => pure (count + 1)) : Call Nat).Adjacent
                      PointsNext
                    ∧ StartsPlain
                      (forYaml describe body rest >>= fun count => pure (count + 1) : Call Nat) :=
                fun _ => ⟨adjacent_seq ih.1 (fun _ => ended), ih.2.bind (fun _ => ended.2)⟩
              refine ⟨adjacent_seq (each entry document).1 counted, ?_⟩
              exact (each entry document).2.bind (fun value => (counted value).2)

/-- A directory that is applied, by its three parts. -/
theorem applyDirectory_adjacent {directory : GitOpsDirectory} {gitCommit : Option String}
    : (GitOpsService.applyDirectory directory gitCommit).Adjacent PointsNext
      ∧ StartsPlain (GitOpsService.applyDirectory directory gitCommit) := by
  have quiet : ∀ statement : Statement, statement.quiet = true → statement.plain = true :=
    fun _ quiet => plain_of_quiet quiet
  have declares : ∀ statement, declarationWrites statement → statement.plain = true :=
    fun _ own => plain_of_declaration own
  unfold GitOpsService.applyDirectory
  split
  · exact ⟨trivial, by rintro _ ⟨⟩⟩
  · rename_i policies _
    have files
        : (forDirectory ("yaml parse error: " ++ ·) (GitOpsService.applyPolicyFile gitCommit)
            (some policies)).Adjacent PointsNext
          ∧ StartsPlain (forDirectory ("yaml parse error: " ++ ·)
            (GitOpsService.applyPolicyFile gitCommit) (some policies)) := by
      cases policies with
      | unreadable => exact ⟨trivial, by rintro _ ⟨⟩⟩
      | entries entries =>
          refine forYaml_adjacent ?_ entries
          intro entry document
          have revision : ∀ row : GitRevisionRow,
              (query (.insertGitRevision row)).Along (fun _ _ => True)
                (fun statement : Statement => statement.plain = true) (fun _ => True) :=
            fun row =>
              @query_along _ (fun statement => statement.plain = true) (.insertGitRevision row) rfl
          unfold GitOpsService.applyPolicyFile
          refine ⟨adjacent_seq applyPolicyYaml_adjacent ?_, applyPolicyYaml_starts.bind ?_⟩
          · exact fun _ => ⟨plain_adjacent (revision _), StartsPlain.of_along (revision _)⟩
          · exact fun _ => StartsPlain.of_along (revision _)
    have networks
        : (forDirectory id GitOpsService.applyNetwork directory.networks).Along (fun _ _ => True)
            (fun statement : Statement => statement.plain = true) (fun _ => True) :=
      forDirectory_along (fun entry v => applyNetwork_along entry v quiet declares) _
    have groups
        : (forDirectory id GitOpsService.applyGroup directory.groups).Along (fun _ _ => True)
            (fun statement : Statement => statement.plain = true) (fun _ => True) :=
      forDirectory_along (fun entry v => applyGroup_along entry v declares) _
    have later := adjacent_seq (plain_adjacent networks) (fun _ => files)
    have laterStarts := (StartsPlain.of_along networks).bind (fun _ => files.2)
    exact ⟨adjacent_seq (plain_adjacent groups) (fun _ => ⟨later, laterStarts⟩),
      (StartsPlain.of_along groups).bind (fun _ => laterStarts)⟩

/-- Every request points to a version right after it has stored it, by cases on the request. -/
theorem Request.call_pointsNext {state : AppState} (request : Request)
    : (request.call state).Adjacent PointsNext ∧ StartsPlain (request.call state) := by
  have returns : ∀ {Value Result : Type} {program : Call Value} {wrap : Value → Result},
      program.Adjacent PointsNext ∧ StartsPlain program
      → (program >>= fun value => pure (wrap value)).Adjacent PointsNext
        ∧ StartsPlain (program >>= fun value => pure (wrap value)) := by
    intro Value Result program wrap given
    obtain ⟨first, starts⟩ := given
    exact ⟨adjacent_seq first (fun _ => ⟨trivial, by rintro _ ⟨⟩⟩),
      starts.bind (fun _ => by rintro _ ⟨⟩)⟩
  have plainly
      : (request.call state).Along (fun _ _ => True)
          (fun statement : Statement => statement.plain = true) (fun _ => True)
        → (request.call state).Adjacent PointsNext ∧ StartsPlain (request.call state) :=
    fun plain => ⟨plain_adjacent plain, StartsPlain.of_along plain⟩
  cases request with
  | applyDirectory directory gitCommit => exact returns applyDirectory_adjacent
  | applyPolicy freshId document gitCommit =>
      exact returns ⟨applyPolicyYaml_adjacent, applyPolicyYaml_starts⟩
  | createNetwork freshId req =>
      refine plainly (Program.Along.seq ?_ (fun _ => trivial))
      exact Program.Along.request rfl (fun _ _ => trivial) (fun _ _ => trivial)
  | _ =>
      refine plainly (Program.Along.mono ?_ (Request.call_along _))
      intro statement issued
      exact plain_of_issues (by rintro _ _ ⟨⟩) (by rintro _ _ _ ⟨⟩) (by rintro _ _ ⟨⟩) issued

end Calls

theorem ControlPlane.start_pointsNext {state : AppState} {requests : List Request} {db : Db}
    : (ControlPlane.start state requests db).AllAdjacent PointsNext := by
  intro call program found
  rw [ControlPlane.start_calls] at found
  obtain ⟨request, _, rfl⟩ := Option.map_eq_some_iff.mp found
  exact request.call_pointsNext.1

-----------------------------------------------------------------------------------------
-- The pointers along a run
-----------------------------------------------------------------------------------------

namespace ControlPlane

/-- A call that points a policy to a version overtakes no call that is about to point it to an older
one, and a call that is about to point it to its newest version is not lost.
-/
def PointsInOrder (plane : ControlPlane) : Turn → Prop
  | .run call =>
      ∀ id version gitCommit, plane.Runs call (.updatePolicyVersion id version gitCommit)
        → ∀ other older commit, plane.Runs other (.updatePolicyVersion id older commit)
          → version ≤ older
  | .lose call =>
      ∀ id version gitCommit, plane.Runs call (.updatePolicyVersion id version gitCommit)
        → version < plane.state.latestVersion id
  | .env _ => True

/-- Every policy is pointed to its newest version, or is about to be, and none of the calls that
are about to point it anywhere is late.
-/
structure Pointed (plane : ControlPlane) : Prop where
  newest
    : ∀ policy ∈ plane.state.policies,
        policy.currentVersion = plane.state.latestVersion policy.id
        ∨ ∃ call gitCommit, plane.Runs call
            (.updatePolicyVersion policy.id (plane.state.latestVersion policy.id) gitCommit)
  timely
    : ∀ call id version gitCommit, plane.Runs call (.updatePolicyVersion id version gitCommit)
        → ∀ policy ∈ plane.state.policies, policy.id = id → policy.currentVersion ≤ version

section Step

variable {plane after : ControlPlane} {turn : Turn}

/-- What a kept contract says of the statement that a call runs next. -/
theorem versionsInOrder_of_runs (kept : plane.Kept versioning (fun _ _ _ => True)) {call : Nat}
    {op : Statement} {next : Except DbError op.Reply → Call Answer}
    (issued : plane.calls[call]? = some (.step op next))
    : versionsInOrder op plane.state :=
  ((kept.calls call _ issued _ (versioning.later_refl _ _) kept.possible).1 trivial).1

/-- A pointer that is about to be written belongs to a stored version. -/
theorem stored_of_runs (kept : plane.Kept versioning (fun _ _ _ => True)) {call : Nat} {id : Uuid}
    {version : Int} {gitCommit : Option String}
    (runs : plane.Runs call (.updatePolicyVersion id version gitCommit))
    : ∃ row ∈ plane.state.policyVersions, row.policyId = id ∧ row.version = version
        ∧ row.gitCommit = gitCommit := by
  obtain ⟨program, found, pending⟩ := Option.bind_eq_some_iff.mp runs
  cases program with
  | done result => cases pending
  | step op next =>
      obtain rfl : op = .updatePolicyVersion id version gitCommit := Option.some.inj pending
      exact versionsInOrder_of_runs kept found

/-- A policy points to its newest version at most. -/
theorem currentVersion_le {db : Db} (versioned : Versioned db) {policy : PolicyRow}
    (there : policy ∈ db.policies)
    : policy.currentVersion ≤ db.latestVersion policy.id := by
  rcases versioned.pointer policy there with none | ⟨row, member, own, version, _⟩
  · rw [none]
    exact latestVersion_nonneg
  · rw [← version]
    exact le_latestVersion member own

/-- A move that is about no version, by what it leaves of the policies and of the next statements.
-/
theorem Pointed.quiet (pointed : plane.Pointed)
    (policies
      : ∀ policy ∈ after.state.policies, policy ∈ plane.state.policies
          ∨ (policy.currentVersion = 0 ∧ after.state.latestVersion policy.id = 0))
    (versions : after.state.policyVersions = plane.state.policyVersions)
    (positive
      : ∀ call id version gitCommit, plane.Runs call (.updatePolicyVersion id version gitCommit)
          → 0 ≤ version)
    (runs
      : ∀ call id version gitCommit, after.Runs call (.updatePolicyVersion id version gitCommit)
          → plane.Runs call (.updatePolicyVersion id version gitCommit))
    (stays
      : ∀ call id gitCommit,
          plane.Runs call (.updatePolicyVersion id (plane.state.latestVersion id) gitCommit)
            → after.Runs call (.updatePolicyVersion id (plane.state.latestVersion id) gitCommit))
    : after.Pointed := by
  refine ⟨?_, ?_⟩
  · intro policy there
    rcases policies policy there with old | ⟨none, unversioned⟩
    · rw [latestVersion_congr versions]
      rcases pointed.newest policy old with newest | ⟨call, gitCommit, ahead⟩
      · exact Or.inl newest
      · exact Or.inr ⟨call, gitCommit, stays call policy.id gitCommit ahead⟩
    · exact Or.inl (none.trans unversioned.symm)
  · intro call id version gitCommit ahead policy there own
    have ahead := runs call id version gitCommit ahead
    rcases policies policy there with old | ⟨none, _⟩
    · exact pointed.timely call id version gitCommit ahead policy old own
    · rw [none]
      exact positive call id version gitCommit ahead

/-- A version is stored, and its call is about to point to it. -/
theorem Pointed.stored (pointed : plane.Pointed) (versioned : Versioned plane.state) {call : Nat}
    {row : PolicyVersionRow} {before program : Call Answer} {db : Db}
    (found : plane.calls[call]? = some before)
    (idle : before.pending? = some (.insertPolicyVersion row))
    (policies : db.policies = plane.state.policies)
    (versions : db.policyVersions = plane.state.policyVersions ++ [row])
    (next : row.version = plane.state.latestVersion row.policyId + 1)
    (points : program.pending? = some (pointerTo row))
    : Pointed ⟨db, plane.calls.set call program⟩ := by
  have latest : ∀ id, db.latestVersion id
      = if row.policyId = id then row.version else plane.state.latestVersion id := by
    intro id
    rw [@latestVersion_append db id row _ versions plane.state rfl]
    split
    · rename_i own
      subst own
      exact max_eq_right (by omega)
    · rfl
  have others : ∀ {other statement}, plane.Runs other statement
      → statement ≠ .insertPolicyVersion row → other ≠ call := by
    rintro other statement runs different rfl
    have pending := (runs_iff found).mp runs
    rw [idle] at pending
    exact different (Option.some.inj pending).symm
  refine ⟨?_, ?_⟩
  · intro policy there
    change policy ∈ db.policies at there
    rw [policies] at there
    change policy.currentVersion = db.latestVersion policy.id ∨ _
    by_cases own : row.policyId = policy.id
    · refine Or.inr ⟨call, row.gitCommit, (runs_moved found).mpr (Or.inl ⟨rfl, ?_⟩)⟩
      change program.pending? = some (.updatePolicyVersion policy.id (db.latestVersion policy.id) _)
      rw [latest, if_pos own, points, pointerTo, own]
    · rcases pointed.newest policy there with newest | ⟨other, gitCommit, ahead⟩
      · rw [latest, if_neg own]
        exact Or.inl newest
      · refine Or.inr ⟨other, gitCommit, (runs_moved found).mpr (Or.inr ⟨others ahead nofun, ?_⟩)⟩
        change plane.Runs other (.updatePolicyVersion policy.id (db.latestVersion policy.id) _)
        rw [latest, if_neg own]
        exact ahead
  · intro other id version gitCommit ahead policy there own
    change policy ∈ db.policies at there
    rw [policies] at there
    rcases (runs_moved found).mp ahead with ⟨rfl, isNext⟩ | ⟨_, old⟩
    · obtain ⟨rfl, rfl, rfl⟩
          : row.policyId = id ∧ row.version = version ∧ row.gitCommit = gitCommit := by
        have same := points.symm.trans isNext
        simp only [pointerTo, Option.some.injEq, Statement.updatePolicyVersion.injEq] at same
        exact same
      have below := currentVersion_le versioned there
      rw [own] at below
      omega
    · exact pointed.timely other id version gitCommit old policy there own

/-- A policy is pointed to a version, in order. -/
theorem Pointed.moved (pointed : plane.Pointed) (kept : plane.Kept versioning (fun _ _ _ => True))
    {call : Nat} {id : Uuid} {version : Int} {gitCommit : Option String}
    {before program : Call Answer} {db : Db} (found : plane.calls[call]? = some before)
    (runs : before.pending? = some (.updatePolicyVersion id version gitCommit))
    (policies
      : db.policies = updateWhere (·.id == id)
          (fun row => { row with currentVersion := version, gitCommit }) plane.state.policies)
    (versions : db.policyVersions = plane.state.policyVersions)
    (plain
      : ∀ id version gitCommit, program.pending? ≠ some (.updatePolicyVersion id version gitCommit))
    (inOrder : plane.PointsInOrder (.run call))
    : Pointed ⟨db, plane.calls.set call program⟩ := by
  have here : plane.Runs call (.updatePolicyVersion id version gitCommit) :=
    (runs_iff found).mpr runs
  have bound : version ≤ plane.state.latestVersion id := by
    obtain ⟨row, there, own, isVersion, _⟩ := stored_of_runs kept here
    rw [← isVersion]
    exact le_latestVersion there own
  have latest : ∀ id, db.latestVersion id = plane.state.latestVersion id :=
    latestVersion_congr versions
  have still : ∀ {other statement}, plane.Runs other statement → other ≠ call
      → Runs ⟨db, plane.calls.set call program⟩ other statement :=
    fun runs different => (runs_moved found).mpr (Or.inr ⟨different, runs⟩)
  refine ⟨?_, ?_⟩
  · intro policy there
    change policy ∈ db.policies at there
    rw [policies] at there
    obtain ⟨old, member, rfl⟩ := mem_updateWhere.mp there
    by_cases own : old.id = id
    · subst own
      simp only [beq_self_eq_true, if_true]
      change version = db.latestVersion old.id ∨ ∃ other commit, Runs _ other
        (.updatePolicyVersion old.id (db.latestVersion old.id) commit)
      rw [latest]
      rcases pointed.newest old member with newest | ⟨other, commit, ahead⟩
      · -- The policy points to its newest version already: this call is its last writer.
        have atMost := pointed.timely call old.id version gitCommit here old member rfl
        rw [newest] at atMost
        exact Or.inl (le_antisymm bound atMost)
      · by_cases same : other = call
        · subst same
          have pending := here.symm.trans ahead
          simp only [Option.some.injEq, Statement.updatePolicyVersion.injEq] at pending
          exact Or.inl pending.2.1
        · exact Or.inr ⟨other, commit, still ahead same⟩
    · have kept : (old.id == id) = false := by simpa using own
      simp only [kept, Bool.false_eq_true, if_false]
      change old.currentVersion = db.latestVersion old.id ∨ ∃ other commit, Runs _ other
        (.updatePolicyVersion old.id (db.latestVersion old.id) commit)
      rw [latest]
      rcases pointed.newest old member with newest | ⟨other, commit, ahead⟩
      · exact Or.inl newest
      · refine Or.inr ⟨other, commit, still ahead ?_⟩
        rintro rfl
        have pending := here.symm.trans ahead
        simp only [Option.some.injEq, Statement.updatePolicyVersion.injEq] at pending
        exact own pending.1.symm
  · intro other otherId older commit ahead policy there isOwn
    change policy ∈ db.policies at there
    rw [policies] at there
    obtain ⟨old, member, rfl⟩ := mem_updateWhere.mp there
    rcases (runs_moved found).mp ahead with ⟨_, isNext⟩ | ⟨_, stays⟩
    · exact absurd isNext (plain otherId older commit)
    · by_cases own : old.id = id
      · subst own
        simp only [beq_self_eq_true, if_true] at isOwn ⊢
        subst isOwn
        exact inOrder old.id version gitCommit here other older commit stays
      · have kept : (old.id == id) = false := by simpa using own
        simp only [kept, Bool.false_eq_true, if_false] at isOwn ⊢
        exact pointed.timely other otherId older commit stays old member isOwn

/-- A call moves on, and neither leaves nor comes to the pointer that a policy still needs. -/
theorem Pointed.passed (pointed : plane.Pointed) (kept : plane.Kept versioning (fun _ _ _ => True))
    {call : Nat} {op : Statement} {next : Except DbError op.Reply → Call Answer}
    {reply : Except DbError op.Reply} {db : Db} (issued : plane.calls[call]? = some (.step op next))
    (policies
      : ∀ policy ∈ db.policies, policy ∈ plane.state.policies
          ∨ (policy.currentVersion = 0 ∧ db.latestVersion policy.id = 0))
    (versions : db.policyVersions = plane.state.policyVersions)
    (arrives
      : ∀ id version gitCommit,
          (next reply).pending? ≠ some (.updatePolicyVersion id version gitCommit))
    (leaves
      : ∀ id gitCommit,
          op ≠ .updatePolicyVersion id (plane.state.latestVersion id) gitCommit)
    : Pointed ⟨db, plane.calls.set call (next reply)⟩ := by
  refine @Pointed.quiet plane ⟨db, plane.calls.set call (next reply)⟩ pointed policies versions
    ?_ ?_ ?_
  · intro other id version gitCommit runs
    obtain ⟨row, there, _, isVersion, _⟩ := stored_of_runs kept runs
    have := kept.possible.positive row there
    omega
  · intro other id version gitCommit runs
    rcases (runs_moved issued).mp runs with ⟨_, isNext⟩ | ⟨_, old⟩
    · exact absurd isNext (arrives id version gitCommit)
    · exact old
  · intro other id gitCommit runs
    refine (runs_moved issued).mpr (Or.inr ⟨?_, runs⟩)
    rintro rfl
    exact leaves id gitCommit (Option.some.inj ((runs_iff issued).mp runs))

/-- Every turn in order leaves the policies pointed, by cases on the move and its statement. -/
theorem Pointed.step (pointed : plane.Pointed) (kept : plane.Kept versioning (fun _ _ _ => True))
    (adjacent : plane.AllAdjacent PointsNext) (inOrder : plane.PointsInOrder turn)
    (moves : plane.Moves elapse turn after)
    : after.Pointed := by
  have unchanged : ∀ policy ∈ plane.state.policies, policy ∈ plane.state.policies
      ∨ (policy.currentVersion = 0 ∧ plane.state.latestVersion policy.id = 0) :=
    fun _ there => Or.inl there
  cases moves with
  | @replied call op next reply db issued ran =>
      have linked := (adjacent call _ issued (.ok reply)).1
      by_cases plain : op.plain = true
      · refine pointed.passed kept issued (kept.possible.policy_after plain ran)
          (Statement.policyVersions_plain plain ran) ?_ ?_
        · intro id version gitCommit isNext
          obtain ⟨row, rfl, _⟩ := linked.only id version gitCommit isNext
          cases plain
        · rintro id gitCommit rfl
          cases plain
      · obtain ⟨policies, versions⟩ := Statement.policies_exec ran
        rcases Statement.cases_of_not_plain plain with ⟨row, rfl⟩ | ⟨id, version, gitCommit, rfl⟩
        · have next := kept.possible.latestVersion_insert (versionsInOrder_of_runs kept issued) ran
          exact pointed.stored kept.possible issued rfl policies versions next
            (linked.follows row rfl ⟨reply, rfl⟩)
        · refine pointed.moved kept issued rfl policies versions ?_ inOrder
          intro otherId older commit isNext
          obtain ⟨_, ⟨⟩, _⟩ := linked.only otherId older commit isNext
  | @refused call op next fault issued ran =>
      have linked := (adjacent call _ issued (.error fault)).1
      refine pointed.passed kept issued unchanged rfl ?_ ?_
      · intro id version gitCommit isNext
        obtain ⟨_, _, ⟨_, ⟨⟩⟩, _⟩ := linked.only id version gitCommit isNext
      · rintro id gitCommit rfl
        cases ran
  | @lost call op next issued =>
      have linked := (adjacent call _ issued (.error sql.lost)).1
      refine pointed.passed kept issued unchanged rfl ?_ ?_
      · intro id version gitCommit isNext
        obtain ⟨_, _, ⟨_, ⟨⟩⟩, _⟩ := linked.only id version gitCommit isNext
      · rintro id gitCommit rfl
        exact absurd (inOrder id _ gitCommit (runs_of_issued issued)) (lt_irrefl _)
  | env change => exact ⟨pointed.newest, pointed.timely⟩
  | idle => exact pointed

/-- No turn in order points a policy back. -/
theorem Pointed.forward (pointed : plane.Pointed) (moves : plane.Moves elapse turn after)
    : ∀ policy ∈ plane.state.policies, ∃ new ∈ after.state.policies,
        new.id = policy.id ∧ policy.currentVersion ≤ new.currentVersion := by
  intro policy there
  cases moves with
  | @replied call op next reply db issued ran =>
      rw [(Statement.policies_exec ran).1]
      cases op with
      | upsertPolicy id name gitCommit =>
          simp only [Statement.policiesAfter]
          split
          · exact ⟨policy, there, rfl, le_rfl⟩
          · exact ⟨policy, List.mem_append_left _ there, rfl, le_rfl⟩
      | updatePolicyVersion id version gitCommit =>
          refine ⟨_, mem_updateWhere.mpr ⟨policy, there, rfl⟩, ?_⟩
          split
          · rename_i own
            refine ⟨rfl, ?_⟩
            exact pointed.timely call id version gitCommit (runs_of_issued issued) policy there
              (by simpa using own)
          · exact ⟨rfl, le_rfl⟩
      | _ => exact ⟨policy, there, rfl, le_rfl⟩
  | _ => exact ⟨policy, there, rfl, le_rfl⟩

end Step

/-- What every turn in order keeps. -/
structure InOrder (plane : ControlPlane) : Prop where
  kept : plane.Kept versioning (fun _ _ _ => True)
  adjacent : plane.AllAdjacent PointsNext
  pointed : plane.Pointed

theorem InOrder.step {plane after : ControlPlane} {turn : Turn} (inOrder : plane.InOrder)
    (points : plane.PointsInOrder turn) (moves : plane.Moves elapse turn after)
    : InOrder after where
  kept := versioning_step inOrder.kept moves
  adjacent := inOrder.adjacent.step moves
  pointed := inOrder.pointed.step inOrder.kept inOrder.adjacent points moves

theorem InOrder.run {plane : ControlPlane} {turns : List Turn} (inOrder : plane.InOrder)
    (points : plane.Obeys PointsInOrder turns)
    : InOrder (plane.after turns) :=
  System.run_induction elapse (fun _ _ _ inOrder points moves => inOrder.step points moves) inOrder
    points

/-- Along a run in order no policy is pointed back, by induction on the schedule. -/
theorem InOrder.forward {plane : ControlPlane} {turns : List Turn} (inOrder : plane.InOrder)
    (points : plane.Obeys PointsInOrder turns)
    : ∀ policy ∈ plane.state.policies, ∃ new ∈ (plane.after turns).state.policies,
        new.id = policy.id ∧ policy.currentVersion ≤ new.currentVersion := by
  induction turns generalizing plane with
  | nil => exact fun policy there => ⟨policy, there, rfl, le_rfl⟩
  | cons turn rest ih =>
      intro policy there
      have moves := System.handle_moves elapse plane turn
      obtain ⟨middle, between, id, below⟩ := inOrder.pointed.forward moves policy there
      obtain ⟨new, member, id', below'⟩ := ih (inOrder.step points.1 moves) points.2 middle between
      exact ⟨new, member, id'.trans id, below.trans below'⟩

/-- All policies are at their newest versions, and no call has begun. -/
theorem start_inOrder {state : AppState} {requests : List Request} {db : Db}
    (versioned : Versioned db)
    (newest : ∀ policy ∈ db.policies, policy.currentVersion = db.latestVersion policy.id)
    : (start state requests db).InOrder where
  kept := start_versioned versioned
  adjacent := start_pointsNext
  pointed := by
    refine ⟨fun policy there => Or.inl (newest policy there), ?_⟩
    intro call id version gitCommit runs
    obtain ⟨program, found, pending⟩ := Option.bind_eq_some_iff.mp runs
    rw [start_calls] at found
    obtain ⟨request, _, rfl⟩ := Option.map_eq_some_iff.mp found
    cases request.call_pointsNext.2 _ pending

/-- In every run in order no policy is ever pointed back, and when all calls have returned every
policy points to its newest version.
-/
theorem newest_version_wins {state : AppState} {requests : List Request} {db : Db}
    {turns : List Turn} (versioned : Versioned db)
    (newest : ∀ policy ∈ db.policies, policy.currentVersion = db.latestVersion policy.id)
    (points : (start state requests db).Obeys PointsInOrder turns)
    : (∀ first middle last, turns = first ++ middle ++ last
        → ∀ old ∈ ((start state requests db).after first).state.policies,
          ∀ new ∈ ((start state requests db).after (first ++ middle)).state.policies,
            new.id = old.id → old.currentVersion ≤ new.currentVersion)
      ∧ (((start state requests db).after turns).AllReturned
        → ∀ policy ∈ ((start state requests db).after turns).state.policies,
            policy.currentVersion
              = ((start state requests db).after turns).state.latestVersion policy.id) := by
  have initial : (start state requests db).InOrder := start_inOrder versioned newest
  refine ⟨?_, ?_⟩
  · rintro first middle last rfl old oldThere new newThere same
    obtain ⟨points, _⟩ := (System.meets_append elapse).mp points
    obtain ⟨before, between⟩ := (System.meets_append elapse).mp points
    have reached := initial.run before
    obtain ⟨moved, member, id, below⟩ := reached.forward between old oldThere
    have final := reached.run between
    rw [after, System.run_append] at newThere
    obtain rfl := final.kept.possible.ids new newThere moved member (same.trans id.symm)
    exact below
  · intro returned policy there
    rcases (initial.run points).pointed.newest policy there with newest | ⟨call, gitCommit, runs⟩
    · exact newest
    · obtain ⟨program, found, pending⟩ := Option.bind_eq_some_iff.mp runs
      obtain ⟨result, rfl⟩ := returned call program found
      cases pending

/-- The policy of the small installation, changed by two calls. -/
def twoApplications : List Request :=
  [.applyPolicy 8 (applied true) (some "a"), .applyPolicy 9 (applied false) (some "b")]
where
  applied (connect : Bool) : AccessPolicyDocument := {
    apiVersion := "wsl.io/v1"
    kind := "AccessPolicy"
    metadata := ⟨"all"⟩
    spec := {
      subjects := ⟨[], ["ada@example.com"]⟩
      resources := ["lab"]
      device := ⟨none, none, []⟩
      session := ⟨3600⟩
      action := ⟨connect⟩
    }
  }

/-- One application after the other. -/
def appliedPlane : ControlPlane :=
  (start smallState twoApplications smallInstallation).after
    (List.replicate 4 (.run 0) ++ List.replicate 4 (.run 1))

theorem newest_version_wins_in_turn
    : appliedPlane.AllReturned
      ∧ ∀ policy ∈ appliedPlane.state.policies,
          policy.currentVersion = appliedPlane.state.latestVersion policy.id := by
  have newest : ∀ policy ∈ smallInstallation.policies,
      policy.currentVersion = smallInstallation.latestVersion policy.id := by
    intro policy there
    obtain rfl := List.mem_singleton.mp there
    rfl
  have points : (start smallState twoApplications smallInstallation).Obeys PointsInOrder
      (List.replicate 4 (.run 0) ++ List.replicate 4 (.run 1)) := by
    refine ⟨?_, ?_, ?_, ?first, ?_, ?_, ?_, ?second, trivial⟩
    case first | second =>
      intro id version gitCommit runs other older commit also
      cases runs
      rcases other with _ | _ | other <;> cases also
      exact le_rfl
    all_goals
      intro id version gitCommit runs
      cases runs
  have returned : appliedPlane.AllReturned := by
    intro call program found
    rcases call with _ | _ | call <;> cases found <;> exact ⟨_, rfl⟩
  exact ⟨returned, (newest_version_wins smallInstallation_versioned newest points).2 returned⟩

/-- The second application overtakes the pointer of the first one. -/
def overtakenPlane : ControlPlane :=
  (start smallState twoApplications smallInstallation).after
    (List.replicate 3 (.run 0) ++ List.replicate 4 (.run 1) ++ [.run 0])

/-- Both versions are stored and the policy points to the older one. -/
theorem overtaken_pointer
    : overtakenPlane.AllReturned
      ∧ ∃ policy ∈ overtakenPlane.state.policies, policy.currentVersion = 2
          ∧ overtakenPlane.state.latestVersion policy.id = 3 := by
  refine ⟨?_, _, List.mem_cons_self, rfl, rfl⟩
  intro call program found
  rcases call with _ | _ | call <;> cases found <;> exact ⟨_, rfl⟩

end ControlPlane

end WslVpn
