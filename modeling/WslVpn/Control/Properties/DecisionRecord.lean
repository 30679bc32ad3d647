import WslVpn.Control.Versions
import WslVpn.Control.Properties.PolicyOrder

/-! What a creation records of its decision. The documents are read by one statement and the version
behind the decision by the next one, so the version may be a newer one by then.
-/

namespace WslVpn

open Interleaving

-----------------------------------------------------------------------------------------
-- The version behind a decision
-----------------------------------------------------------------------------------------

/-- The versions that the policies point to, in the order in which their documents are read. -/
def Db.activeVersions (db : Db) : List PolicyVersionRow :=
  db.policies.flatMap fun policy =>
    db.policyVersions.filter
      (fun row => row.policyId == policy.id && row.version == policy.currentVersion)

/-- The version with the document that decides. -/
def Db.rulingVersion (db : Db) (input : EvaluationInput) : Option PolicyVersionRow :=
  db.activeVersions.find? (fun row => Applies row.document input)

/-- The policy of the version points to it, and has its commit. -/
def Db.PointsTo (db : Db) (row : PolicyVersionRow) : Prop :=
  ∃ policy ∈ db.policies, policy.id = row.policyId ∧ policy.name = row.document.metadata.name
    ∧ policy.currentVersion = row.version ∧ policy.gitCommit = row.gitCommit

section Ruling

variable {db : Db} {input : EvaluationInput} {row : PolicyVersionRow}

theorem activePolicies_eq : db.activePolicies = db.activeVersions.map (·.document) := by
  rw [Db.activePolicies, Db.activeVersions, List.map_flatMap]

/-- The documents alone decide in the same way. -/
theorem find?_activePolicies
    : db.activePolicies.find? (Applies · input) = (db.rulingVersion input).map (·.document) := by
  rw [activePolicies_eq, List.find?_map]
  rfl

theorem rulingVersion_spec (versioned : Versioned db) (rules : db.rulingVersion input = some row)
    : row ∈ db.policyVersions ∧ db.PointsTo row := by
  obtain ⟨policy, there, listed⟩ := List.mem_flatMap.mp (List.mem_of_find?_eq_some rules)
  obtain ⟨member, own⟩ := List.mem_filter.mp listed
  simp only [Bool.and_eq_true, beq_iff_eq] at own
  refine ⟨member, policy, there, own.1.symm, ?_, own.2.symm, ?_⟩
  · obtain ⟨named, namedThere, same, name⟩ := versioned.named row member
    rw [versioned.ids policy there named namedThere (own.1.symm.trans same.symm), name]
  · rcases versioned.pointer policy there with none | ⟨other, otherThere, policyId, version, commit⟩
    · have positive := versioned.positive row member
      omega
    · rw [versioned.keys row member other otherThere (own.1.trans policyId.symm)
        (own.2.trans version.symm), commit]

/-- The evaluation itself names the policy, but neither its version nor its commit. -/
theorem evaluate_unversioned {policies : List AccessPolicyDocument}
    : (evaluate policies input).policyId = none ∧ (evaluate policies input).policyVersion = none
      ∧ (evaluate policies input).gitCommit = none := by
  induction policies with
  | nil => exact ⟨rfl, rfl, rfl⟩
  | cons policy rest ih =>
      unfold evaluate
      split
      · exact ih
      · split
        · exact ih
        · split
          · exact ⟨rfl, rfl, rfl⟩
          · split <;> exact ⟨rfl, rfl, rfl⟩

/-- The name that an evaluation gives is that of the version that decides. -/
theorem evaluate_policyName
    : (evaluate db.activePolicies input).policyName
      = (db.rulingVersion input).map (·.document.metadata.name) := by
  have verdict := @evaluate_verdict db.activePolicies input
  rw [find?_activePolicies] at verdict
  have name := congrArg (fun verdict => verdict.2.1) verdict
  refine name.trans ?_
  cases db.rulingVersion input with
  | none => rfl
  | some row =>
      simp only [Option.map_some, Option.getD_some, ruling]
      split <;> rfl

end Ruling

-----------------------------------------------------------------------------------------
-- What a creation records
-----------------------------------------------------------------------------------------

/-- The statement records the decision, if it records any: the policy, its version and its commit.
-/
def recordsAs (decision : PolicyDecision) : Statement → Prop
  | .insertSession row =>
      row.policyId = decision.policyId ∧ row.policyVersion = decision.policyVersion
  | .insertAuditEvent entry =>
      entry.gitCommit = decision.gitCommit
      ∧ ((∃ id version, decision.policyId = some id ∧ decision.policyVersion = some version
          ∧ entry.policyId = some id ∧ entry.policyVersion = some version)
        ∨ ((decision.policyId = none ∨ decision.policyVersion = none)
          ∧ entry.policyId = none ∧ entry.policyVersion = none))
  | _ => True

/-- The statement records no decision. -/
def Statement.silent : Statement → Bool
  | .insertSession _ | .insertAuditEvent _ => false
  | _ => true

/-- A call that records nothing before it has read the policies, and then what it decides on them.
-/
inductive Undecided {Value : Type} : Call Value → Prop where
  | ended (result : Except AppError Value) : Undecided (.done result)
  | reads (input : EvaluationInput) (rest : PolicyDecision → Call Value)
    (records
      : ∀ decision,
          (rest decision).Along (fun _ _ => True) (recordsAs decision) (fun _ => True))
    : Undecided
        (query .selectActivePolicies >>= fun policies =>
          attachPolicyMeta (evaluate policies input) >>= rest)
  | goes (statement : Statement) (next : Except DbError statement.Reply → Call Value)
    (silent : statement.silent = true) (rest : ∀ reply, Undecided (next reply))
    : Undecided (.step statement next)

section Calls

variable {Value Result : Type}

/-- A silent program before the decision, by induction on it. -/
theorem Undecided.seq {program : Call Value} {rest : Value → Call Result}
    (first
      : program.Along (fun _ _ => True) (fun statement : Statement => statement.silent = true)
          (fun _ => True))
    (second : ∀ value, Undecided (rest value))
    : Undecided (program >>= rest) := by
  induction program with
  | done result =>
      cases result with
      | ok value => exact second value
      | error error => exact .ended _
  | step op next ih => exact .goes op _ first.1 (fun reply => ih reply (first.2 reply trivial))

/-- A silent statement before the decision. -/
theorem Undecided.request {statement : Statement} {rest : statement.Reply → Call Value}
    (silent : statement.silent = true) (second : ∀ reply, Undecided (rest reply))
    : Undecided (query statement >>= rest) :=
  Undecided.seq (query_along silent) second

/-- The answer is wrapped, by induction on the derivation. -/
theorem Undecided.returning {program : Call Value} {wrap : Value → Result}
    (undecided : Undecided program)
    : Undecided (program >>= fun value => pure (wrap value)) := by
  induction undecided with
  | ended result => cases result <;> exact .ended _
  | reads input rest records =>
      rw [Program.bind_assoc]
      simp only [Program.bind_assoc]
      exact .reads input _ (fun decision => (records decision).seq (fun _ => trivial))
  | goes statement next silent _ ih => exact .goes statement _ silent ih

section Create

variable {draw : SessionService.Draw} {userId : Uuid} {userEmail : String}
  {req : CreateSessionRequest} {network : Network} {gatewayId : Uuid}
  {gwPub gwEndpoint wgPub : String} {decision : PolicyDecision} {expiresAt : Timestamp}

theorem allocate_records {networkId sessionId : Uuid}
    : (IpamService.allocate networkId sessionId).Along (fun _ _ => True) (recordsAs decision)
        (fun _ => True) := by
  unfold IpamService.allocate
  refine Program.Along.request trivial ?_ (fun _ _ => trivial)
  rintro (_ | cidr) _
  · trivial
  refine Program.Along.request trivial ?_ (fun _ _ => trivial)
  intro used _
  split
  · trivial
  · split
    · exact Program.Along.request trivial (fun _ _ => trivial) (fun _ _ => trivial)
    · trivial

/-- An audit event that carries the decision. -/
theorem sessionAudit_records {entry : AuditEntry} (policyId : entry.policyId = none)
    (policyVersion : entry.policyVersion = none) (commit : entry.gitCommit = decision.gitCommit)
    : recordsAs decision (.insertAuditEvent (sessionAudit decision entry)) := by
  unfold sessionAudit
  split
  · rename_i id version isId isVersion
    exact ⟨commit, Or.inl ⟨id, version, isId, isVersion, rfl, rfl⟩⟩
  · rename_i incomplete
    refine ⟨commit, Or.inr ⟨?_, policyId, policyVersion⟩⟩
    cases isId : decision.policyId with
    | none => exact Or.inl rfl
    | some id =>
        cases isVersion : decision.policyVersion with
        | none => exact Or.inr rfl
        | some version => exact absurd isVersion (incomplete id version isId)

theorem provision_records
    : (SessionService.provision draw userId userEmail req network gatewayId gwPub gwEndpoint wgPub
        decision expiresAt).Along (fun _ _ => True) (recordsAs decision) (fun _ => True) := by
  unfold SessionService.provision NetworkService.routesFor AuditService.record
  refine Program.Along.seq allocate_records ?_
  intro assigned
  split
  · refine Program.Along.request trivial ?_ (fun _ _ => trivial)
    intro _ _
    refine Program.Along.seq (Program.Along.request trivial (fun _ _ => trivial)
      (fun _ _ => trivial)) ?_
    intro routes
    refine Program.Along.request trivial ?_ (fun _ _ => trivial)
    intro _ _
    refine Program.Along.request trivial ?_ (fun _ _ => trivial)
    intro _ _
    refine Program.Along.request (sessionAudit_records rfl rfl rfl) ?_ (fun _ _ => trivial)
    intro _ _
    exact Program.Along.request trivial (fun _ _ => trivial) (fun _ _ => trivial)
  · trivial

/-- A creation records what it decides on the policies that it has read, and nothing before. -/
theorem create_undecided : Undecided (SessionService.create draw userId userEmail req) := by
  unfold SessionService.create NetworkService.get GroupService.userGroupNames loadActivePolicies
  refine Undecided.request rfl ?_
  rintro (_ | ⟨_, wgPub, revoked⟩)
  · exact .ended _
  dsimp only
  split
  · exact .ended _
  refine Undecided.seq (Program.Along.request rfl (fun _ _ => trivial) (fun _ _ => trivial)) ?_
  rintro (_ | network)
  · exact .ended _
  refine Undecided.request rfl ?_
  rintro (_ | ⟨gatewayId, gwPub, gwEndpoint, version⟩)
  · exact .ended _
  refine Undecided.request rfl ?_
  intro groups
  refine .reads _ _ ?_
  intro decision
  split
  · unfold SessionService.grant
    refine Program.Along.request trivial ?_ (fun _ _ => trivial)
    intro now _
    refine Program.Along.request ⟨rfl, rfl⟩ ?_ (fun _ _ => trivial)
    exact fun _ _ => provision_records
  · unfold SessionService.deny AuditService.record
    refine Program.Along.request (sessionAudit_records rfl rfl rfl) ?_ (fun _ _ => trivial)
    exact fun _ _ => trivial

end Create

end Calls

-----------------------------------------------------------------------------------------
-- The decision along a run
-----------------------------------------------------------------------------------------

/-- The statement records the version as the one that decided, with its commit where it has room for
one.
-/
def recordsVersion (version : Option PolicyVersionRow) : Statement → Prop
  | .insertSession row =>
      row.policyId = version.map (·.policyId) ∧ row.policyVersion = version.map (·.version)
  | .insertAuditEvent entry =>
      entry.policyId = version.map (·.policyId) ∧ entry.policyVersion = version.map (·.version)
      ∧ entry.gitCommit = version.bind (·.gitCommit)
  | _ => True

/-- A decision that carries a version is recorded with it. -/
theorem recordsVersion_of_recordsAs {decision : PolicyDecision} {version : Option PolicyVersionRow}
    (id : decision.policyId = version.map (·.policyId))
    (number : decision.policyVersion = version.map (·.version))
    (commit : decision.gitCommit = version.bind (·.gitCommit)) {statement : Statement}
    (records : recordsAs decision statement)
    : recordsVersion version statement := by
  cases statement with
  | insertSession row => exact ⟨records.1.trans id, records.2.trans number⟩
  | insertAuditEvent entry =>
      obtain ⟨sameCommit, both | neither⟩ := records
      · obtain ⟨policyId, policyVersion, isId, isVersion, entryId, entryVersion⟩ := both
        exact ⟨entryId.trans (isId.symm.trans id), entryVersion.trans (isVersion.symm.trans number),
          sameCommit.trans commit⟩
      · obtain ⟨missing, entryId, entryVersion⟩ := neither
        cases version with
        | none => exact ⟨entryId, entryVersion, sameCommit.trans commit⟩
        | some row =>
            rw [id, number] at missing
            exact absurd missing (by simp)
  | _ => trivial

/-- How far a call is with its decision. `past` holds of the version that decided when the call read
the policies.
-/
inductive Deciding (past : Option PolicyVersionRow → Prop) (db : Db) : Call Answer → Prop where
  | undecided {program : Call Answer} (undecided : Undecided program) : Deciding past db program
  | named (row : PolicyVersionRow) (decision : PolicyDecision) (rest : PolicyDecision → Call Answer)
    (decided : past (some row)) (stored : row ∈ db.policyVersions) (current : db.PointsTo row)
    (name : decision.policyName = some row.document.metadata.name)
    (records
      : ∀ decision,
          (rest decision).Along (fun _ _ => True) (recordsAs decision) (fun _ => True))
    : Deciding past db (attachPolicyMeta decision >>= rest)
  | settled {program : Call Answer} (version : Option PolicyVersionRow) (decided : past version)
    (stored : ∀ row, version = some row → row ∈ db.policyVersions)
    (records
      : program.Along (fun _ _ => True) (recordsVersion version) (fun _ => True))
    : Deciding past db program

section Step

variable {past : Option PolicyVersionRow → Prop} {db after : Db} {program : Call Answer}

/-- A decision that names a policy. -/
theorem attachPolicyMeta_named {decision : PolicyDecision} {name : String}
    (named : decision.policyName = some name)
    : attachPolicyMeta decision = (policyMeta name >>= fun found =>
        match found with
        | none => pure decision
        | some (id, version, commit) =>
            pure { decision with
              policyId := some id
              policyVersion := some version
              gitCommit := commit }) := by
  unfold attachPolicyMeta
  split
  · rename_i unnamed
    rw [named] at unnamed
    cases unnamed
  · rename_i other isOther
    rw [named] at isOther
    cases isOther
    rfl

/-- What the others do does not matter as long as they do not move the pointer that the call is about
to read.
-/
theorem Deciding.later {past' : Option PolicyVersionRow → Prop}
    (deciding : Deciding past db program)
    (passed : ∀ version, past version → past' version) (grown : Grown db after)
    (undisturbed
      : ∀ row, program.pending? = some (.selectPolicyMeta row.document.metadata.name)
          → db.PointsTo row → after.PointsTo row)
    : Deciding past' after program := by
  cases deciding with
  | undecided undecided => exact .undecided undecided
  | named row decision rest decided stored current name records =>
      refine .named row decision rest (passed _ decided) (grown.versions row stored) ?_ name records
      refine undisturbed row ?_ current
      rw [attachPolicyMeta_named name]
      rfl
  | settled version decided stored records =>
      exact .settled version (passed _ decided)
        (fun row isVersion => grown.versions row (stored row isVersion)) records

/-- A silent statement, or the reading of the policies. -/
theorem Undecided.step {op : Statement} {next : Except DbError op.Reply → Call Answer}
    (undecided : Undecided (.step op next : Call Answer))
    : (op.silent = true ∧ ∀ reply, Undecided (next reply))
      ∨ ∃ (input : EvaluationInput) (rest : PolicyDecision → Call Answer),
          (.step op next : Call Answer)
            = (query .selectActivePolicies >>= fun policies =>
                attachPolicyMeta (evaluate policies input) >>= rest)
          ∧ ∀ decision,
              (rest decision).Along (fun _ _ => True) (recordsAs decision) (fun _ => True) := by
  generalize isStep : (Program.step op next : Call Answer) = program at undecided
  cases undecided with
  | ended result => cases isStep
  | reads input rest records => exact Or.inr ⟨input, rest, rfl, records⟩
  | goes statement goesOn silent rest =>
      cases isStep
      exact Or.inl ⟨silent, rest⟩

/-- The policies have been read: what decides is the version behind the first document that applies.
-/
theorem Deciding.read (versioned : Versioned db) {input : EvaluationInput}
    {rest : PolicyDecision → Call Answer} (decided : past (db.rulingVersion input))
    (records
      : ∀ decision,
          (rest decision).Along (fun _ _ => True) (recordsAs decision) (fun _ => True))
    : Deciding past db (attachPolicyMeta (evaluate db.activePolicies input) >>= rest) := by
  have name := @evaluate_policyName db input
  obtain ⟨id, number, commit⟩ := @evaluate_unversioned input db.activePolicies
  cases rules : db.rulingVersion input with
  | none =>
      rw [rules] at name decided
      have unnamed : attachPolicyMeta (evaluate db.activePolicies input)
          = pure (evaluate db.activePolicies input) := by
        rw [attachPolicyMeta, name]
        rfl
      rw [unnamed]
      refine .settled none decided (by rintro _ ⟨⟩) ?_
      exact (records _).mono (fun _ => recordsVersion_of_recordsAs id number commit)
  | some row =>
      rw [rules] at name decided
      obtain ⟨stored, current⟩ := rulingVersion_spec versioned rules
      exact .named row _ rest decided stored current name records

/-- The version has been read as well: it is the one that decided. -/
theorem Deciding.told (versioned : Versioned db) {row : PolicyVersionRow}
    {decision : PolicyDecision} {rest : PolicyDecision → Call Answer} (decided : past (some row))
    (stored : row ∈ db.policyVersions) (current : db.PointsTo row)
    (records
      : ∀ decision,
          (rest decision).Along (fun _ _ => True) (recordsAs decision) (fun _ => True))
    : Deciding past db
        ((match (db.policies.find? (·.name == row.document.metadata.name)).map
            (fun policy => (policy.id, policy.currentVersion, policy.gitCommit)) with
          | none => pure decision
          | some (id, version, commit) =>
              pure { decision with
                policyId := some id
                policyVersion := some version
                gitCommit := commit }) >>= rest) := by
  obtain ⟨policy, there, id, name, number, commit⟩ := current
  have found : db.policies.find? (·.name == row.document.metadata.name) = some policy := by
    cases search : db.policies.find? (·.name == row.document.metadata.name) with
    | none => exact absurd (by simpa using name) (List.find?_eq_none.mp search policy there)
    | some other =>
        have same : other.name = row.document.metadata.name := by
          simpa using List.find?_some search
        rw [versioned.names other (List.mem_of_find?_eq_some search) policy there
          (same.trans name.symm)]
  rw [found]
  refine .settled (some row) decided (by rintro _ ⟨⟩; exact stored) ?_
  refine (records _).mono (fun _ => recordsVersion_of_recordsAs ?_ ?_ ?_)
  · exact congrArg some id
  · exact congrArg some number
  · exact commit

/-- The call moves on with the answer that it gets. -/
theorem Deciding.replied (versioned : Versioned db) {op : Statement}
    {next : Except DbError op.Reply → Call Answer} {reply : op.Reply}
    (deciding : Deciding past db (.step op next)) (ran : op.exec db = .ok (reply, after))
    (reads
      : ∀ (input : EvaluationInput) (rest : PolicyDecision → Call Answer),
          (.step op next : Call Answer)
            = (query .selectActivePolicies >>= fun policies =>
                attachPolicyMeta (evaluate policies input) >>= rest)
          → past (db.rulingVersion input))
    : Deciding past after (next (.ok reply)) := by
  generalize isStep : (Program.step op next : Call Answer) = program at deciding
  cases deciding with
  | undecided undecided =>
      subst isStep
      rcases undecided.step with ⟨_, goesOn⟩ | ⟨input, rest, same, records⟩
      · exact .undecided (goesOn _)
      · have decided := reads input rest same
        cases same
        cases ran
        exact .read versioned decided records
  | named row decision rest decided stored current name records =>
      rw [attachPolicyMeta_named name] at isStep
      cases isStep
      cases ran
      exact .told versioned decided stored current records
  | settled version decided stored records =>
      subst isStep
      have grown := exec_grown ran
      exact .settled version decided
        (fun row isVersion => grown.versions row (stored row isVersion)) (records.2 _ trivial)

/-- The call is told that its statement failed. -/
theorem Deciding.refused {op : Statement} {next : Except DbError op.Reply → Call Answer}
    {fault : DbError} (deciding : Deciding past db (.step op next))
    : Deciding past db (next (.error fault)) := by
  generalize isStep : (Program.step op next : Call Answer) = program at deciding
  cases deciding with
  | undecided undecided =>
      subst isStep
      rcases undecided.step with ⟨_, goesOn⟩ | ⟨input, rest, same, records⟩
      · exact .undecided (goesOn _)
      · cases same
        exact .undecided (.ended _)
  | named row decision rest decided stored current name records =>
      rw [attachPolicyMeta_named name] at isStep
      cases isStep
      exact .undecided (.ended _)
  | settled version decided stored records =>
      subst isStep
      exact .settled version decided stored (records.2 _ trivial)

/-- What a call records, it records of the version that decided. -/
theorem Deciding.records {op : Statement} {next : Except DbError op.Reply → Call Answer}
    (deciding : Deciding past db (.step op next)) (loud : op.silent = false)
    : ∃ version, past version ∧ (∀ row, version = some row → row ∈ db.policyVersions)
        ∧ recordsVersion version op := by
  generalize isStep : (Program.step op next : Call Answer) = program at deciding
  cases deciding with
  | undecided undecided =>
      subst isStep
      rcases undecided.step with ⟨silent, _⟩ | ⟨input, rest, same, records⟩
      · rw [loud] at silent
        cases silent
      · cases same
        cases loud
  | named row decision rest decided stored current name records =>
      rw [attachPolicyMeta_named name] at isStep
      cases isStep
      cases loud
  | settled version decided stored records =>
      subst isStep
      exact ⟨version, decided, stored, records.1⟩

end Step

namespace ControlPlane

/-- The call reads the policies next, and decides on this input. -/
def Evaluates (plane : ControlPlane) (call : Nat) (input : EvaluationInput) : Prop :=
  ∃ rest : PolicyDecision → Call Answer,
    plane.calls[call]?
      = some (query .selectActivePolicies >>= fun policies =>
          attachPolicyMeta (evaluate policies input) >>= rest)

/-- Within these turns the call has read the policies, and this version was the one that decided, if
one did.
-/
def DecidedBy (plane : ControlPlane) (turns : List Turn) (call : Nat)
    (version : Option PolicyVersionRow) : Prop :=
  ∃ earlier later input, turns = earlier ++ .run call :: later
    ∧ (plane.after earlier).Evaluates call input
    ∧ version = (plane.after earlier).state.rulingVersion input

/-- No policy is pointed elsewhere while a call that has read the documents is about to read where it
points.
-/
def MetaUndisturbed (plane : ControlPlane) : Turn → Prop
  | .run call =>
      ∀ id version gitCommit, plane.Runs call (.updatePolicyVersion id version gitCommit)
        → ∀ policy ∈ plane.state.policies, policy.id = id
          → ∀ other, ¬ plane.Runs other (.selectPolicyMeta policy.name)
  | _ => True

/-- The call is one that creates a session. -/
def Creates (requests : List Request) (call : Nat) : Prop :=
  ∃ draw userId userEmail req, requests[call]? = some (.createSession draw userId userEmail req)

/-- How far the calls that create sessions are with their decisions, after some turns of a run. -/
structure Decides (first : ControlPlane) (requests : List Request) (turns : List Turn)
    (plane : ControlPlane) : Prop where
  reached : plane = first.after turns
  kept : plane.Kept versioning (fun _ _ _ => True)
  calls
    : ∀ call program, Creates requests call → plane.calls[call]? = some program
        → Deciding (first.DecidedBy turns call) plane.state program

section Run

variable {first plane moved : ControlPlane} {requests : List Request} {turns : List Turn}
  {turn : Turn}

theorem DecidedBy.later {call : Nat} {version : Option PolicyVersionRow}
    (decided : first.DecidedBy turns call version)
    : first.DecidedBy (turns ++ [turn]) call version := by
  obtain ⟨earlier, later, input, rfl, evaluates, isVersion⟩ := decided
  exact ⟨earlier, later ++ [turn], input, by simp, evaluates, isVersion⟩

/-- A statement that moves no pointer that the other call is about to read. -/
theorem pointsTo_exec {statement : Statement} {reply : statement.Reply} {db after : Db}
    {row : PolicyVersionRow} (ran : statement.exec db = .ok (reply, after))
    (elsewhere
      : ∀ id version gitCommit, statement = .updatePolicyVersion id version gitCommit
          → ∀ policy ∈ db.policies, policy.name = row.document.metadata.name → policy.id ≠ id)
    (current : db.PointsTo row)
    : after.PointsTo row := by
  obtain ⟨policy, there, id, name, number, commit⟩ := current
  have stays : policy ∈ statement.policiesAfter db := by
    cases statement with
    | upsertPolicy =>
        simp only [Statement.policiesAfter]
        split
        · exact there
        · exact List.mem_append_left _ there
    | updatePolicyVersion other version gitCommit =>
        refine mem_updateWhere.mpr ⟨policy, there, ?_⟩
        have different : (policy.id == other) = false := by
          simpa using elsewhere other version gitCommit rfl policy there name
        simp only [different, Bool.false_eq_true, if_false]
    | _ => exact there
  rw [← (Statement.policies_exec ran).1] at stays
  exact ⟨policy, stays, id, name, number, commit⟩

/-- Every undisturbed turn keeps the decisions, by cases on the move. -/
theorem Decides.step (decides : Decides first requests turns plane)
    (undisturbed : plane.MetaUndisturbed turn) (moves : plane.Moves elapse turn moved)
    (reached : moved = first.after (turns ++ [turn]))
    : Decides first requests (turns ++ [turn]) moved where
  reached := reached
  kept := versioning_step decides.kept moves
  calls := by
    have versioned := decides.kept.possible
    have passed : ∀ call version, first.DecidedBy turns call version
        → first.DecidedBy (turns ++ [turn]) call version :=
      fun _ _ decided => decided.later
    -- Where neither the call nor the versions change, its decision stays recorded.
    have still : ∀ call program, Creates requests call → plane.calls[call]? = some program
        → Deciding (first.DecidedBy (turns ++ [turn]) call) plane.state program := by
      intro call program creates found
      exact (decides.calls call program creates found).later (passed call) (Grown.refl _)
        (fun _ _ current => current)
    cases moves with
    | @replied call op next reply db issued ran =>
        intro other program creates found
        rcases System.getElem?_set_cases found with ⟨rfl, rfl⟩ | ⟨_, unchanged⟩
        · refine (still other _ creates issued).replied versioned ran ?_
          intro input rest same
          refine ⟨turns, [], input, rfl, ⟨rest, ?_⟩, ?_⟩
          · rw [← decides.reached, issued, same]
          · rw [← decides.reached]
        · refine (decides.calls other program creates unchanged).later (passed other)
            (exec_grown ran) ?_
          intro row pending
          refine pointsTo_exec ran ?_
          rintro id version gitCommit rfl policy there name isOwn
          refine undisturbed id version gitCommit ?_ policy there isOwn other ?_
          · exact runs_of_issued issued
          · rw [runs_iff unchanged, name]
            exact pending
    | @refused call op next fault issued ran =>
        intro other program creates found
        rcases System.getElem?_set_cases found with ⟨rfl, rfl⟩ | ⟨_, unchanged⟩
        · exact (still other _ creates issued).refused
        · exact still other program creates unchanged
    | @lost call op next issued =>
        intro other program creates found
        rcases System.getElem?_set_cases found with ⟨rfl, rfl⟩ | ⟨_, unchanged⟩
        · exact (still other _ creates issued).refused
        · exact still other program creates unchanged
    | env change =>
        intro other program creates found
        exact (decides.calls other program creates found).later (passed other)
          ⟨fun policy there => ⟨policy, there, rfl, rfl⟩, fun _ there => there⟩
          (fun _ _ current => current)
    | idle => exact still

/-- No call has begun. -/
theorem start_decides {state : AppState} {db : Db} (versioned : Versioned db)
    : Decides (start state requests db) requests [] (start state requests db) where
  reached := rfl
  kept := start_versioned versioned
  calls := by
    intro call program given found
    obtain ⟨draw, userId, userEmail, req, made⟩ := given
    rw [start_calls, made] at found
    obtain rfl := Option.some.inj found
    exact .undecided create_undecided.returning

end Run

/-- In an undisturbed run, whenever a call that creates a session is about to record a decision, what it
records is the version whose document decided when the call read the policies.
-/
theorem decision_recorded {state : AppState} {requests : List Request} {db : Db}
    {turns : List Turn} (versioned : Versioned db)
    (undisturbed : (start state requests db).Obeys MetaUndisturbed turns) {call : Nat}
    (creates : Creates requests call) {statement : Statement}
    (runs : ((start state requests db).after turns).Runs call statement)
    (records : statement.silent = false)
    : ∃ version, (start state requests db).DecidedBy turns call version
        ∧ (∀ row, version = some row
            → row ∈ ((start state requests db).after turns).state.policyVersions)
        ∧ recordsVersion version statement := by
  have decides : Decides (start state requests db) requests turns
      ((start state requests db).after turns) := by
    refine @System.run_history _ _ _ _ _ _ elapse MetaUndisturbed
      (Decides (start state requests db) requests) ?_ [] _ (start_decides versioned) turns undisturbed
    intro past plane turn moved decides undisturbed moves
    refine decides.step undisturbed moves ?_
    rw [after, System.run_append, moves.eq_handle, decides.reached]
    rfl
  obtain ⟨program, found, pending⟩ := Option.bind_eq_some_iff.mp runs
  cases program with
  | done result => cases pending
  | step op next =>
      obtain rfl : op = statement := Option.some.inj pending
      exact (decides.calls call _ creates found).records records

/-- Ada asks for a session, and her policy is changed so that it refuses her. -/
def creationAndChange : List Request :=
  [.createSession ⟨20, 21⟩ 1 "ada@example.com" ⟨3, 2, []⟩,
    .applyPolicy 8 (labPolicy "all" false) (some "a")]

/-- What the creation decides on. -/
def adaAsks : EvaluationInput := ⟨"ada@example.com", [], "lab", [], false⟩

/-- The creation up to the insertion of the session. The policy is changed when it has read both the
documents and their version.
-/
def recordingTurns : List Turn :=
  List.replicate 6 (.run 0) ++ List.replicate 4 (.run 1) ++ [.run 0]

def recordingPlane : ControlPlane :=
  (start smallState creationAndChange smallInstallation).after recordingTurns

/-- The session that is inserted when this version of the policy decided. -/
def adaSession (version : Int) : SessionRow :=
  ⟨20, 1, 2, 4, 3, some 5, some version, placeholderAddress, .active, 0, seconds 3600⟩

/-- The first version decided and is recorded, although the policy has gone on to the second one. -/
theorem decision_recorded_before_change
    : (∃ policy ∈ recordingPlane.state.policies, policy.name = "all" ∧ policy.currentVersion = 2)
      ∧ ∃ version,
          (start smallState creationAndChange smallInstallation).DecidedBy recordingTurns 0 version
          ∧ (∀ row, version = some row → row ∈ recordingPlane.state.policyVersions)
          ∧ recordsVersion version (.insertSession (adaSession 1)) := by
  have undisturbed : (start smallState creationAndChange smallInstallation).Obeys MetaUndisturbed
      recordingTurns := by
    refine ⟨?_, ?_, ?_, ?_, ?_, ?_, ?_, ?_, ?_, ?pointer, ?_, trivial⟩
    case pointer =>
      intro id version gitCommit _ policy _ _ other
      match other with
      | 0 | 1 | other + 2 =>
          intro runs
          cases runs
    all_goals
      intro id version gitCommit runs
      cases runs
  refine ⟨⟨_, List.mem_cons_self, rfl, rfl⟩, ?_⟩
  exact decision_recorded smallInstallation_versioned undisturbed ⟨_, _, _, _, rfl⟩ rfl rfl

/-- The creation has come to the reading of the policies. -/
def readingPlane : ControlPlane :=
  (start smallState creationAndChange smallInstallation).after (List.replicate 4 (.run 0))

/-- The policy is changed between the reading of the policies and that of the version. -/
def misrecordingPlane : ControlPlane :=
  readingPlane.after ([.run 0] ++ List.replicate 4 (.run 1) ++ List.replicate 2 (.run 0))

/-- The first version decides and lets ada in; the second one, which does not, is recorded. -/
theorem decision_misrecorded
    : readingPlane.Evaluates 0 adaAsks
      ∧ (readingPlane.state.rulingVersion adaAsks).map (·.version) = some 1
      ∧ misrecordingPlane.Runs 0 (.insertSession (adaSession 2))
      ∧ ∃ row ∈ misrecordingPlane.state.policyVersions,
          row.version = 2 ∧ row.document = labPolicy "all" false := by
  refine ⟨?_, rfl, rfl, _, List.mem_cons_of_mem _ List.mem_cons_self, rfl, rfl⟩
  apply Exists.intro
  refine congrArg some (congrArg (Program.step _) (funext ?_))
  intro reply
  cases reply with
  | ok policies => exact Program.bind_assoc (attachPolicyMeta (evaluate policies adaAsks)) _ _
  | error fault => rfl

end ControlPlane

end WslVpn
