import WslVpn.Control.Traffic

/-! A session creation that fails, beside any number of others. Up to its first write it leaves
nothing but audit events behind; from that write on the session row stays.
-/

namespace WslVpn

open AddressSpace Interleaving

-----------------------------------------------------------------------------------------
-- Databases that differ in their audit logs
-----------------------------------------------------------------------------------------

/-- The same database with another audit log. -/
def Db.withLog (log : List AuditEntry) (db : Db) : Db := { db with auditEvents := log }

/-- The shape of an insert that may clash and must refer to known rows. -/
theorem map_guarded {Reply : Type} {clash known : Prop} [Decidable clash] [Decidable known]
    {first second : DbError} {outcome : Reply × Db} {change : Reply × Db → Reply × Db}
    : (if clash then Except.error first
        else if known then .ok outcome else .error second).map change
      = if clash then .error first else if known then .ok (change outcome) else .error second := by
  split
  · rfl
  · split <;> rfl

section Shadow

variable {draw : SessionService.Draw} {req : CreateSessionRequest} {statement : Statement}

/-- The audit log is not read, by cases on the statement. -/
theorem exec_withLog (log : List AuditEntry) (db : Db) (issued : createIssues draw req statement)
    (writes : ∀ entry, statement ≠ .insertAuditEvent entry)
    : statement.exec (db.withLog log)
      = (statement.exec db).map (fun result => (result.1, result.2.withLog log)) := by
  cases statement with
  | insertSession row =>
      simp only [Statement.exec, Db.insertSession]
      rw [map_guarded]
      rfl
  | insertPeer row =>
      simp only [Statement.exec, Db.insertPeer]
      rw [map_guarded]
      rfl
  | insertAllocation row =>
      simp only [Statement.exec, Db.insertAllocation]
      rw [map_guarded]
      rfl
  | insertAuditEvent entry => exact absurd rfl (writes entry)
  | insertNetwork | insertRoute | upsertService | upsertGateway | updateGatewayToken | upsertDevice
  | insertDeviceCertificate | insertPolicyVersion | deleteUser | upsertGroup | upsertPolicy =>
      rcases issued with issued | issued <;> cases issued
  | _ => rfl

/-- On databases that differ in their logs, a statement answers the same and they go on
differing in their logs.
-/
theorem exec_shadow (log : List AuditEntry) (db : Db) (issued : createIssues draw req statement)
    : (∃ reply after log', statement.exec db = .ok (reply, after)
        ∧ statement.exec (db.withLog log) = .ok (reply, after.withLog log'))
      ∨ ∃ fault, statement.exec db = .error fault
        ∧ statement.exec (db.withLog log) = .error fault := by
  by_cases writes : ∃ entry, statement = .insertAuditEvent entry
  · obtain ⟨entry, rfl⟩ := writes
    simp only [Statement.exec, Db.insertAuditEvent]
    by_cases accepted : (Db.optionally db.hasUser entry.userId
      && Db.optionally db.hasDevice entry.deviceId
      && Db.optionally db.hasPolicy entry.policyId) = true
    · exact Or.inl ⟨(), _, log ++ [entry], if_pos accepted, if_pos accepted⟩
    · exact Or.inr ⟨_, if_neg accepted, if_neg accepted⟩
  · have mapped := exec_withLog log db issued (fun entry same => writes ⟨entry, same⟩)
    cases ran : statement.exec db with
    | ok result => exact Or.inl ⟨result.1, result.2, log, rfl, by rw [mapped, ran]; rfl⟩
    | error fault => exact Or.inr ⟨fault, rfl, by rw [mapped, ran]; rfl⟩

/-- A quiet statement changes the log at most. -/
theorem exec_quiet {db after : Db} {reply : statement.Reply} (quiet : statement.quiet = true)
    (ran : statement.exec db = .ok (reply, after))
    : ∃ log, db = after.withLog log := by
  cases statement <;> try cases quiet
  case insertAuditEvent entry =>
    simp only [Statement.exec, Db.insertAuditEvent] at ran
    split at ran
    · cases ran
      exact ⟨db.auditEvents, rfl⟩
    · cases ran
  all_goals
    cases ran
    exact ⟨_, rfl⟩

end Shadow

-----------------------------------------------------------------------------------------
-- The same schedule with and without the call
-----------------------------------------------------------------------------------------

/-- The turn is one of the call's own. -/
def isTurnOf (call : Nat) : Turn → Bool
  | .run other | .lose other => other == call
  | .env _ => false

/-- The schedule had the call not been made. -/
def without (call : Nat) (turns : List Turn) : List Turn :=
  turns.filter (fun turn => !isTurnOf call turn)

/-- The three tables that a creation writes rows to hold the same rows. -/
structure SameTables (left right : Db) : Prop where
  sessions : left.sessions = right.sessions
  allocations : left.ipamAllocations = right.ipamAllocations
  peers : left.wireguardPeers = right.wireguardPeers

/-- If the turn runs the call's `INSERT INTO sessions`, the database refuses it. -/
def InsertRefused (call : Nat) (plane : ControlPlane) (turn : Turn) : Prop :=
  turn = .run call → ∀ row, plane.Runs call (.insertSession row)
    → ∃ fault, (Statement.insertSession row).exec plane.state = .error fault

/-- A statement of the session creation at this position. -/
def Issues (requests : List Request) (call : Nat) (statement : Statement) : Prop :=
  ∃ draw userId userEmail req,
    requests[call]? = some (.createSession draw userId userEmail req)
    ∧ createIssues draw req statement

/-- Before the session row: quiet statements and the insert itself. -/
def beforeInsert (statement : Statement) : Prop :=
  statement.quiet = true ∨ ∃ row, statement = .insertSession row

/-- The insert of the session row does not succeed. -/
def notInserted (statement : Statement) (reply : Except DbError statement.Reply) : Prop :=
  (∃ row, statement = .insertSession row) → ∃ fault, reply = .error fault

/-- The counterfactual run follows the run itself in everything but the audit log and the call. -/
structure Shadows (requests : List Request) (call : Nat) (plane shadow : ControlPlane) : Prop where
  log : ∃ log, shadow.state = plane.state.withLog log
  others : ∀ other, other ≠ call → shadow.calls[other]? = plane.calls[other]?
  issues : plane.AllAlong (Issues requests) (fun _ _ => True)
  before
    : ∀ program, plane.calls[call]? = some program
        → program.Along notInserted beforeInsert (fun _ => True)

section Runs

variable {requests : List Request} {call : Nat} {plane shadow : ControlPlane} {turn : Turn}

/-- The call has moved without inserting and the databases still agree. -/
theorem Shadows.moved (shadows : Shadows requests call plane shadow) {op : Statement}
    {next : Except DbError op.Reply → Call Answer} {reply : Except DbError op.Reply} {after : Db}
    (issued : plane.calls[call]? = some (.step op next))
    (agrees : ∃ log, shadow.state = after.withLog log) (missed : notInserted op reply)
    (issues : System.AllAlong (Issues requests) (fun _ _ => True)
      ⟨after, plane.calls.set call (next reply)⟩)
    : Shadows requests call ⟨after, plane.calls.set call (next reply)⟩ shadow := by
  refine ⟨agrees, ?_, issues, ?_⟩
  · intro other different
    rw [List.getElem?_set_ne (Ne.symm different)]
    exact shadows.others other different
  · intro program found
    rw [System.getElem?_set_moved issued] at found
    cases found
    exact (shadows.before _ issued).2 reply missed

/-- The call's own turns leave at most audit events behind while its insert is refused. -/
theorem Shadows.own (shadows : Shadows requests call plane shadow)
    (own : isTurnOf call turn = true) (refused : InsertRefused call plane turn)
    : Shadows requests call (plane.handle elapse turn) shadow := by
  have moves := System.handle_moves elapse plane turn
  have issues := shadows.issues.step moves
  generalize plane.handle elapse turn = after at moves issues
  cases moves with
  | @replied other op next reply after issued answer =>
      obtain rfl : other = call := by simpa [isTurnOf] using own
      obtain ⟨log, agrees⟩ := shadows.log
      have quiet : op.quiet = true := by
        rcases (shadows.before _ issued).1 with quiet | ⟨row, rfl⟩
        · exact quiet
        · obtain ⟨fault, error⟩ := refused rfl row (ControlPlane.runs_of_issued issued)
          cases error.symm.trans answer
      obtain ⟨old, same⟩ := exec_quiet quiet answer
      refine shadows.moved issued ⟨log, ?_⟩ ?_ issues
      · rw [agrees, same]
        rfl
      · intro given
        obtain ⟨row, rfl⟩ := given
        cases quiet
  | @refused other op next fault issued answer =>
      obtain rfl : other = call := by simpa [isTurnOf] using own
      exact shadows.moved issued shadows.log (fun _ => ⟨fault, rfl⟩) issues
  | @lost other op next issued =>
      obtain rfl : other = call := by simpa [isTurnOf] using own
      exact shadows.moved issued shadows.log (fun _ => ⟨_, rfl⟩) issues
  | env change => cases own
  | idle => exact shadows

/-- Another program moves alike on databases that differ in their logs. -/
theorem advance_shadow {program : Call Answer} {db : Db} {log : List AuditEntry}
    (issues : ∀ op, program.pending? = some op → ∃ draw req, createIssues draw req op)
    : ∃ log', program.advance (db.withLog log)
        = ((program.advance db).1, (program.advance db).2.withLog log') := by
  cases program with
  | done result => exact ⟨log, rfl⟩
  | step op next =>
      obtain ⟨draw, req, issued⟩ := issues op rfl
      rcases exec_shadow log db issued
          with ⟨reply, after, log', ran, shadowed⟩ | ⟨fault, ran, shadowed⟩
      · refine ⟨log', ?_⟩
        simp only [Program.advance, ran, shadowed]
      · refine ⟨log, ?_⟩
        simp only [Program.advance, ran, shadowed]

/-- A turn that is not the call's own happens in both runs. -/
theorem Shadows.other (shadows : Shadows requests call plane shadow)
    (other : isTurnOf call turn = false)
    : Shadows requests call (plane.handle elapse turn) (shadow.handle elapse turn) := by
  have issues := shadows.issues.step (System.handle_moves elapse plane turn)
  obtain ⟨log, agrees⟩ := shadows.log
  -- The calls list changes at one position only, and that is not the call's.
  have elsewhere
      : ∀ {moving : Nat} (moved : Call Answer), moving ≠ call
          → (∀ another, another ≠ call → (shadow.calls.set moving moved)[another]?
              = (plane.calls.set moving moved)[another]?)
            ∧ ∀ program, (plane.calls.set moving moved)[call]? = some program
                → program.Along notInserted beforeInsert (fun _ => True) := by
    intro moving moved different
    refine ⟨?_, ?_⟩
    · intro another apart
      have same := shadows.others another apart
      by_cases here : moving = another
      · subst here
        rw [List.getElem?_set_self', List.getElem?_set_self', same]
      · rw [List.getElem?_set_ne here, List.getElem?_set_ne here, same]
    · intro program found
      rw [List.getElem?_set_ne different] at found
      exact shadows.before program found
  cases turn with
  | env change =>
      refine ⟨⟨log, ?_⟩, shadows.others, issues, shadows.before⟩
      simp only [System.handle, agrees]
      rfl
  | run moving =>
      have different : moving ≠ call := by simpa [isTurnOf] using other
      have same := shadows.others moving different
      cases found : plane.calls[moving]? with
      | none =>
          rw [found] at same
          simp only [System.handle, found, same] at issues ⊢
          exact shadows
      | some program =>
          rw [found] at same
          have allowed : ∀ op, program.pending? = some op
              → ∃ draw req, createIssues draw req op := by
            intro op pending
            cases program with
            | done result => cases pending
            | step first next =>
                cases pending
                obtain ⟨draw, _, _, req, _, issued⟩ := (shadows.issues _ _ found).1
                exact ⟨draw, req, issued⟩
          obtain ⟨log', advanced⟩ := @advance_shadow program plane.state log allowed
          simp only [System.handle, found, same, agrees, advanced] at issues ⊢
          exact ⟨⟨log', rfl⟩, (elsewhere _ different).1, issues, (elsewhere _ different).2⟩
  | lose moving =>
      have different : moving ≠ call := by simpa [isTurnOf] using other
      have same := shadows.others moving different
      cases found : plane.calls[moving]? with
      | none =>
          rw [found] at same
          simp only [System.handle, found, same] at issues ⊢
          exact shadows
      | some program =>
          rw [found] at same
          simp only [System.handle, found, same] at issues ⊢
          exact ⟨⟨log, agrees⟩, (elsewhere _ different).1, issues, (elsewhere _ different).2⟩

/-- While the insert is refused the two runs agree, by induction on the schedule. -/
theorem Shadows.run {turns : List Turn} (shadows : Shadows requests call plane shadow)
    (refused : plane.Obeys (InsertRefused call) turns)
    : Shadows requests call (plane.after turns) (shadow.after (without call turns)) := by
  induction turns generalizing plane shadow with
  | nil => exact shadows
  | cons turn rest ih =>
      cases own : isTurnOf call turn with
      | true =>
          have dropped : without call (turn :: rest) = without call rest := by
            simp only [without, List.filter_cons, own, Bool.not_true, Bool.false_eq_true, if_false]
          rw [dropped]
          exact ih (shadows.own own refused.1) refused.2
      | false =>
          have kept : without call (turn :: rest) = turn :: without call rest := by
            simp only [without, List.filter_cons, own, Bool.not_false, if_true]
          rw [kept]
          exact ih (shadows.other own) refused.2

end Runs

-----------------------------------------------------------------------------------------
-- A session row that is in place stays
-----------------------------------------------------------------------------------------

section Rows

variable {requests : List Request} {call : Nat} {plane shadow : ControlPlane} {turn : Turn}
  {id : Uuid}

theorem createIssues_kept {draw : SessionService.Draw} {req : CreateSessionRequest}
    {statement : Statement} (issued : createIssues draw req statement) (user : Uuid)
    : statement ≠ .deleteUser user := by
  rintro rfl
  rcases issued with quiet | writes
  · cases quiet
  · exact writes

/-- What a turn does to the session of the given identifier: it stays, and it appears only when
the turn runs an insert of it.
-/
theorem hasSession_handle (issues : plane.AllAlong (Issues requests) (fun _ _ => True))
    : (plane.handle elapse turn).state.hasSession id = true
      ↔ plane.state.hasSession id = true
        ∨ ∃ moving row result, turn = .run moving ∧ plane.Runs moving (.insertSession row)
            ∧ row.id = id ∧ (Statement.insertSession row).exec plane.state = .ok result := by
  have moves := System.handle_moves elapse plane turn
  generalize plane.handle elapse turn = after at moves
  cases moves with
  | @replied moving op next reply after issued answer =>
      obtain ⟨draw, _, _, req, _, own⟩ := (issues _ _ issued).1
      rw [Statement.hasSession_exec answer (createIssues_kept own) id]
      have pending := ControlPlane.runs_of_issued issued
      constructor
      · rintro (there | ⟨row, rfl, same⟩)
        · exact Or.inl there
        · exact Or.inr ⟨moving, row, _, rfl, pending, same, answer⟩
      · rintro (there | ⟨_, row, _, ⟨⟩, runs, same, _⟩)
        · exact Or.inl there
        · exact Or.inr ⟨row, Option.some.inj (pending.symm.trans runs), same⟩
  | @refused moving op next fault issued answer =>
      refine ⟨Or.inl, ?_⟩
      rintro (there | ⟨_, row, result, ⟨⟩, runs, _, accepted⟩)
      · exact there
      · have pending := ControlPlane.runs_of_issued issued
        obtain rfl := Option.some.inj (pending.symm.trans runs)
        cases answer.symm.trans accepted
  | lost issued =>
      refine ⟨Or.inl, ?_⟩
      rintro (there | ⟨_, row, result, ⟨⟩, _⟩)
      exact there
  | env change =>
      refine ⟨Or.inl, ?_⟩
      rintro (there | ⟨_, row, result, ⟨⟩, _⟩)
      exact there
  | idle named ended =>
      refine ⟨Or.inl, ?_⟩
      rintro (there | ⟨moving, row, result, rfl, runs, _⟩)
      · exact there
      · rcases named with same | same <;> cases same
        obtain ⟨program, found, pending⟩ := Option.bind_eq_some_iff.mp runs
        cases program with
        | done _ => cases pending
        | step op next => exact absurd found (ended op next)

/-- The insert that a call runs next carries the session that the call has drawn. -/
theorem insert_drawn {row : SessionRow}
    (issues : plane.AllAlong (Issues requests) (fun _ _ => True))
    (runs : plane.Runs call (.insertSession row))
    : ∃ draw userId userEmail req,
        requests[call]? = some (.createSession draw userId userEmail req)
        ∧ row.id = draw.sessionId := by
  obtain ⟨program, found, pending⟩ := Option.bind_eq_some_iff.mp runs
  cases program with
  | done _ => cases pending
  | step op next =>
      cases pending
      obtain ⟨draw, userId, userEmail, req, made, quiet | writes⟩ := (issues _ _ found).1
      · cases quiet
      · exact ⟨draw, userId, userEmail, req, made, writes.1⟩

/-- A session that is in place stays, by induction on the schedule. -/
theorem hasSession_after {turns : List Turn}
    (issues : plane.AllAlong (Issues requests) (fun _ _ => True))
    (there : plane.state.hasSession id = true)
    : (plane.after turns).state.hasSession id = true := by
  induction turns generalizing plane with
  | nil => exact there
  | cons turn rest ih =>
      exact ih (issues.step (System.handle_moves elapse plane turn))
        ((hasSession_handle issues).mpr (Or.inl there))

/-- A schedule in which the insert once succeeds: the session was not there before it and is
there at the end. The induction is on the schedule.
-/
theorem inserted_of_not_refused {turns : List Turn} {draw : SessionService.Draw} {userId : Uuid}
    {userEmail : String} {req : CreateSessionRequest}
    (made : requests[call]? = some (.createSession draw userId userEmail req))
    (issues : plane.AllAlong (Issues requests) (fun _ _ => True))
    (accepted : ¬ plane.Obeys (InsertRefused call) turns)
    : plane.state.hasSession draw.sessionId = false
      ∧ (plane.after turns).state.hasSession draw.sessionId = true := by
  induction turns generalizing plane with
  | nil => exact absurd trivial accepted
  | cons turn rest ih =>
      have later := issues.step (System.handle_moves elapse plane turn)
      by_cases here : InsertRefused call plane turn
      · have remaining : ¬ ControlPlane.Obeys (plane.handle elapse turn) (InsertRefused call)
            rest :=
          fun obeys => accepted ⟨here, obeys⟩
        obtain ⟨absent, present⟩ := ih later remaining
        refine ⟨?_, present⟩
        cases there : plane.state.hasSession draw.sessionId with
        | false => rfl
        | true =>
            have stays : (plane.handle elapse turn).state.hasSession draw.sessionId = true :=
              (hasSession_handle issues).mpr (Or.inl there)
            rw [absent] at stays
            cases stays
      · simp only [InsertRefused, not_forall, not_exists] at here
        obtain ⟨rfl, row, runs, succeeds⟩ := here
        obtain ⟨draw', _, _, _, made', drawn⟩ := insert_drawn issues runs
        obtain ⟨rfl, _⟩ : draw = draw' ∧ _ := by
          have same := made.symm.trans made'
          simp only [Option.some.injEq, Request.createSession.injEq] at same
          exact ⟨same.1, same.2⟩
        cases ran : (Statement.insertSession row).exec plane.state with
        | error fault => exact absurd ran (succeeds fault)
        | ok result =>
            have unused := (Statement.insertSession_ok ran).1
            rw [drawn] at unused
            have stays : (ControlPlane.after (plane.handle elapse (.run call)) rest).state.hasSession
                draw.sessionId = true :=
              hasSession_after later ((hasSession_handle issues).mpr
                (Or.inr ⟨call, row, result, rfl, runs, drawn, ran⟩))
            exact ⟨unused, stays⟩

/-- Without the call nobody inserts its session, by induction on the schedule. -/
theorem absent_without {turns : List Turn} {draw : SessionService.Draw}
    (distinct
      : ∀ other draw' userId userEmail req, other ≠ call
          → requests[other]? = some (.createSession draw' userId userEmail req)
          → draw'.sessionId ≠ draw.sessionId)
    (issues : plane.AllAlong (Issues requests) (fun _ _ => True))
    (absent : plane.state.hasSession draw.sessionId = false)
    : (plane.after (without call turns)).state.hasSession draw.sessionId = false := by
  induction turns generalizing plane with
  | nil => exact absent
  | cons turn rest ih =>
      cases own : isTurnOf call turn with
      | true =>
          have dropped : without call (turn :: rest) = without call rest := by
            simp only [without, List.filter_cons, own, Bool.not_true, Bool.false_eq_true, if_false]
          rw [dropped]
          exact ih issues absent
      | false =>
          have kept : without call (turn :: rest) = turn :: without call rest := by
            simp only [without, List.filter_cons, own, Bool.not_false, if_true]
          rw [kept]
          refine ih (issues.step (System.handle_moves elapse plane turn)) ?_
          rw [Bool.eq_false_iff, Ne, hasSession_handle issues, absent]
          rintro (⟨⟨⟩⟩ | ⟨moving, row, _, rfl, runs, same, _⟩)
          obtain ⟨draw', _, _, _, made, drawn⟩ := insert_drawn issues runs
          have different : moving ≠ call := by simpa [isTurnOf] using own
          exact distinct moving draw' _ _ _ different made (drawn.symm.trans same)

end Rows

/-- Creations from the start send only what creations send. -/
theorem start_issues {state : AppState} {requests : List Request} {db : Db}
    (creations : ∀ request ∈ requests, ∃ draw userId userEmail req,
      request = .createSession draw userId userEmail req)
    : (ControlPlane.start state requests db).AllAlong (Issues requests) (fun _ _ => True) := by
  intro call program found
  rw [ControlPlane.start_calls] at found
  obtain ⟨request, made, rfl⟩ := Option.map_eq_some_iff.mp found
  obtain ⟨draw, userId, userEmail, req, rfl⟩ := creations _ (List.mem_of_getElem? made)
  refine Program.Along.seq (create_along ?_ ?_) (fun _ => trivial)
  · intro statement quiet
    exact ⟨draw, userId, userEmail, req, made, Or.inl quiet⟩
  · intro row writes
    refine ⟨⟨draw, userId, userEmail, req, made, Or.inr writes⟩, ?_⟩
    intro _ statement writes
    exact ⟨draw, userId, userEmail, req, made, Or.inr writes⟩

/-- A session creation beside others leaves the three tables as they would be without it exactly
when its insert of the session row never succeeds. A creation that fails later on leaves that row.
-/
theorem create_leaves_tables_iff {state : AppState} {requests : List Request} {db : Db}
    {call : Nat} {draw : SessionService.Draw} {userId : Uuid} {userEmail : String}
    {req : CreateSessionRequest} {error : AppError} {turns : List Turn}
    (creations : ∀ request ∈ requests, ∃ draw userId userEmail req,
      request = .createSession draw userId userEmail req)
    (distinct
      : ∀ other draw' userId userEmail req, other ≠ call
          → requests[other]? = some (.createSession draw' userId userEmail req)
          → draw'.sessionId ≠ draw.sessionId)
    (made : requests[call]? = some (.createSession draw userId userEmail req))
    (_failed : ((ControlPlane.start state requests db).after turns).Answered call (.error error))
    : SameTables ((ControlPlane.start state requests db).after turns).state
        ((ControlPlane.start state requests db).after (without call turns)).state
      ↔ (ControlPlane.start state requests db).Obeys (InsertRefused call) turns := by
  have issues : (ControlPlane.start state requests db).AllAlong (Issues requests)
      (fun _ _ => True) :=
    start_issues creations
  constructor
  · intro same
    by_contra accepted
    obtain ⟨absent, present⟩ := inserted_of_not_refused made issues accepted
    have missing : ((ControlPlane.start state requests db).after
        (without call turns)).state.hasSession draw.sessionId = false :=
      absent_without distinct issues absent
    rw [Db.hasSession, same.sessions] at present
    rw [Db.hasSession, present] at missing
    cases missing
  · intro refused
    have shadows : Shadows requests call (ControlPlane.start state requests db)
        (ControlPlane.start state requests db) := by
      refine ⟨⟨db.auditEvents, rfl⟩, fun _ _ => rfl, issues, ?_⟩
      intro program found
      rw [ControlPlane.start_calls, made] at found
      cases found
      refine Program.Along.seq (create_along (fun _ quiet => Or.inl quiet) ?_) (fun _ => trivial)
      intro row _
      refine ⟨Or.inr ⟨row, rfl⟩, ?_⟩
      intro inserted
      obtain ⟨_, ⟨⟩⟩ := inserted ⟨row, rfl⟩
    obtain ⟨log, agrees⟩ := (shadows.run refused).log
    rw [agrees]
    exact ⟨rfl, rfl, rfl⟩

/-- One creation, for the given device. -/
def creationFor (deviceId : Uuid) (db : Db) : ControlPlane :=
  ControlPlane.start smallState [.createSession ⟨6, 7⟩ 1 "ada@example.com" ⟨3, deviceId, []⟩] db

/-- A creation for a device that the user does not own, and one for the user's device. -/
def besideAnother : ControlPlane :=
  ControlPlane.start smallState
    [.createSession ⟨6, 7⟩ 1 "ada@example.com" ⟨3, 9, []⟩,
      .createSession ⟨16, 17⟩ 1 "ada@example.com" ⟨3, 2, []⟩]
    smallInstallation

/-- The first creation fails while the other one is under way. -/
def failsBeside : List Turn :=
  List.replicate 9 (.run 1) ++ .run 0 :: List.replicate 8 (.run 1)

/-- Turns of another call refuse nothing, by induction on their number. -/
theorem obeys_others {call other : Nat} (apart : other ≠ call) (count : Nat) (plane : ControlPlane)
    : plane.Obeys (InsertRefused call) (List.replicate count (.run other)) := by
  induction count generalizing plane with
  | zero => trivial
  | succ count ih => exact ⟨fun own => absurd (Event.run.inj own) apart, ih _⟩

/-- The failed creation leaves the session, the address and the peer of the other one, and nothing of
its own.
-/
theorem create_leaves_tables_beside
    : (∃ response, (besideAnother.after failsBeside).Answered 1 (.ok (.session response)))
      ∧ SameTables (besideAnother.after failsBeside).state
          (besideAnother.after (without 0 failsBeside)).state := by
  have failed : (besideAnother.after failsBeside).Answered 0 (.error .notFound) := rfl
  refine ⟨⟨_, rfl⟩, (create_leaves_tables_iff ?_ ?_ rfl failed).mpr ?_⟩
  · intro request member
    rcases List.mem_pair.mp member with rfl | rfl
    · exact ⟨_, _, _, _, rfl⟩
    · exact ⟨_, _, _, _, rfl⟩
  · intro other draw _ _ _ different made
    match other with
    | 0 => exact absurd rfl different
    | 1 =>
        cases made
        decide
    | other + 2 => cases made
  · refine (System.meets_append elapse).mpr
      ⟨obeys_others (by decide) 9 _, ?_, obeys_others (by decide) 8 _⟩
    -- the first statement of the creation looks for the device
    exact fun _ _ runs => nomatch runs

/-- The small installation with a network that has no address to hand out. -/
def exhaustedInstallation : Db := {
  smallInstallation with
  networks := [⟨3, "lab", .v4 ⟨BitVec.ofNat 32 0x0A080100, 32, by decide⟩, [], []⟩]
}

/-- A creation that finds the pool exhausted returns an error and leaves an active session. -/
theorem create_exhausted_leaves_session
    : ((creationFor 2 exhaustedInstallation).after (List.replicate 11 (.run 0))).Answered 0
        (.error (.badRequest "no free IP addresses in network"))
      ∧ ¬ SameTables ((creationFor 2 exhaustedInstallation).after (List.replicate 11 (.run 0))).state
          ((creationFor 2 exhaustedInstallation).after
            (without 0 (List.replicate 11 (.run 0)))).state := by
  refine ⟨rfl, ?_⟩
  intro same
  have rows := congrArg List.length same.sessions
  exact absurd rows (by decide)

end WslVpn
