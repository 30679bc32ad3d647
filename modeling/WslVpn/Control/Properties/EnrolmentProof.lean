import WslVpn.Control.Traffic

/-! Who may enrol again under a name that is taken. The credential is checked by one statement and
overwritten by another one, so it may be a different credential by then.
-/

namespace WslVpn

open Interleaving

-----------------------------------------------------------------------------------------
-- Stored credentials
-----------------------------------------------------------------------------------------

/-- The credential that is stored under a name. -/
def Db.credential (db : Db) (name : String) : Option String :=
  (db.gateways.find? (·.name == name)).bind (·.authTokenHash)

/-- The statement stores this credential under the name. -/
def Statement.storesCredential (name hash : String) (db : Db) : Statement → Prop
  | .upsertGateway row => row.name = name ∧ row.authTokenHash = some hash
  | .updateGatewayToken id authTokenHash =>
      authTokenHash = hash ∧ ∃ gateway, db.gateways.find? (·.name == name) = some gateway
        ∧ gateway.id = id
  | _ => False

section Stored

variable {statement : Statement} {db after : Db} {reply : statement.Reply} {name hash : String}

/-- An update of the gateways that keeps their names. -/
theorem credential_updateWhere {matching : GatewayRow → Bool} {change : GatewayRow → GatewayRow}
    (gateways : after.gateways = updateWhere matching change db.gateways)
    (named : ∀ row, (change row).name = row.name)
    : after.credential name
      = (db.gateways.find? (·.name == name)).bind
          (fun row => if matching row then (change row).authTokenHash else row.authTokenHash) := by
  have untouched : ∀ row : GatewayRow, ((change row).name == name) = (row.name == name) :=
    fun row => by rw [named row]
  rw [Db.credential, gateways, find?_updateWhere untouched, Option.bind_map]
  congr 1
  funext row
  simp only [Function.comp]
  split <;> rfl

/-- An update that leaves credentials alone as well. -/
theorem credential_kept {matching : GatewayRow → Bool} {change : GatewayRow → GatewayRow}
    (gateways : after.gateways = updateWhere matching change db.gateways)
    (named : ∀ row, (change row).name = row.name)
    (kept : ∀ row, (change row).authTokenHash = row.authTokenHash)
    : after.credential name = db.credential name := by
  rw [credential_updateWhere gateways named, Db.credential]
  congr 1
  funext row
  rw [kept row, ite_self]

/-- A stored credential was there before, or the statement has stored it. -/
theorem credential_exec (ran : statement.exec db = .ok (reply, after))
    (stored : after.credential name = some hash)
    : db.credential name = some hash ∨ statement.storesCredential name hash db := by
  have gateways := (Statement.exec_effect ran).gateways
  cases statement with
  | upsertGateway row =>
      simp only [Statement.gatewaysAfter] at gateways
      split at gateways
      · rw [credential_updateWhere gateways (fun _ => rfl)] at stored
        obtain ⟨gateway, found, holds⟩ := Option.bind_eq_some_iff.mp stored
        have named : gateway.name = name := by simpa using List.find?_some found
        by_cases own : gateway.name = row.name
        · rw [if_pos (by simpa using own)] at holds
          exact Or.inr ⟨own.symm.trans named, holds⟩
        · rw [if_neg (by simpa using own)] at holds
          exact Or.inl (Option.bind_eq_some_iff.mpr ⟨gateway, found, holds⟩)
      · rw [Db.credential, gateways, List.find?_append] at stored
        obtain ⟨gateway, found, holds⟩ := Option.bind_eq_some_iff.mp stored
        rcases Option.or_eq_some_iff.mp found with old | ⟨_, new⟩
        · exact Or.inl (Option.bind_eq_some_iff.mpr ⟨gateway, old, holds⟩)
        · obtain rfl := List.mem_singleton.mp (List.mem_of_find?_eq_some new)
          exact Or.inr ⟨by simpa using List.find?_some new, holds⟩
  | updateGatewayToken id authTokenHash =>
      rw [credential_updateWhere gateways (fun _ => rfl)] at stored
      obtain ⟨gateway, found, holds⟩ := Option.bind_eq_some_iff.mp stored
      by_cases own : gateway.id = id
      · rw [if_pos (by simpa using own)] at holds
        exact Or.inr ⟨Option.some.inj holds, gateway, found, own⟩
      · rw [if_neg (by simpa using own)] at holds
        exact Or.inl (Option.bind_eq_some_iff.mpr ⟨gateway, found, holds⟩)
  | updateGatewayHeartbeat id =>
      rw [credential_kept gateways (fun _ => rfl) (fun _ => rfl)] at stored
      exact Or.inl stored
  | bumpGateway id =>
      rw [credential_kept gateways (fun _ => rfl) (fun _ => rfl)] at stored
      exact Or.inl stored
  | bumpGatewaysOfSession sessionId =>
      rw [credential_kept gateways (fun _ => rfl) (fun _ => rfl)] at stored
      exact Or.inl stored
  | _ =>
      rw [Db.credential, gateways] at stored
      exact Or.inl stored

end Stored

-----------------------------------------------------------------------------------------
-- The course of an enrolment
-----------------------------------------------------------------------------------------

/-- What an enrolment sends after it has been let past the check, up to the write of its row. -/
def Statement.enrols : Statement → Bool
  | .selectGatewayNetwork _ | .selectNetworkIdByName _ | .upsertGateway _ => true
  | _ => false

/-- The statement writes no gateway's row. -/
def Statement.enrolsNobody : Statement → Bool
  | .upsertGateway _ => false
  | _ => true

/-- No gateway's row will be written. -/
abbrev EnrolsNobody {Value : Type} (program : Call Value) : Prop :=
  program.Along (fun _ _ => True) (fun statement : Statement => statement.enrolsNobody = true)
    (fun _ => True)

/-- An enrolment that has been let past the check: it writes one row, under this name. -/
inductive Enrolling {Value : Type} (name : String) : Call Value → Prop where
  | asks (statement : Statement) (next : Except DbError statement.Reply → Call Value)
    (asks : statement.enrols = true) (rows : statement.enrolsNobody = true)
    (rest : ∀ reply, Enrolling name (next reply))
    : Enrolling name (.step statement next)
  | writes (row : GatewayRow) (next : Except DbError GatewayRow → Call Value)
    (own : row.name = name) (rest : ∀ reply, EnrolsNobody (next reply))
    : Enrolling name (.step (.upsertGateway row) next)
  | ended (result : Except AppError Value) : Enrolling name (.done result)

/-- The caller has presented the credential that is stored under the name, if there is one. -/
def Licensed (state : AppState) (presentedAuth : Option String) (name : String) (db : Db) : Prop :=
  ∀ hash, db.credential name = some hash
    → ∃ token, presentedAuth = some token ∧ state.hashToken token = hash

/-- How far an enrolment has come. -/
inductive Enrolment {Value : Type} (state : AppState) (presentedAuth : Option String)
    (name : String)
    (db : Db) : Call Value → Prop where
  | looksUp (rest : Option (Uuid × Option String) → Call Value)
    (goesOn
      : ∀ existing, GatewayService.proved state presentedAuth existing = true
          → Enrolling name (rest existing))
    (refuses
      : ∀ existing, GatewayService.proved state presentedAuth existing = false
          → EnrolsNobody (rest existing))
    : Enrolment state presentedAuth name db (query (.selectGatewayByName name) >>= rest)
  | licensed {program : Call Value} (licensed : Licensed state presentedAuth name db)
    (enrolling : Enrolling name program)
    : Enrolment state presentedAuth name db program
  | settled {program : Call Value} (nobody : EnrolsNobody program)
    : Enrolment state presentedAuth name db program

section Course

variable {Value Result : Type} {state : AppState} {presentedAuth : Option String} {name : String}
  {db after : Db}

/-- Reads before the write, by induction on them. -/
theorem Enrolling.seq {program : Call Value} {rest : Value → Call Result}
    (first
      : program.Along (fun _ _ => True)
          (fun statement : Statement => statement.enrols = true ∧ statement.enrolsNobody = true)
          (fun _ => True))
    (second : ∀ value, Enrolling name (rest value))
    : Enrolling name (program >>= rest) := by
  induction program with
  | done result =>
      cases result with
      | ok value => exact second value
      | error error => exact .ended _
  | step op next ih => exact .asks op _ first.1.1 first.1.2 (fun reply => ih reply (first.2 reply trivial))

/-- The answer is wrapped, by induction on the derivation. -/
theorem Enrolling.returning {program : Call Value} {wrap : Value → Result}
    (enrolling : Enrolling name program)
    : Enrolling name (program >>= fun value => pure (wrap value)) := by
  induction enrolling with
  | asks statement next asks rows _ ih => exact .asks statement _ asks rows ih
  | writes row next own rest =>
      exact .writes row _ own (fun reply => Program.Along.seq (rest reply) (fun _ => trivial))
  | ended result => cases result <;> exact .ended _

theorem Enrolment.returning {program : Call Value} {wrap : Value → Result}
    (enrolment : Enrolment state presentedAuth name db program)
    : Enrolment state presentedAuth name db (program >>= fun value => pure (wrap value)) := by
  cases enrolment with
  | looksUp rest goesOn refuses =>
      rw [Program.bind_assoc]
      refine .looksUp _ (fun existing proved => (goesOn existing proved).returning) ?_
      exact fun existing refused => Program.Along.seq (refuses existing refused) (fun _ => trivial)
  | licensed licensed enrolling => exact .licensed licensed enrolling.returning
  | settled nobody => exact .settled (Program.Along.seq nobody (fun _ => trivial))

/-- The network is found out by reads. -/
theorem networkFor_enrols {requested : Option Uuid} {existing : Option (Uuid × Option String)}
    : (GatewayService.networkFor requested existing).Along (fun _ _ => True)
        (fun statement : Statement => statement.enrols = true ∧ statement.enrolsNobody = true)
        (fun _ => True) := by
  unfold GatewayService.networkFor
  split
  · trivial
  · split
    · refine Program.Along.request ⟨rfl, rfl⟩ ?_ (fun _ _ => trivial)
      rintro (_ | networkId) _ <;> trivial
    · exact @query_along _
        (fun statement => statement.enrols = true ∧ statement.enrolsNobody = true)
        (.selectNetworkIdByName _) ⟨rfl, rfl⟩

/-- An enrolment looks the name up, and goes on when the caller has proved to be the gateway. -/
theorem register_enrolment {draw : GatewayService.Draw} {req : RegisterGatewayRequest}
    : Enrolment state presentedAuth req.name db
        (GatewayService.register state draw req presentedAuth) := by
  unfold GatewayService.register
  dsimp only
  split
  · exact .settled trivial
  · refine .looksUp _ ?_ ?_
    · intro existing proved
      rw [if_neg (by simp [proved])]
      refine Enrolling.seq networkFor_enrols ?_
      intro networkId
      refine .writes _ _ rfl ?_
      rintro (fault | row)
      · trivial
      · unfold AuditService.record
        exact Program.Along.request rfl (fun _ _ => trivial) (fun _ _ => trivial)
    · intro existing refused
      rw [if_pos (by simp [refused])]
      trivial

/-- Who is let past the check has presented the stored credential. -/
theorem licensed_of_proved
    (proved
      : GatewayService.proved state presentedAuth
          ((db.gateways.find? (·.name == name)).map (fun row => (row.id, row.authTokenHash)))
            = true)
    : Licensed state presentedAuth name db := by
  intro hash stored
  obtain ⟨gateway, found, holds⟩ := Option.bind_eq_some_iff.mp stored
  rw [found, Option.map_some, holds] at proved
  cases presentedAuth with
  | none => cases proved
  | some token => exact ⟨token, rfl, by simpa [GatewayService.proved, constantTimeEq] using proved⟩

/-- What the others do does not matter as long as they store no other credential under the name while
the enrolment is past the check.
-/
theorem Enrolment.later {program : Call Value}
    (enrolment : Enrolment state presentedAuth name db program)
    (undisturbed
      : ∀ statement, program.pending? = some statement → statement.enrols = true
          → Licensed state presentedAuth name db → Licensed state presentedAuth name after)
    : Enrolment state presentedAuth name after program := by
  cases enrolment with
  | looksUp rest goesOn refuses => exact .looksUp rest goesOn refuses
  | licensed licensed enrolling =>
      cases enrolling with
      | asks statement next asks rows rest =>
          exact .licensed (undisturbed statement rfl asks licensed)
            (.asks statement next asks rows rest)
      | writes row next own rest =>
          exact .licensed (undisturbed _ rfl rfl licensed) (.writes row next own rest)
      | ended result => exact .settled trivial
  | settled nobody => exact .settled nobody

/-- The enrolment moves on with the answer that it gets. -/
theorem Enrolment.replied {op : Statement} {next : Except DbError op.Reply → Call Value}
    {reply : op.Reply} (enrolment : Enrolment state presentedAuth name db (.step op next))
    (ran : op.exec db = .ok (reply, after))
    : Enrolment state presentedAuth name after (next (.ok reply)) := by
  generalize isStep : (Program.step op next : Call Value) = program at enrolment
  cases enrolment with
  | looksUp rest goesOn refuses =>
      cases isStep
      cases ran
      cases proved : GatewayService.proved state presentedAuth
          ((db.gateways.find? (·.name == name)).map (fun row => (row.id, row.authTokenHash))) with
      | true => exact .licensed (licensed_of_proved proved) (goesOn _ proved)
      | false => exact .settled (refuses _ proved)
  | licensed licensed enrolling =>
      cases enrolling with
      | asks statement next asks rows rest =>
          cases isStep
          have same : after.credential name = db.credential name := by
            cases op with
            | selectGatewayNetwork | selectNetworkIdByName =>
                cases ran
                rfl
            | upsertGateway => cases rows
            | _ => cases asks
          exact .licensed (fun hash stored => licensed hash (same ▸ stored)) (rest _)
      | writes row next own rest =>
          cases isStep
          exact .settled (rest _)
      | ended result => cases isStep
  | settled nobody =>
      subst isStep
      exact .settled (nobody.2 _ trivial)

/-- The enrolment is told that its statement failed. -/
theorem Enrolment.refused {op : Statement} {next : Except DbError op.Reply → Call Value}
    {fault : DbError} (enrolment : Enrolment state presentedAuth name db (.step op next))
    : Enrolment state presentedAuth name db (next (.error fault)) := by
  generalize isStep : (Program.step op next : Call Value) = program at enrolment
  cases enrolment with
  | looksUp rest goesOn refuses =>
      cases isStep
      exact .settled trivial
  | licensed licensed enrolling =>
      cases enrolling with
      | asks statement next asks rows rest =>
          cases isStep
          exact .licensed licensed (rest _)
      | writes row next own rest =>
          cases isStep
          exact .settled (rest _)
      | ended result => cases isStep
  | settled nobody =>
      subst isStep
      exact .settled (nobody.2 _ trivial)

/-- The row is written by a caller that has presented the credential stored under its name. -/
theorem Enrolment.writes {row : GatewayRow} {next : Except DbError GatewayRow → Call Value}
    (enrolment : Enrolment state presentedAuth name db (.step (.upsertGateway row) next))
    : row.name = name ∧ Licensed state presentedAuth name db := by
  generalize isStep : (.step (.upsertGateway row) next : Call Value) = program
    at enrolment
  cases enrolment with
  | looksUp rest goesOn refuses => cases isStep
  | licensed licensed enrolling =>
      cases enrolling with
      | asks statement next asks rows rest =>
          cases isStep
          cases rows
      | writes other next own rest =>
          cases isStep
          exact ⟨own, licensed⟩
      | ended result => cases isStep
  | settled nobody =>
      subst isStep
      cases nobody.1

end Course

-----------------------------------------------------------------------------------------
-- Enrolments along a run
-----------------------------------------------------------------------------------------

namespace ControlPlane

/-- No credential is stored under a name while another enrolment under that name has been let past the
check and has not written its row, unless it has presented this very credential.
-/
def CredentialUndisturbed (state : AppState) (requests : List Request) (plane : ControlPlane)
    : Turn → Prop
  | .run call =>
      ∀ (statement : Statement) (reply : statement.Reply) (db : Db) (name hash : String),
        plane.Runs call statement → statement.exec plane.state = .ok (reply, db)
        → statement.storesCredential name hash plane.state
        → ∀ (other : Nat) (draw : GatewayService.Draw) (req : RegisterGatewayRequest)
            (presentedAuth : Option String) (pending : Statement), other ≠ call
          → requests[other]? = some (.registerGateway draw req presentedAuth) → req.name = name
          → plane.Runs other pending → pending.enrols = true
          → ∃ token, presentedAuth = some token ∧ state.hashToken token = hash
  | _ => True

/-- How far the enrolments have come. -/
def Enrolments (state : AppState) (requests : List Request) (plane : ControlPlane) : Prop :=
  ∀ (call : Nat) (draw : GatewayService.Draw) (req : RegisterGatewayRequest)
    (presentedAuth : Option String) (program : Call Answer),
    requests[call]? = some (.registerGateway draw req presentedAuth)
      → plane.calls[call]? = some program
      → Enrolment state presentedAuth req.name plane.state program

section Run

variable {state : AppState} {requests : List Request} {plane moved : ControlPlane} {turn : Turn}

/-- Every undisturbed turn keeps the enrolments, by cases on the move. -/
theorem Enrolments.step (enrolments : Enrolments state requests plane)
    (undisturbed : CredentialUndisturbed state requests plane turn)
    (moves : plane.Moves elapse turn moved)
    : Enrolments state requests moved := by
  cases moves with
  | @replied call op next reply db issued ran =>
      intro other draw req presentedAuth program made found
      rcases System.getElem?_set_cases found with ⟨rfl, rfl⟩ | ⟨different, unchanged⟩
      · exact (enrolments other draw req presentedAuth _ made issued).replied ran
      · refine (enrolments other draw req presentedAuth program made unchanged).later ?_
        intro statement pending enrols licensed hash stored
        rcases credential_exec ran stored with old | stores
        · exact licensed hash old
        · refine undisturbed op reply db req.name hash ?_ ran stores other draw req presentedAuth
            statement different made rfl ?_ enrols
          · exact runs_of_issued issued
          · exact (runs_iff unchanged).mpr pending
  | @refused call op next fault issued ran =>
      intro other draw req presentedAuth program made found
      rcases System.getElem?_set_cases found with ⟨rfl, rfl⟩ | ⟨_, unchanged⟩
      · exact (enrolments other draw req presentedAuth _ made issued).refused
      · exact enrolments other draw req presentedAuth program made unchanged
  | @lost call op next issued =>
      intro other draw req presentedAuth program made found
      rcases System.getElem?_set_cases found with ⟨rfl, rfl⟩ | ⟨_, unchanged⟩
      · exact (enrolments other draw req presentedAuth _ made issued).refused
      · exact enrolments other draw req presentedAuth program made unchanged
  | env change =>
      intro other draw req presentedAuth program made found
      exact (enrolments other draw req presentedAuth program made found).later
        (fun _ _ _ licensed => licensed)
  | idle => exact enrolments

/-- No call has begun. -/
theorem start_enrolments {db : Db} : Enrolments state requests (start state requests db) := by
  intro call draw req presentedAuth program made found
  rw [start_calls, made] at found
  obtain rfl := Option.some.inj found
  exact register_enrolment.returning

end Run

/-- Gateways' rows are written by enrolments only. -/
theorem registers_of_sends {requests : List Request} {call : Nat} {row : GatewayRow}
    (sends : Sends requests call (.upsertGateway row))
    : ∃ draw req presentedAuth, requests[call]?
      = some (.registerGateway draw req presentedAuth) := by
  obtain ⟨request, made, issued⟩ := sends
  cases request with
  | registerGateway draw req presentedAuth => exact ⟨draw, req, presentedAuth, made⟩
  | _ =>
      simp [Request.issues, Request.writes, Statement.quiet, revocationWrites, directoryWrites,
        sweepWrites, createWrites] at issued

/-- In an undisturbed run, whenever a call is about to overwrite the row of a gateway that has a
credential, the call has presented that credential.
-/
theorem re_enrolment_proved {state : AppState} {requests : List Request} {db : Db}
    {turns : List Turn}
    (undisturbed
      : (start state requests db).Obeys (CredentialUndisturbed state requests) turns)
    {call : Nat} {row : GatewayRow} {hash : String}
    (runs : ((start state requests db).after turns).Runs call (.upsertGateway row))
    (held : ((start state requests db).after turns).state.credential row.name = some hash)
    : ∃ draw req token, requests[call]? = some (.registerGateway draw req (some token))
        ∧ req.name = row.name ∧ state.hashToken token = hash := by
  have enrolments : Enrolments state requests ((start state requests db).after turns) :=
    System.run_induction elapse
      (fun _ _ _ enrolments undisturbed moves => Enrolments.step enrolments undisturbed moves)
      start_enrolments undisturbed
  have sends : ((start state requests db).after turns).AllAlong (Sends requests)
      (fun _ _ => True) :=
    System.run_induction elapse (fun _ _ _ sends _ moves => System.AllAlong.step sends moves)
      start_sends undisturbed
  obtain ⟨program, found, pending⟩ := Option.bind_eq_some_iff.mp runs
  cases program with
  | done result => cases pending
  | step op next =>
      obtain rfl : op = .upsertGateway row := Option.some.inj pending
      obtain ⟨draw, req, presentedAuth, made⟩ := registers_of_sends (sends call _ found).1
      obtain ⟨own, licensed⟩ := (enrolments call draw req presentedAuth _ made found).writes
      obtain ⟨token, rfl, hashes⟩ := licensed hash (own ▸ held)
      exact ⟨draw, req, token, made, own.symm, hashes⟩

/-- Two callers that know the shared secret enrol under one name, and the second one presents
`presentedAuth`.
-/
def twoEnrolments (presentedAuth : Option String) : List Request :=
  [.registerGateway ⟨30, "first"⟩ ⟨"edge", "key", "edge:51820", some 3, "enrol"⟩ none,
    .registerGateway ⟨31, "second"⟩ ⟨"edge", "other", "elsewhere:51820", some 3, "enrol"⟩
      presentedAuth]

/-- What the second enrolment writes. -/
def takeover : GatewayRow :=
  ⟨31, "edge", "other", "elsewhere:51820", some 3, "enrol", some "second", none, 0⟩

theorem re_enrolment_proved_in_turn
    : ∃ draw req token,
        (twoEnrolments (some "first"))[1]? = some (.registerGateway draw req (some token))
        ∧ req.name = "edge" ∧ smallState.hashToken token = "first" := by
  have undisturbed : (start smallState (twoEnrolments (some "first")) smallInstallation).Obeys
      (CredentialUndisturbed smallState (twoEnrolments (some "first")))
      [.run 0, .run 0, .run 0, .run 1] := by
    refine ⟨?_, ?writes, ?_, ?_, trivial⟩
    case writes =>
      intro statement reply db name hash runs ran stores other draw req presentedAuth pending
        different made own pends enrols
      rcases other with _ | _ | other
      · exact absurd rfl different
      · cases pends
        cases enrols
      · cases made
    all_goals
      intro statement reply db name hash runs ran stores
      cases runs
      cases stores
  exact @re_enrolment_proved _ _ _ _ undisturbed 1 takeover "first" rfl rfl

/-- The second caller looks the name up before the first one has written it. -/
def takenOverPlane : ControlPlane :=
  (start smallState (twoEnrolments none) smallInstallation).after
    [.run 0, .run 1, .run 0]

/-- The second caller is about to overwrite the first one's row and has presented nothing. -/
theorem enrolment_overtaken
    : takenOverPlane.Runs 1 (.upsertGateway takeover)
      ∧ takenOverPlane.state.credential "edge" = some "first"
      ∧ ∃ draw req, (twoEnrolments none)[1]? = some (.registerGateway draw req none) :=
  ⟨rfl, rfl, _, _, rfl⟩

end ControlPlane

end WslVpn
