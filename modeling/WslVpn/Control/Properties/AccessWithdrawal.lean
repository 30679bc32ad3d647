import WslVpn.Control.Obligations

/-! Withdrawing access while sessions are being created. A withdrawal lists the active sessions
once; a creation that has passed its checks inserts its session after that list and is missed.
-/

namespace WslVpn

open AddressSpace Interleaving

/-- Whose access is withdrawn. -/
inductive Target where
  | device (id : Uuid)
  | user (id : Uuid)
  deriving DecidableEq

namespace Target

/-- The session belongs to the device or the user. -/
def Owns : Target → SessionRow → Prop
  | .device id, session => session.deviceId = id
  | .user id, session => session.userId = id

/-- The statement that lists the active sessions. -/
def enumeration : Target → Statement
  | .device id => .selectActiveSessionsOfDevice id
  | .user id => .selectActiveSessionsOfUser id

/-- `DeviceService::revoke` stops early when there is no such device. -/
def Known : Target → Db → Prop
  | .device id, db => db.hasDevice id = true
  | .user _, _ => True

/-- The request withdraws the access. -/
def WithdrawnBy : Target → Request → Prop
  | .device id, request => request = .revokeDevice id
  | .user id, request => ∃ req, request = .updateUser id req ∧ req.active = some false

/-- A withdrawal that has not begun comes to the list of sessions. -/
theorem WithdrawnBy.comes {target : Target} {request : Request} {state : AppState}
    (withdrawn : target.WithdrawnBy request)
    : (request.call state).Comes (Replies target.Known) (· = target.enumeration) := by
  cases target with
  | device id =>
      obtain rfl := withdrawn
      refine Program.Comes.bind ?_
      unfold DeviceService.revoke
      refine Program.Comes.request (fun _ => not_refused rfl) ?_
      intro count given
      have affected : count ≠ 0 := by
        rcases given with ⟨known, ran⟩
        cases ran
        obtain ⟨device, there, same⟩ := List.any_eq_true.mp known
        exact fun none => List.countP_eq_zero.mp none device there same
      rw [if_neg affected]
      exact Program.Comes.bind (Program.Comes.here rfl)
  | user id =>
      obtain ⟨req, rfl, disables⟩ := withdrawn
      refine Program.Comes.bind ?_
      unfold UserService.update
      refine Program.Comes.request (fun _ => not_refused rfl) ?_
      intro row _
      rw [if_pos disables]
      exact Program.Comes.bind (Program.Comes.here rfl)

/-- Every active session of the target is listed, and the call that lists it goes on to end it. -/
theorem Owns.listed {target : Target} {db after : Db} {session : SessionRow}
    {reply : target.enumeration.Reply} (there : session ∈ db.sessions)
    (active : session.status = .active) (owns : target.Owns session)
    (ran : target.enumeration.exec db = .ok (reply, after))
    : obliges target.enumeration (.ok reply) (.updateSessionRevoked session.id) := by
  cases target with
  | device id =>
      cases ran
      refine ⟨session.id, List.mem_map_of_mem (List.mem_filter.mpr ⟨there, ?_⟩), rfl⟩
      simp [active, show session.deviceId = id from owns]
  | user id =>
      cases ran
      refine ⟨session.id, List.mem_map_of_mem (List.mem_filter.mpr ⟨there, ?_⟩), rfl⟩
      simp [active, show session.userId = id from owns]

end Target

namespace ControlPlane

section Step

variable {targets : List Target} {plane after : ControlPlane} {turn : Turn} {session : SessionRow}

/-- Some call is bound to end the session, or to list the sessions of a target that owns it. -/
def Doomed (targets : List Target) (plane : ControlPlane) (session : SessionRow) : Prop :=
  plane.Ahead (Replies fun _ => True) (· = Statement.updateSessionRevoked session.id)
  ∨ ∃ target ∈ targets, target.Owns session
      ∧ plane.Ahead (Replies target.Known) (· = target.enumeration)

/-- The turn inserts a session of a target only while a list of that target's sessions is ahead,
and it loses no statement that has to come to such a list or to the end of a listed session.
-/
def InTime (targets : List Target) (plane : ControlPlane) : Turn → Prop
  | .run call =>
      ∀ row result, plane.Runs call (.insertSession row)
        → (Statement.insertSession row).exec plane.state = .ok result
        → (∃ target ∈ targets, target.Owns row) → plane.Doomed targets row
  | .lose call =>
      (∀ session ∈ plane.state.sessions,
        plane.Spares (Replies fun _ => True) (· = Statement.updateSessionRevoked session.id)
          (.lose call : Turn))
      ∧ ∀ target ∈ targets,
          plane.Spares (Replies target.Known) (· = target.enumeration) (.lose call : Turn)
  | .env _ => True

/-- Active sessions of a target are bound to end, and sessions belong to devices. -/
structure Withdrawing (targets : List Target) (plane : ControlPlane) : Prop where
  doomed
    : ∀ session ∈ plane.state.sessions, session.status = .active
        → (∃ target ∈ targets, target.Owns session) → plane.Doomed targets session
  devices : ∀ session ∈ plane.state.sessions, plane.state.hasDevice session.deviceId = true

/-- It is the identifier, the device and the user of a session that doom it. -/
theorem Doomed.of_same {old : SessionRow} (id : session.id = old.id)
    (deviceId : session.deviceId = old.deviceId) (userId : session.userId = old.userId)
    (doomed : plane.Doomed targets old)
    : plane.Doomed targets session := by
  rcases doomed with ends | ⟨target, listed, owns, enumerates⟩
  · exact Or.inl (id ▸ ends)
  · refine Or.inr ⟨target, listed, ?_, enumerates⟩
    cases target with
    | device _ => exact deviceId.trans owns
    | user _ => exact userId.trans owns

/-- A session that is doomed stays so, or the turn runs a statement that dooms it. -/
theorem Doomed.step (doomed : plane.Doomed targets session)
    (known : plane.state.hasDevice session.deviceId = true)
    (spares
      : plane.Spares (Replies fun _ => True) (· = Statement.updateSessionRevoked session.id) turn
        ∧ ∀ target ∈ targets,
            plane.Spares (Replies target.Known) (· = target.enumeration) turn)
    (moves : plane.Moves elapse turn after)
    : after.Doomed targets session
      ∨ ∃ call op next, turn = .run call ∧ plane.calls[call]? = some (.step op next)
          ∧ (op = .updateSessionRevoked session.id
            ∨ ∃ target ∈ targets, target.Owns session ∧ op = target.enumeration) := by
  rcases doomed with ends | ⟨target, listed, owns, enumerates⟩
  · rcases System.Ahead.step ends trivial spares.1 moves with
      ahead | ⟨call, op, next, same, issued, isEnd⟩
    · exact Or.inl (Or.inl ahead)
    · exact Or.inr ⟨call, op, next, same, issued, Or.inl isEnd⟩
  · have known : target.Known plane.state := by
      cases target with
      | device id =>
          obtain rfl : session.deviceId = id := owns
          exact known
      | user id => trivial
    rcases System.Ahead.step enumerates known (spares.2 target listed) moves with
      ahead | ⟨call, op, next, same, issued, isList⟩
    · exact Or.inl (Or.inr ⟨target, listed, owns, ahead⟩)
    · exact Or.inr ⟨call, op, next, same, issued, Or.inr ⟨target, listed, owns, isList⟩⟩

/-- A statement that has been answered leaves the sessions of the targets doomed. -/
theorem Withdrawing.replied (withdrawing : plane.Withdrawing targets)
    (obliged : plane.AllObliged (Replies fun _ => True) obliges)
    {call : Nat} {op : Statement} {next : Except DbError op.Reply → Call Answer} {reply : op.Reply}
    {db : Db} (issued : plane.calls[call]? = some (.step op next))
    (ran : op.exec plane.state = .ok (reply, db)) (kept : ∀ user, op ≠ .deleteUser user)
    (inTime : plane.InTime targets (.run call))
    : ControlPlane.Withdrawing targets ⟨db, plane.calls.set call (next (.ok reply))⟩ := by
  have moves : plane.Moves elapse (.run call) ⟨db, plane.calls.set call (next (.ok reply))⟩ :=
    .replied issued ran
  have devices : ∀ {id}, plane.state.hasDevice id = true → db.hasDevice id = true :=
    fun known => Statement.hasDevice_after ran kept known
  refine ⟨?_, ?_⟩
  · intro session there active targeted
    rcases Statement.session_before ran kept there with ⟨old, member, ages⟩ | ⟨row, rfl, rfl⟩
    · have same : ∀ {target : Target}, target.Owns session ↔ target.Owns old := by
        intro target
        cases target <;> simp only [Target.Owns, ages.deviceId, ages.userId]
      obtain ⟨wasActive, goesOn⟩ := ages.active.mp active
      obtain ⟨target, listed, owns⟩ := targeted
      have doomed := withdrawing.doomed old member wasActive ⟨target, listed, same.mp owns⟩
      have known := withdrawing.devices old member
      rcases doomed.step known ⟨System.Spares.run, fun _ _ => System.Spares.run⟩ moves with
        still | ⟨_, op', next', here, issued', ends | ⟨target, listed, owns, rfl⟩⟩
      · exact still.of_same ages.id ages.deviceId ages.userId
      · -- The statement ends the session, which is active after it.
        cases here
        cases issued.symm.trans issued'
        exact absurd (Or.inl ends) goesOn
      · cases here
        cases issued.symm.trans issued'
        rw [Doomed, ages.id]
        exact Or.inl (obliged.ahead issued (owns.listed member wasActive ran))
    · obtain ⟨target, listed, owns⟩ := targeted
      have owns : target.Owns row := by cases target <;> exact owns
      have doomed := inTime row (reply, db) (runs_of_issued issued) ran ⟨target, listed, owns⟩
      have known := (Statement.insertSession_ok ran).2.1.2.1
      rcases doomed.step known ⟨System.Spares.run, fun _ _ => System.Spares.run⟩ moves with
        still | ⟨_, op', next', here, issued', ends | ⟨target, _, _, enumerates⟩⟩
      · exact @Doomed.of_same targets _ { row with createdAt := plane.state.now } row rfl rfl rfl
          still
      · cases here
        cases issued.symm.trans issued'
        cases ends
      · cases here
        cases issued.symm.trans issued'
        cases target <;> cases enumerates
  · intro session there
    rcases Statement.session_before ran kept there with ⟨old, member, ages⟩ | ⟨row, rfl, rfl⟩
    · rw [ages.deviceId]
      exact devices (withdrawing.devices old member)
    · exact devices (Statement.insertSession_ok ran).2.1.2.1

/-- Every turn leaves the sessions of the targets doomed, by cases on the move. -/
theorem Withdrawing.step (withdrawing : plane.Withdrawing targets)
    (obliged : plane.AllObliged (Replies fun _ => True) obliges)
    (kept
      : ∀ (call : Nat) (op : Statement) (next : Except DbError op.Reply → Call Answer),
          plane.calls[call]? = some (.step op next) → ∀ user, op ≠ .deleteUser user)
    (inTime : plane.InTime targets turn) (moves : plane.Moves elapse turn after)
    : after.Withdrawing targets := by
  -- Where no session changes, nothing is ended or listed either.
  have still
      : after.state.sessions = plane.state.sessions → after.state.devices = plane.state.devices
        → (∀ session ∈ plane.state.sessions, plane.Doomed targets session
            → after.Doomed targets session)
        → after.Withdrawing targets := by
    intro sessions devices stays
    refine ⟨?_, ?_⟩
    · intro session there active targeted
      rw [sessions] at there
      exact stays session there (withdrawing.doomed session there active targeted)
    · intro session there
      rw [sessions] at there
      rw [Db.hasDevice, devices]
      exact withdrawing.devices session there
  cases moves with
  | @replied call op next reply db issued ran =>
      exact withdrawing.replied obliged issued ran (kept call op next issued) inTime
  | @refused call op next fault issued ran =>
      have moves : plane.Moves elapse (.run call) _ := .refused issued ran
      refine still rfl rfl ?_
      intro session there doomed
      rcases doomed.step (withdrawing.devices session there)
        ⟨System.Spares.run, fun _ _ => System.Spares.run⟩ moves with
        doomed | ⟨_, op', _, same, issued', ends | ⟨target, _, _, enumerates⟩⟩
      · exact doomed
      · cases same
        cases issued.symm.trans issued'
        subst ends
        cases ran
      · cases same
        cases issued.symm.trans issued'
        cases target <;> subst enumerates <;> cases ran
  | @lost call op next issued =>
      have moves : plane.Moves elapse (.lose call) _ := .lost issued
      refine still rfl rfl ?_
      intro session there doomed
      rcases doomed.step (withdrawing.devices session there)
        ⟨inTime.1 session there, inTime.2⟩ moves with doomed | ⟨_, _, _, same, _⟩
      · exact doomed
      · cases same
  | env change => exact still rfl rfl (fun _ _ doomed => doomed)
  | idle => exact withdrawing

end Step

/-- Once all calls have returned, no active session belongs to a target, provided that sessions
are inserted in time; the induction is on the schedule.
-/
theorem no_session_of_withdrawn {state : AppState} {requests : List Request} {db : Db}
    {targets : List Target} {turns : List Turn}
    (withdrawn : ∀ target ∈ targets, ∃ request ∈ requests, target.WithdrawnBy request)
    (deletes : ∀ id, .deleteUser id ∉ requests)
    (devices : ∀ session ∈ db.sessions, db.hasDevice session.deviceId = true)
    (inTime : (start state requests db).Obeys (InTime targets) turns)
    (returned : ((start state requests db).after turns).AllReturned)
    : ∀ session ∈ ((start state requests db).after turns).state.sessions,
        session.status = .active → ∀ target ∈ targets, ¬ target.Owns session := by
  have initial : (start state requests db).Withdrawing targets
      ∧ (start state requests db).AllObliged (Replies fun _ => True) obliges
      ∧ (start state requests db).AllAlong (Sends requests) (fun _ _ => True) := by
    refine ⟨⟨?_, devices⟩, start_obliged, start_sends⟩
    intro session there active given
    obtain ⟨target, listed, owns⟩ := given
    obtain ⟨request, member, withdraws⟩ := withdrawn target listed
    obtain ⟨call, made⟩ := List.mem_iff_getElem?.mp member
    refine Or.inr ⟨target, listed, owns, call, request.call state, ?_, withdraws.comes⟩
    rw [start_calls, made]
    rfl
  have preserved : ∀ (plane : ControlPlane) turn after,
      plane.Withdrawing targets ∧ plane.AllObliged (Replies fun _ => True) obliges
          ∧ plane.AllAlong (Sends requests) (fun _ _ => True)
        → plane.InTime targets turn → plane.Moves elapse turn after
        → ControlPlane.Withdrawing targets after
          ∧ after.AllObliged (Replies fun _ => True) obliges
          ∧ after.AllAlong (Sends requests) (fun _ _ => True) := by
    intro plane turn after given inTime moves
    obtain ⟨withdrawing, obliged, sends⟩ := given
    have kept : ∀ (call : Nat) (op : Statement) (next : Except DbError op.Reply → Call Answer),
        plane.calls[call]? = some (.step op next) → ∀ user, op ≠ .deleteUser user :=
      fun call op next issued => (sends call _ issued).1.kept deletes
    exact ⟨withdrawing.step obliged kept inTime moves, obliged.step moves, sends.step moves⟩
  intro session there active target listed owns
  have final := (System.run_induction elapse preserved initial inTime).1
  rcases final.doomed session there active ⟨target, listed, owns⟩ with ahead | ⟨_, _, _, ahead⟩
  · exact System.not_ahead returned ahead
  · exact System.not_ahead returned ahead

/-- A creation beside the revocation of its device and the disabling of its user. -/
def withdrawals : List Request :=
  [.createSession ⟨6, 7⟩ 1 "ada@example.com" ⟨3, 2, []⟩, .revokeDevice 2,
    .updateUser 1 ⟨none, some false, none⟩]

/-- The session is created first, and both withdrawals run after it. -/
def timelyTurns : List Turn :=
  List.replicate 17 (.run 0) ++ List.replicate 6 (.run 1) ++ List.replicate 2 (.run 2)

def timelyPlane : ControlPlane :=
  (start smallState withdrawals smallInstallation).after timelyTurns

/-- A session that is created before the withdrawals list it is ended by them. -/
theorem no_session_of_withdrawn_timely
    : timelyPlane.AllReturned
      ∧ ∀ session ∈ timelyPlane.state.sessions, session.status = .active
          → ∀ target ∈ [Target.device 2, Target.user 1], ¬ target.Owns session := by
  have withdrawn : ∀ target ∈ [Target.device 2, Target.user 1],
      ∃ request ∈ withdrawals, target.WithdrawnBy request := by
    intro target listed
    rcases List.mem_cons.mp listed with rfl | listed
    · exact ⟨.revokeDevice 2, by simp [withdrawals], rfl⟩
    · cases List.mem_singleton.mp listed
      exact ⟨.updateUser 1 ⟨none, some false, none⟩, by simp [withdrawals], _, rfl, rfl⟩
  have inTime : (start smallState withdrawals smallInstallation).Obeys
      (InTime [Target.device 2, Target.user 1]) timelyTurns := by
    -- At the insert of the session the revocation of its device has yet to begin.
    refine ⟨?_, ?_, ?_, ?_, ?_, ?_, ?_, ?insert, ?_, ?_, ?_, ?_, ?_, ?_, ?_, ?_, ?_, ?_, ?_, ?_, ?_,
      ?_, ?_, ?_, ?_, trivial⟩
    case insert =>
      intro row result runs _ _
      cases runs
      refine Or.inr ⟨.device 2, List.mem_cons_self, rfl, 1, _, rfl, ?_⟩
      exact Target.WithdrawnBy.comes rfl
    all_goals
      intro row result runs
      cases runs
  have returned : timelyPlane.AllReturned := by
    intro call program found
    rcases call with _ | _ | _ | call <;> cases found <;> exact ⟨_, rfl⟩
  refine ⟨returned, no_session_of_withdrawn withdrawn ?_ ?_ inTime returned⟩
  · simp [withdrawals]
  · intro session there
    cases there

/-- The creation has read its device, then both withdrawals run, then the creation goes on. -/
def latePlane : ControlPlane :=
  (start smallState withdrawals smallInstallation).after
    ([.run 0] ++ List.replicate 2 (.run 1) ++ List.replicate 2 (.run 2) ++ List.replicate 16 (.run 0))

/-- A creation that both withdrawals have missed leaves an active session. -/
theorem late_session_of_withdrawn
    : latePlane.AllReturned
      ∧ ∃ session ∈ latePlane.state.sessions, session.status = .active
          ∧ (Target.device 2).Owns session ∧ (Target.user 1).Owns session := by
  refine ⟨?_, _, List.mem_cons_self, rfl, rfl, rfl⟩
  intro call program found
  rcases call with _ | _ | _ | call <;> cases found <;> exact ⟨_, rfl⟩

end ControlPlane

end WslVpn
