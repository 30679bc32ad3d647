import WslVpn.Control.Obligations

/-! Addresses that come back to their pool. Three ways end a session and only one of them releases
its address: a revocation does, the sweep of lapsed sessions and the deletion of a user do not.
-/

namespace WslVpn

open AddressSpace Interleaving

/-- No allocation refers to the session. -/
def Db.Free (db : Db) (sessionId : Uuid) : Prop :=
  ∀ row ∈ db.ipamAllocations, row.sessionId ≠ some sessionId

namespace ControlPlane

/-- A revocation is under way that still has the release of the session's address ahead. -/
def Releasing (plane : ControlPlane) (sessionId : Uuid) : Prop :=
  plane.Ahead (Replies fun _ => True) (· = Statement.deleteAllocationsOfSession sessionId)

/-- Every allocation refers to an active session, or to one whose revocation is under way. -/
def Leakless (plane : ControlPlane) : Prop :=
  ∀ row ∈ plane.state.ipamAllocations, ∃ sessionId, row.sessionId = some sessionId
    ∧ (plane.state.sessionActive sessionId = true ∨ plane.Releasing sessionId)

/-- The statement strands no address: it allocates to a session that is active, or still to be
released, and a session that it sweeps or deletes has no address.
-/
def strandsNothing (plane : ControlPlane) : Statement → Prop
  | .insertAllocation row =>
      ∃ sessionId, row.sessionId = some sessionId
        ∧ (plane.state.sessionActive sessionId = true ∨ plane.Releasing sessionId)
  | .expireSessions gatewayId =>
      ∀ session ∈ plane.state.sessions, plane.state.lapsed gatewayId session = true
        → plane.state.Free session.id
  | .deleteUser user =>
      plane.state.hasUser user = true →
        ∀ sessionId, Statement.goesWithUser plane.state user sessionId = true
          → plane.state.Free sessionId
  | _ => True

/-- The turn strands no address: what it runs does not, and what it loses is not the release of a
session that has one.
-/
def StrandsNothing (plane : ControlPlane) : Turn → Prop
  | .run call =>
      ∀ statement result, plane.Runs call statement → statement.exec plane.state = .ok result
        → plane.strandsNothing statement
  | .lose call =>
      ∀ program sessionId, plane.calls[call]? = some program
        → program.Comes (Replies fun _ => True) (· = Statement.deleteAllocationsOfSession sessionId)
        → plane.state.Free sessionId
  | .env _ => True

section Step

variable {plane after : ControlPlane} {turn : Turn} {row : AllocationRow} {sessionId : Uuid}

/-- The turn does not lose the release of an address that is there. -/
theorem StrandsNothing.spares (strands : plane.StrandsNothing turn)
    (there : ¬ plane.state.Free sessionId)
    : plane.Spares (Replies fun _ => True)
        (· = Statement.deleteAllocationsOfSession sessionId) turn := by
  rintro call program rfl found comes
  exact there (strands program sessionId found comes)

/-- A release stays ahead until it is sent. -/
theorem Releasing.step (releasing : plane.Releasing sessionId)
    (spares
      : plane.Spares (Replies fun _ => True)
          (· = Statement.deleteAllocationsOfSession sessionId) turn)
    (moves : plane.Moves elapse turn after)
    : after.Releasing sessionId
      ∨ ∃ call next, turn = .run call
          ∧ plane.calls[call]? = some (.step (.deleteAllocationsOfSession sessionId) next) := by
  rcases System.Ahead.step releasing trivial spares moves with
    ahead | ⟨call, op, next, same, issued, rfl⟩
  · exact Or.inl ahead
  · exact Or.inr ⟨call, next, same, issued⟩

/-- A statement that has been answered leaves an allocation with an owner. -/
theorem Leakless.replied (leakless : plane.Leakless)
    (obliged : plane.AllObliged (Replies fun _ => True) obliges)
    {call : Nat} {op : Statement} {next : Except DbError op.Reply → Call Answer} {reply : op.Reply}
    {db : Db} (issued : plane.calls[call]? = some (.step op next))
    (ran : op.exec plane.state = .ok (reply, db)) (strands : plane.StrandsNothing (.run call))
    : ControlPlane.Leakless ⟨db, plane.calls.set call (next (.ok reply))⟩ := by
  have moves : plane.Moves elapse (.run call) ⟨db, plane.calls.set call (next (.ok reply))⟩ :=
    .replied issued ran
  have harmless : plane.strandsNothing op := strands op (reply, db) (runs_of_issued issued) ran
  intro row there
  -- Who owned the address before: the row is an old one, or the call has just got it.
  obtain ⟨sessionId, refers, owned, kept⟩ : ∃ sessionId, row.sessionId = some sessionId
      ∧ (plane.state.sessionActive sessionId = true ∨ plane.Releasing sessionId)
      ∧ ((¬ plane.state.Free sessionId ∧ op ≠ .deleteAllocationsOfSession sessionId)
        ∨ op = .insertAllocation row) := by
    rcases Statement.allocation_before ran there with
      ⟨old, unreleased⟩ | rfl | ⟨user, rfl, known, old, member, sessionId, refers, goes⟩
    · obtain ⟨sessionId, refers, owned⟩ := leakless row old
      refine ⟨sessionId, refers, owned, Or.inl ⟨fun free => free row old refers, ?_⟩⟩
      exact fun same => unreleased sessionId same refers
    · obtain ⟨sessionId, refers, owned⟩ := harmless
      exact ⟨sessionId, refers, owned, Or.inr rfl⟩
    · exact absurd refers (harmless known sessionId goes old member)
  refine ⟨sessionId, refers, ?_⟩
  rcases owned with active | releasing
  · rcases Statement.active_after ran active with
      still | ⟨session, member, same, isActive, ends⟩ | ⟨user, rfl, known, goes⟩
    · exact Or.inl still
    · subst same
      rcases ends with rfl | ⟨gatewayId, rfl, lapsed⟩
      · -- The call that has ended the session is obliged to release its address.
        refine Or.inr (obliged.ahead issued ⟨?_, Or.inr (Or.inl rfl)⟩)
        cases ran
        intro none
        have := List.countP_eq_zero.mp none session member
        exact this (by simp [Db.isActiveSession, isActive])
      · rcases kept with ⟨there, _⟩ | ⟨⟨⟩⟩
        exact absurd (harmless session member lapsed) there
    · rcases kept with ⟨there, _⟩ | ⟨⟨⟩⟩
      exact absurd (harmless known sessionId goes) there
  · rcases releasing.step System.Spares.run moves with
      ahead | ⟨_, _, same, release⟩
    · exact Or.inr ahead
    · cases same
      cases issued.symm.trans release
      rcases kept with ⟨_, other⟩ | ⟨⟨⟩⟩
      exact absurd rfl other

/-- Every turn leaves every allocation with an owner, by cases on the move. -/
theorem Leakless.step (leakless : plane.Leakless)
    (obliged : plane.AllObliged (Replies fun _ => True) obliges)
    (strands : plane.StrandsNothing turn) (moves : plane.Moves elapse turn after)
    : after.Leakless := by
  -- Where the database stays as it is, a release that is ahead stays ahead.
  have still
      : after.state.ipamAllocations = plane.state.ipamAllocations
        → after.state.sessions = plane.state.sessions
        → (∀ sessionId, ¬ plane.state.Free sessionId → plane.Releasing sessionId
            → after.Releasing sessionId)
        → after.Leakless := by
    intro allocations sessions stays row there
    rw [allocations] at there
    obtain ⟨sessionId, refers, owned⟩ := leakless row there
    refine ⟨sessionId, refers, ?_⟩
    rcases owned with active | releasing
    · rw [Db.sessionActive, sessions]
      exact Or.inl active
    · exact Or.inr (stays sessionId (fun free => free row there refers) releasing)
  cases moves with
  | replied issued ran => exact leakless.replied obliged issued ran strands
  | @refused call op next fault issued ran =>
      have moves : plane.Moves elapse (.run call) _ := .refused issued ran
      refine still rfl rfl ?_
      intro sessionId _ releasing
      rcases releasing.step System.Spares.run moves with
        ahead | ⟨_, _, same, release⟩
      · exact ahead
      · cases same
        cases issued.symm.trans release
        have given : Replies (fun _ => True) (.deleteAllocationsOfSession sessionId)
            (.error fault) :=
          .refusal trivial ran
        exact absurd given (not_refused rfl)
  | @lost call op next issued =>
      have moves : plane.Moves elapse (.lose call) _ := .lost issued
      refine still rfl rfl ?_
      intro sessionId there releasing
      rcases releasing.step (strands.spares there) moves with ahead | ⟨_, _, same, _⟩
      · exact ahead
      · cases same
  | env change => exact still rfl rfl (fun _ _ releasing => releasing)
  | idle => exact leakless

end Step

/-- In every run that strands nothing, every allocation refers to an active session, or to one
whose revocation still has the release ahead; the induction is on the schedule.
-/
theorem allocations_owned {state : AppState} {requests : List Request} {db : Db}
    {turns : List Turn}
    (start
      : ∀ row ∈ db.ipamAllocations, ∃ sessionId, row.sessionId = some sessionId
          ∧ db.sessionActive sessionId = true)
    (strands : (ControlPlane.start state requests db).Obeys StrandsNothing turns)
    : ((ControlPlane.start state requests db).after turns).Leakless := by
  have initial : (ControlPlane.start state requests db).Leakless
      ∧ (ControlPlane.start state requests db).AllObliged (Replies fun _ => True) obliges := by
    refine ⟨?_, ?_⟩
    · intro row there
      obtain ⟨sessionId, refers, active⟩ := start row there
      exact ⟨sessionId, refers, Or.inl active⟩
    · exact start_obliged
  have preserved : ∀ (plane : ControlPlane) turn after,
      plane.Leakless ∧ plane.AllObliged (Replies fun _ => True) obliges → plane.StrandsNothing turn
        → plane.Moves elapse turn after
        → ControlPlane.Leakless after ∧ after.AllObliged (Replies fun _ => True) obliges := by
    intro plane turn after given strands moves
    obtain ⟨leakless, obliged⟩ := given
    exact ⟨leakless.step obliged strands moves, obliged.step moves⟩
  exact (System.run_induction elapse preserved initial strands).1

/-- One session, and one call beside its creation. -/
def sessionAnd (other : Request) : ControlPlane :=
  start smallState [.createSession ⟨6, 7⟩ 1 "ada@example.com" ⟨3, 2, []⟩, other] smallInstallation

/-- A session that is created and revoked. -/
theorem allocations_owned_revoked
    : ((sessionAnd (.revokeSession 6)).after
        (List.replicate 17 (.run 0) ++ List.replicate 4 (.run 1))).Leakless := by
  have strands : (sessionAnd (.revokeSession 6)).Obeys StrandsNothing
      (List.replicate 17 (.run 0) ++ List.replicate 4 (.run 1)) := by
    -- Only the allocation has anything to check.
    refine ⟨?_, ?_, ?_, ?_, ?_, ?_, ?_, ?_, ?_, ?_, ?allocation, ?_, ?_, ?_, ?_, ?_, ?_, ?_, ?_, ?_,
      ?_, trivial⟩
    case allocation =>
      intro statement result runs _
      cases runs
      exact ⟨6, rfl, Or.inl rfl⟩
    all_goals
      intro statement result runs _
      cases runs
      trivial
  refine allocations_owned ?_ strands
  intro row there
  cases there

/-- A session has been created and has lapsed, and the gateway has been served since. -/
def sweptPlane : ControlPlane :=
  (sessionAnd (.gatewayConfig 4)).after
    (List.replicate 17 (.run 0) ++ [.env 3601000000] ++ List.replicate 8 (.run 1))

/-- The address of the swept session stays allocated: no call is left to release it. -/
theorem swept_session_keeps_address
    : sweptPlane.AllReturned
      ∧ sweptPlane.state.ipamAllocations.map (·.sessionId) = [some 6]
      ∧ sweptPlane.state.sessionActive 6 = false
      ∧ ¬ sweptPlane.Leakless := by
  have returned : sweptPlane.AllReturned := by
    intro call program found
    rcases call with _ | _ | call
    · cases found
      exact ⟨_, rfl⟩
    · cases found
      exact ⟨_, rfl⟩
    · cases found
  refine ⟨returned, rfl, rfl, ?_⟩
  intro leakless
  obtain ⟨sessionId, refers, active | releasing⟩ := leakless _ List.mem_cons_self
  · cases refers
    cases active
  · exact System.not_ahead returned releasing

end ControlPlane

end WslVpn
