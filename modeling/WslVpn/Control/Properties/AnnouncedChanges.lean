import WslVpn.Control.Obligations
import WslVpn.Control.Properties.ServedContent

/-! Turns that change what a gateway is served, and what becomes of the bump that is due after them. The
writes of a session and of its revocation owe one; it comes by a later statement, which may be late,
lost, or find no gateway.
-/

namespace WslVpn

open AddressSpace Interleaving

/-- A call that changes the content by a statement that a bump follows is obliged to that bump. -/
theorem obliges_bump {statement bump : Statement} {db after : Db} {reply : statement.Reply}
    {gatewayId : Uuid} (ran : statement.exec db = .ok (reply, after))
    (shifts : statement.Shifts gatewayId db) (bumps : statement.bump = some bump)
    : obliges statement (.ok reply) bump := by
  cases statement with
  | insertPeer row =>
      cases bumps
      exact rfl
  | deletePeersOfSession sessionId =>
      cases bumps
      exact Or.inr rfl
  | updateSessionRevoked sessionId =>
      cases bumps
      cases ran
      refine ⟨?_, Or.inr (Or.inr rfl)⟩
      -- The session of the peer is among those that the statement has counted.
      obtain ⟨peer, served, same⟩ := shifts
      have active : db.sessionActive sessionId = true := by
        have given := (List.mem_filter.mp served).2
        simp only [Bool.and_eq_true] at given
        rw [← show peer.sessionId = sessionId from same]
        exact given.1.2
      exact (List.countP_pos_iff.mpr (List.any_eq_true.mp active)).ne'
  | _ => cases bumps

namespace ControlPlane

section Turns

variable (id : Uuid)

/-- The turn changes what the gateway is served: time passes and the lease of a served peer runs out, or
a statement is executed that shifts it.
-/
def Shifts (plane : ControlPlane) : Turn → Prop
  | .env passed =>
      ∃ peer ∈ plane.state.servedPeers id, peer.expiresAt ≤ plane.state.now + passed
  | .run call =>
      ∃ statement ∈ (plane.calls[call]?).bind Program.pending?,
        (statement.exec plane.state).isOk = true ∧ statement.Shifts id plane.state
  | .lose _ => False

instance (plane : ControlPlane) (turn : Turn) : Decidable (plane.Shifts id turn) :=
  match turn with
  | .env _ => inferInstanceAs (Decidable (∃ peer ∈ plane.state.servedPeers id, _ ≤ _))
  | .run _ => inferInstanceAs (Decidable (∃ statement ∈ _, _ = true ∧ _))
  | .lose _ => inferInstanceAs (Decidable False)

/-- The call has yet to send the bump, and will send it unless one of its statements is lost. -/
def Owes (plane : ControlPlane) (call : Nat) (bump : Statement) : Prop :=
  System.Bound (Replies fun _ => True) (· = bump) plane call

/-- Of the change by the turn after those of `made`, the gateway has been told by the end of `before`:
the statement is one that a bump follows, and the bump has been sent to the gateway since.
-/
structure Announced (start : ControlPlane) (made : List Turn) (turn : Turn) (before : List Turn)
    (writer : Nat) (statement bump : Statement) : Prop where
  run : turn = .run writer
  runs : (start.after made).Runs writer statement
  bumps : statement.bump = some bump
  /-- The bump is not late. -/
  paid : ¬ (start.after before).Owes writer bump
  /-- Nor has it been lost. -/
  kept
    : ∀ moment, made ++ [turn] <+: moment → moment ++ [.lose writer] <+: before
        → ¬ (start.after moment).Owes writer bump
  /-- Nor has it found no gateway. -/
  found
    : ∀ moment, made ++ [turn] <+: moment → moment ++ [.run writer] <+: before
        → (start.after moment).Runs writer bump → bump.Raises id (start.after moment).state

end Turns

section Moves

variable {id : Uuid} {plane after : ControlPlane} {turn : Turn}

/-- What a turn does to the database. -/
inductive Affects (plane : ControlPlane) : Turn → Db → Prop where
  | nothing {turn : Turn} : Affects plane turn plane.state
  | time (passed : Nat) : Affects plane (.env passed) (elapse passed plane.state)
  | statement {call : Nat} {statement : Statement} {reply : statement.Reply} {db : Db}
    (runs : plane.Runs call statement) (ran : statement.exec plane.state = .ok (reply, db))
    : Affects plane (.run call) db

theorem affects_of_moves (moves : plane.Moves elapse turn after)
    : Affects plane turn after.state := by
  cases moves with
  | replied issued ran => exact .statement (runs_of_issued issued) ran
  | env passed => exact .time passed
  | _ => exact .nothing

/-- Time leaves what is served as it is, as long as no lease runs out. -/
theorem served_elapse {db : Db} {passed : Nat}
    (lasting : ¬ ∃ peer ∈ db.servedPeers id, peer.expiresAt ≤ db.now + passed)
    : (elapse passed db).served id = db.served id := by
  have peers : (elapse passed db).servedPeers id = db.servedPeers id := by
    refine List.filter_congr ?_
    intro peer there
    rw [Bool.eq_iff_iff]
    simp only [Bool.and_eq_true, beq_iff_eq, decide_eq_true_eq]
    constructor
    · rintro ⟨given, later⟩
      refine ⟨given, Int.lt_of_le_of_lt ?_ later⟩
      exact Int.le_add_of_nonneg_right (Int.natCast_nonneg passed)
    · rintro ⟨given, now⟩
      refine ⟨given, Int.not_le.mp fun ended => lasting ⟨peer, ?_, ended⟩⟩
      refine List.mem_filter.mpr ⟨there, ?_⟩
      simp only [Bool.and_eq_true, beq_iff_eq, decide_eq_true_eq]
      exact ⟨given, now⟩
  simp only [Db.served, peers]
  rfl

/-- There is no other way for the content to change. -/
theorem shifts_of_changed (refers : plane.state.Refers) (known : plane.state.hasGateway id = true)
    (moves : plane.Moves elapse turn after)
    (changed : after.state.served id ≠ plane.state.served id)
    : Shifts id plane turn := by
  have affects := affects_of_moves moves
  generalize after.state = db at affects changed
  cases affects with
  | nothing => exact absurd rfl changed
  | time passed =>
      by_contra lasting
      exact changed (served_elapse lasting)
  | @statement call statement reply _ runs ran =>
      refine ⟨statement, runs, ?_, ?_⟩
      · rw [ran]
        rfl
      · by_contra unshifted
        exact changed (served_after refers ran known unshifted)

/-- Foreign keys are kept by every turn. -/
theorem refers_of_moves (refers : plane.state.Refers) (moves : plane.Moves elapse turn after)
    : after.state.Refers := by
  have affects := affects_of_moves moves
  generalize after.state = db at affects
  cases affects with
  | nothing => exact refers
  | time => exact ⟨refers.gatewayNetworks, refers.peerSessions⟩
  | statement _ ran => exact refers.step ran

/-- No turn takes a version back. -/
theorem versionOf_of_moves (moves : plane.Moves elapse turn after) {old : Int}
    (stored : plane.state.versionOf id = some old)
    : ∃ new, after.state.versionOf id = some new ∧ old ≤ new := by
  have affects := affects_of_moves moves
  generalize after.state = db at affects
  cases affects with
  | nothing => exact ⟨old, stored, le_rfl⟩
  | time => exact ⟨old, stored, le_rfl⟩
  | statement _ ran =>
      obtain ⟨new, current, grown, _⟩ := versionOf_after ran stored
      exact ⟨new, current, grown⟩

/-- A bump that finds the gateway is executed when its turn comes, and raises the version. -/
theorem versionOf_of_bump {call : Nat} {bump : Statement} (runs : plane.Runs call bump)
    (moves : plane.Moves elapse (.run call) after) (raises : bump.Raises id plane.state) {old : Int}
    (stored : plane.state.versionOf id = some old)
    : ∃ new, after.state.versionOf id = some new ∧ old < new := by
  obtain ⟨program, found, pending⟩ := Option.bind_eq_some_iff.mp runs
  have executed : ∃ (reply : bump.Reply) (db : Db), bump.exec plane.state = .ok (reply, db) := by
    cases bump with
    | bumpGateway | bumpGatewaysOfSession => exact ⟨_, _, rfl⟩
    | _ => exact raises.elim
  obtain ⟨reply, db, executed⟩ := executed
  cases program with
  | done result => cases pending
  | step statement next =>
      cases pending
      obtain rfl := moves.eq_handle
      obtain ⟨new, current, _, grown⟩ := versionOf_after executed stored
      refine ⟨new, ?_, grown raises⟩
      simp only [System.handle, found, Program.advance, executed]
      exact current

end Moves

section Runs

variable {id : Uuid} {start : ControlPlane} {made before past turns : List Turn} {turn : Turn}
  {writer : Nat} {statement bump : Statement}

theorem after_concat
    : start.after (turns ++ [turn]) = System.handle elapse (start.after turns) turn := by
  simp [ControlPlane.after, System.run]

theorem moves_concat
    : System.Moves elapse (start.after turns) turn (start.after (turns ++ [turn])) := by
  rw [after_concat]
  exact System.handle_moves elapse (start.after turns) turn

/-- By induction on the turns since. -/
theorem versionOf_mono {old : Int} (stored : (start.after past).state.versionOf id = some old)
    (within : past <+: turns)
    : ∃ new, (start.after turns).state.versionOf id = some new ∧ old ≤ new := by
  obtain ⟨rest, rfl⟩ := within
  induction rest using List.reverseRecOn with
  | nil =>
      rw [List.append_nil]
      exact ⟨old, stored, le_rfl⟩
  | append_singleton rest turn ih =>
      obtain ⟨middle, reached, least⟩ := ih
      rw [← List.append_assoc]
      obtain ⟨new, current, grown⟩ := versionOf_of_moves moves_concat reached
      exact ⟨new, current, least.trans grown⟩

/-- A bump that is owed stays owed until it is sent, as long as it is not lost. By induction on the turns
since.
-/
theorem owes_or_sent (owes : (start.after made).Owes writer bump)
    (kept
      : ∀ moment, made <+: moment → moment ++ [.lose writer] <+: made ++ turns
          → ¬ (start.after moment).Owes writer bump)
    : (start.after (made ++ turns)).Owes writer bump
      ∨ ∃ moment, made <+: moment ∧ moment ++ [.run writer] <+: made ++ turns
          ∧ (start.after moment).Runs writer bump := by
  induction turns using List.reverseRecOn with
  | nil =>
      rw [List.append_nil]
      exact Or.inl owes
  | append_singleton turns turn ih =>
      have shorter : made ++ turns <+: made ++ (turns ++ [turn]) := by
        rw [← List.append_assoc]
        exact List.prefix_append _ _
      have earlier := ih (fun moment since lost => kept moment since (lost.trans shorter))
      rcases earlier with still | ⟨moment, since, sent, runs⟩
      · have spares : turn = .lose writer → ¬ (start.after (made ++ turns)).Owes writer bump := by
          rintro rfl
          refine kept _ (List.prefix_append _ _) ?_
          rw [List.append_assoc]
        rw [← List.append_assoc] at shorter ⊢
        rcases System.Bound.step still trivial spares moves_concat with
          owes | ⟨_, next, rfl, issued, rfl⟩
        · exact Or.inl owes
        · exact Or.inr ⟨made ++ turns, List.prefix_append _ _, List.prefix_rfl, runs_of_issued issued⟩
      · exact Or.inr ⟨moment, since, sent.trans shorter, runs⟩

/-- The call that changes what is served by a statement that bumps, owes the bump from then on. -/
theorem owes_of_shifts (obliged : (start.after made).AllObliged (Replies fun _ => True) obliges)
    (runs : (start.after made).Runs writer statement) (bumps : statement.bump = some bump)
    (shifts : (start.after made).Shifts id (.run writer))
    : (start.after (made ++ [.run writer])).Owes writer bump := by
  obtain ⟨_, pending, executed, shifts⟩ := shifts
  cases runs.symm.trans pending
  obtain ⟨program, found, pending⟩ := Option.bind_eq_some_iff.mp runs
  cases program with
  | done result => cases pending
  | step statement next =>
      cases pending
      cases ran : statement.exec (start.after made).state with
      | error fault =>
          rw [ran] at executed
          cases executed
      | ok pair =>
          obtain ⟨reply, db⟩ := pair
          rw [after_concat]
          simp only [System.handle, found, Program.advance, ran]
          exact obliged.bound found (obliges_bump ran shifts bumps)

/-- Of a change that has been announced the version tells. -/
theorem Announced.raised
    (announced : Announced id start made turn before writer statement bump)
    (obliged : start.AllObliged (Replies fun _ => True) obliges)
    (shifts : (start.after made).Shifts id turn) (within : made ++ [turn] <+: before) {old : Int}
    (stored : (start.after made).state.versionOf id = some old)
    : ∃ new, (start.after before).state.versionOf id = some new ∧ old < new := by
  obtain ⟨rest, rfl⟩ := within
  obtain rfl := announced.run
  have owes := owes_of_shifts (obliged.run made) announced.runs announced.bumps shifts
  rcases owes_or_sent owes announced.kept with late | ⟨moment, since, sent, runs⟩
  · exact absurd late announced.paid
  · have raises := announced.found moment since sent runs
    obtain ⟨middle, reached, least⟩ :=
      versionOf_mono stored ((List.prefix_append _ _).trans since)
    obtain ⟨raised, bumped, grown⟩ := versionOf_of_bump runs moves_concat raises reached
    obtain ⟨new, current, most⟩ := versionOf_mono bumped sent
    exact ⟨new, current, least.trans_lt (grown.trans_le most)⟩

end Runs

end ControlPlane

end WslVpn
