import WslVpn.Interleaving.Contracts
import WslVpn.Control.Traffic

/-! Ending sessions, one after another. The statements that dismantle a session are sent only once
that session has ended, which no other call takes back.
-/

namespace WslVpn

open AddressSpace Interleaving

/-- The statement takes down what an ended session has left. -/
def Statement.dismantles (sessionId : Uuid) (statement : Statement) : Prop :=
  statement = .deletePeersOfSession sessionId ∨ statement = .deleteAllocationsOfSession sessionId
  ∨ statement = .bumpGatewaysOfSession sessionId

/-- What holds between the statements of a revocation, and that they are as the contract asks. -/
structure Dismantling (contract : Contract sql) (call : Nat) where
  ended : Uuid → Db → Prop
  ended_later : ∀ {id db now}, contract.later call db now → ended id db → ended id now
  lists
    : ∀ {statement db},
        (∃ id, statement = .selectActiveSessionsOfUser id ∨ statement = .selectActiveSessionsOfDevice id
          ∨ statement = .updateDeviceRevoked id ∨ ∃ req, statement = .updateUser id req)
        → contract.asserts call statement db
  update
    : ∀ {id db},
        contract.possible db → contract.may (.updateSessionRevoked id) db
          → contract.asserts call (.updateSessionRevoked id) db
            ∧ ∀ (count : Nat) after,
                (Statement.updateSessionRevoked id).exec db = .ok (count, after) → count ≠ 0
                  → ended id after
  dismantle
    : ∀ {id statement db},
        Statement.dismantles id statement → contract.possible db → contract.may statement db
          → ended id db
          → contract.asserts call statement db
            ∧ ∀ reply after, statement.exec db = .ok (reply, after) → ended id after

namespace Dismantling

variable {contract : Contract sql} {call : Nat} {db : Db} {id : Uuid}

/-- One of the statements that dismantle an ended session. -/
theorem dismantling (stages : Dismantling contract call) {Value : Type} {statement : Statement}
    {rest : statement.Reply → Call Value} {post : Value → Db → Prop}
    (dismantles : statement.dismantles id) (ended : stages.ended id db)
    (goesOn : ∀ reply after, stages.ended id after → (rest reply).Keeps contract call post after)
    : (query statement >>= rest).Keeps contract call post db := by
  refine Program.Keeps.request ?_
  intro now later possible may
  obtain ⟨asserted, still⟩ :=
    stages.dismantle dismantles possible may (stages.ended_later later ended)
  refine ⟨asserted, ?_⟩
  intro reply after ran _
  exact goesOn reply after (still reply after ran)

theorem revoke_keeps (stages : Dismantling contract call)
    : (SessionService.revoke id).Keeps contract call (fun _ _ => True) db := by
  unfold SessionService.revoke
  refine Program.Keeps.request ?_
  intro now _ possible may
  obtain ⟨asserted, ends⟩ := stages.update possible may
  refine ⟨asserted, ?_⟩
  intro count after ran _
  split
  · exact fun _ _ _ => trivial
  · rename_i affected
    unfold SessionService.dismantle
    rw [IpamService.releaseSession_bind]
    refine stages.dismantling (Or.inl rfl) (ends count after ran affected) ?_
    intro _ now ended
    refine stages.dismantling (Or.inr (Or.inl rfl)) ended ?_
    intro _ now ended
    refine stages.dismantling (Or.inr (Or.inr rfl)) ended ?_
    exact fun _ _ _ _ _ _ => trivial

/-- The loop over the listed sessions, by induction on the list. -/
theorem revokeEach_keeps (stages : Dismantling contract call) {sessions : List Uuid}
    (possible : contract.possible db)
    : (SessionService.revokeEach sessions).Keeps contract call (fun _ _ => True) db := by
  induction sessions generalizing db with
  | nil => exact fun _ _ _ => trivial
  | cons id rest ih =>
      exact Program.Keeps.bind possible stages.revoke_keeps (fun _ _ possible _ => ih possible)

/-- A statement before the loop. -/
theorem listing (stages : Dismantling contract call) {Value : Type} {statement : Statement}
    {rest : statement.Reply → Call Value} {post : Value → Db → Prop}
    (lists
      : ∃ id, statement = .selectActiveSessionsOfUser id
        ∨ statement = .selectActiveSessionsOfDevice id
          ∨ statement = .updateDeviceRevoked id ∨ ∃ req, statement = .updateUser id req)
    (goesOn : ∀ reply after, contract.possible after → (rest reply).Keeps contract call post after)
    : (query statement >>= rest).Keeps contract call post db := by
  refine Program.Keeps.request ?_
  intro now _ _ _
  exact ⟨stages.lists lists, fun reply after _ possible => goesOn reply after possible⟩

/-- The requests that end sessions, except the deletion of a user, are as the contract asks. -/
theorem call_keeps (stages : Dismantling contract call) {state : AppState} {request : Request}
    (ends
      : ∃ id, request = .revokeSession id ∨ request = .revokeDevice id
          ∨ ∃ req, request = .updateUser id req)
    (possible : contract.possible db)
    : (request.call state).Keeps contract call (fun _ _ => True) db := by
  obtain ⟨id, rfl | rfl | ⟨req, rfl⟩⟩ := ends
  · exact Program.Keeps.returning possible stages.revoke_keeps
  · refine Program.Keeps.returning possible ?_
    unfold DeviceService.revoke SessionService.revokeDeviceSessions
    refine stages.listing ⟨id, Or.inr (Or.inr (Or.inl rfl))⟩ ?_
    intro count now possible
    split
    · exact fun _ _ _ => trivial
    · refine Program.Keeps.returning possible ?_
      refine stages.listing ⟨id, Or.inr (Or.inl rfl)⟩ ?_
      exact fun _ _ possible => stages.revokeEach_keeps possible
  · refine Program.Keeps.returning possible ?_
    unfold UserService.update SessionService.revokeUserSessions
    refine stages.listing ⟨id, Or.inr (Or.inr (Or.inr ⟨req, rfl⟩))⟩ ?_
    intro row now possible
    split
    · refine Program.Keeps.returning possible ?_
      refine stages.listing ⟨id, Or.inl rfl⟩ ?_
      exact fun _ _ possible => stages.revokeEach_keeps possible
    · exact fun _ _ _ => trivial

end Dismantling

end WslVpn
