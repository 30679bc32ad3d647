import WslVpn.Control.Effects
import WslVpn.Gateway.Enrollment
import WslVpn.Gateway.Properties.AppliedVersion
import WslVpn.Interleaving.Runs

/-! When the gateway gives up a stored enrollment. It discards the file because of the credential that
it holds in memory, and the file may hold another one by then.
-/

namespace WslVpn

open Interleaving

-----------------------------------------------------------------------------------------
-- Credentials that are accepted
-----------------------------------------------------------------------------------------

/-- The control plane would let a heartbeat with this enrollment in. -/
def Enrollment.Accepted (state : AppState) (db : Db) (enrollment : Enrollment) : Prop :=
  ∃ gw, enrollment.verify state db = .ok gw

/-- The digest under which the control plane looks for the credential, if it reads one at all. -/
def Enrollment.digest (state : AppState) (enrollment : Enrollment) : Option String :=
  (bearerToken (some enrollment.authorization)).map state.hashToken

/-- The gateway of this id has this digest. -/
def Db.HoldsDigest (db : Db) (id : Uuid) (digest : String) : Prop :=
  ∃ row ∈ db.gateways, row.id = id ∧ row.authTokenHash = some digest

/-- The digest that the statement stores, if it stores one. -/
def Statement.storedDigest : Statement → Option String
  | .upsertGateway row => row.authTokenHash
  | .updateGatewayToken _ authTokenHash => some authTokenHash
  | _ => none

section Accepted

variable {state : AppState} {db after : Db} {enrollment : Enrollment} {statement : Statement}
  {reply : statement.Reply} {id : Uuid} {digest : String}

theorem accepted_iff
    : enrollment.Accepted state db
      ↔ ∃ digest, enrollment.digest state = some digest
          ∧ db.HoldsDigest enrollment.gatewayId digest := by
  unfold Enrollment.Accepted Enrollment.verify Enrollment.digest requireGateway
  cases presented : bearerToken (some enrollment.authorization) with
  | none => simp
  | some token =>
      simp only [Option.map_some, Option.some.injEq, exists_eq_left', Db.HoldsDigest]
      cases found : db.gateways.find? (fun row =>
          row.id == enrollment.gatewayId && row.authTokenHash == some (state.hashToken token)) with
      | none =>
          simp only [List.find?_eq_none, Bool.and_eq_true, beq_iff_eq] at found
          constructor
          · intro accepted
            obtain ⟨gw, accepted⟩ := accepted
            cases accepted
          · intro held
            obtain ⟨row, member, holds⟩ := held
            exact absurd holds (found row member)
      | some row =>
          have holds := List.find?_some found
          simp only [Bool.and_eq_true, beq_iff_eq] at holds
          exact ⟨fun _ => ⟨row, List.mem_of_find?_eq_some found, holds⟩, fun _ => ⟨_, rfl⟩⟩

/-- A gateway's digest was there before, or the statement has stored it. -/
theorem holdsDigest_exec (ran : statement.exec db = .ok (reply, after))
    (held : after.HoldsDigest id digest)
    : db.HoldsDigest id digest ∨ statement.storedDigest = some digest := by
  obtain ⟨row, there, own, holds⟩ := held
  rw [(Statement.exec_effect ran).gateways] at there
  cases statement with
  | upsertGateway row' =>
      simp only [Statement.gatewaysAfter] at there
      split at there
      · obtain ⟨old, found, rfl⟩ := mem_updateWhere.mp there
        split at holds
        · exact Or.inr holds
        · rename_i other
          rw [if_neg other] at own
          exact Or.inl ⟨old, found, own, holds⟩
      · rcases List.mem_append.mp there with old | new
        · exact Or.inl ⟨row, old, own, holds⟩
        · obtain rfl := List.mem_singleton.mp new
          exact Or.inr holds
  | updateGatewayToken id' authTokenHash =>
      obtain ⟨old, found, rfl⟩ := mem_updateWhere.mp there
      split at holds
      · exact Or.inr holds
      · rename_i other
        rw [if_neg other] at own
        exact Or.inl ⟨old, found, own, holds⟩
  | updateGatewayHeartbeat | bumpGateway | bumpGatewaysOfSession =>
      obtain ⟨old, found, rfl⟩ := mem_updateWhere.mp there
      refine Or.inl ⟨old, found, ?_⟩
      split at own <;> split at holds <;> exact ⟨own, holds⟩
  | _ => exact Or.inl ⟨row, there, own, holds⟩

/-- An enrollment that has come to be accepted: a call has stored its digest. -/
theorem accepted_moved {plane moved : ControlPlane} {turn : Turn}
    (moves : plane.Moves elapse turn moved) (accepted : enrollment.Accepted state moved.state)
    : enrollment.Accepted state plane.state
      ∨ ∃ call statement digest, turn = .run call ∧ plane.Runs call statement
          ∧ statement.storedDigest = some digest ∧ enrollment.digest state = some digest := by
  cases moves with
  | @replied call statement next reply after issued ran =>
      obtain ⟨digest, digests, held⟩ := accepted_iff.mp accepted
      rcases holdsDigest_exec ran held with before | stored
      · exact Or.inl (accepted_iff.mpr ⟨digest, digests, before⟩)
      · exact Or.inr ⟨call, statement, digest, rfl, ControlPlane.runs_of_issued issued, stored, digests⟩
  | refused | lost | env | idle => exact Or.inl accepted

end Accepted

-----------------------------------------------------------------------------------------
-- What a step can do
-----------------------------------------------------------------------------------------

namespace GatewayDeployment

variable (deployment : GatewayDeployment)

section Steps

variable (world : GatewayWorld)

/-- Everything that one event can do. -/
inductive Takes : GatewayEvent → GatewayWorld → Prop where
  | arrives (request : Request)
    : Takes (.arrives request)
        { world with plane := world.plane.receive deployment.state request }
  | turn (turn : Turn) : Takes (.turn turn) { world with plane := world.plane.handle elapse turn }
  | operator (file : StateFile) : Takes (.operator file) { world with file }
  | stops : Takes .stops { world with phase := .down }
  | starts {readable : Bool} {generated : String × String} (down : world.phase = .down)
    : Takes (.starts readable generated) {
        world with
        phase := resume (world.file.load readable)
        keypair := deployment.keypair generated
        loop := .start world.loop.host
      }
  | sends {enrolled : Enrollment} (beating : world.phase = .beating enrolled)
    : Takes .sends { world with phase := .sent enrolled }
  | unsent {enrolled : Enrollment} (beating : world.phase = .beating enrolled)
    : Takes .sends world
  | admitted {enrolled : Enrollment} {gw : GatewayAuth} (sent : world.phase = .sent enrolled)
    (verified : enrolled.verify deployment.state world.plane.state = .ok gw)
    : Takes .checks {
        world with
        plane := world.plane.receive deployment.state
          (.gatewayHeartbeat gw.gatewayId world.loop.heartbeatRequest)
        phase := .served enrolled world.plane.calls.length
      }
  | rejected {enrolled : Enrollment} (sent : world.phase = .sent enrolled)
    (unaccepted : ¬ enrolled.Accepted deployment.state world.plane.state)
    : Takes .checks { world with phase := .unauthorized enrolled }
  | answered {now : Timestamp} {clock : Nat → Timestamp} {answers : HostAnswers}
    {enrolled : Enrollment} {call : Nat} (loop : LoopState)
    (served : world.phase = .served enrolled call)
    : Takes (.answered now clock answers) { world with phase := .beating enrolled, loop }
  | breaks {enrolled : Enrollment}
    (beats
      : world.phase = .sent enrolled ∨ (∃ call, world.phase = .served enrolled call)
        ∨ world.phase = .unauthorized enrolled)
    : Takes .breaks { world with phase := .beating enrolled }
  | unenrolled {event : GatewayEvent} {rejected : Option Enrollment}
    (ends : event = .breaks ∨ event = .registered)
    (enrols
      : world.phase = .enrolling rejected ∨ ∃ call, world.phase = .registering rejected call)
    : Takes event { world with phase := .unenrolled rejected }
  | clears {removed : Bool} {enrolled : Enrollment}
    (unauthorized : world.phase = .unauthorized enrolled)
    : Takes (.clears removed)
        { world with file := world.file.clear removed, phase := .enrolling (some enrolled) }
  | registers {draw : GatewayService.Draw} {rejected : Option Enrollment}
    (enrolling : world.phase = .enrolling rejected)
    : Takes (.registers draw) {
        world with
        plane := world.plane.receive deployment.state
          (.registerGateway draw (deployment.registerRequest world.keypair.2) none)
        phase := .registering rejected world.plane.calls.length
      }
  | registered {rejected : Option Enrollment} {call : Nat} {enrolled : Enrollment}
    (registering : world.phase = .registering rejected call)
    : Takes .registered { world with phase := .storing rejected enrolled }
  | stores {outcome : StoreOutcome} {rejected : Option Enrollment} {enrolled : Enrollment}
    (storing : world.phase = .storing rejected enrolled)
    : Takes (.stores outcome) {
        world with
        file := (world.file.store enrolled outcome).1
        phase :=
          if (world.file.store enrolled outcome).2 then .beating enrolled else .unenrolled rejected
      }

variable {deployment world} {event : GatewayEvent} {next : GatewayWorld}

theorem takes_of_starts {readable : Bool} {generated : String × String}
    (taken : deployment.step world (.starts readable generated) = some next)
    : Takes deployment world (.starts readable generated) next := by
  simp only [step] at taken
  split at taken
  · next down =>
      cases taken
      exact .starts down
  · cases taken

/-- A process that is due to send its heartbeat sends it or not. -/
theorem takes_of_sends (taken : deployment.step world .sends = some next)
    : Takes deployment world .sends next := by
  simp only [step] at taken
  split at taken
  · next beating =>
      split at taken
      · cases taken
        exact .sends beating
      · cases taken
        exact .unsent beating
  · cases taken

/-- The control plane admits a heartbeat that was sent, or it refuses the credential. -/
theorem takes_of_checks (taken : deployment.step world .checks = some next)
    : Takes deployment world .checks next := by
  simp only [step] at taken
  split at taken
  · next enrolled sent =>
      split at taken
      · next gw verified =>
          cases taken
          exact .admitted sent verified
      · next error refused =>
          cases taken
          refine .rejected sent ?_
          intro accepted
          obtain ⟨gw, verified⟩ := accepted
          rw [refused] at verified
          cases verified
  · cases taken

theorem takes_of_answered {now : Timestamp} {clock : Nat → Timestamp} {answers : HostAnswers}
    (taken : deployment.step world (.answered now clock answers) = some next)
    : Takes deployment world (.answered now clock answers) next := by
  simp only [step] at taken
  split at taken
  · next served =>
      obtain ⟨response, _, same⟩ := Option.map_eq_some_iff.mp taken
      cases same
      exact .answered _ served
  · cases taken

/-- What fails while beating is tried again, what fails while enrolling leaves the process unenrolled. -/
theorem takes_of_breaks (taken : deployment.step world .breaks = some next)
    : Takes deployment world .breaks next := by
  simp only [step] at taken
  split at taken
  · next sent =>
      cases taken
      exact .breaks (Or.inl sent)
  · next served =>
      cases taken
      exact .breaks (Or.inr (Or.inl ⟨_, served⟩))
  · next unauthorized =>
      cases taken
      exact .breaks (Or.inr (Or.inr unauthorized))
  · next enrolling =>
      cases taken
      exact .unenrolled (Or.inl rfl) (Or.inl enrolling)
  · next registering =>
      cases taken
      exact .unenrolled (Or.inl rfl) (Or.inr ⟨_, registering⟩)
  · cases taken

theorem takes_of_clears {removed : Bool}
    (taken : deployment.step world (.clears removed) = some next)
    : Takes deployment world (.clears removed) next := by
  simp only [step] at taken
  split at taken
  · next unauthorized =>
      cases taken
      exact .clears unauthorized
  · cases taken

theorem takes_of_registers {draw : GatewayService.Draw}
    (taken : deployment.step world (.registers draw) = some next)
    : Takes deployment world (.registers draw) next := by
  simp only [step] at taken
  split at taken
  · next enrolling =>
      cases taken
      exact .registers enrolling
  · cases taken

/-- A registration that was answered is a new enrollment or a refusal. -/
theorem takes_of_registered (taken : deployment.step world .registered = some next)
    : Takes deployment world .registered next := by
  simp only [step] at taken
  split at taken
  · next rejected call registering =>
      obtain ⟨phase, goesOn, same⟩ := Option.map_eq_some_iff.mp taken
      obtain ⟨result, _, goesOn⟩ := Option.bind_eq_some_iff.mp goesOn
      cases same
      cases result with
      | error error =>
          cases goesOn
          exact .unenrolled (Or.inr rfl) (Or.inr ⟨_, registering⟩)
      | ok answer =>
          cases answer with
          | gateway response =>
              cases goesOn
              exact .registered registering
          | _ => cases goesOn
  · cases taken

theorem takes_of_stores {outcome : StoreOutcome}
    (taken : deployment.step world (.stores outcome) = some next)
    : Takes deployment world (.stores outcome) next := by
  simp only [step] at taken
  split at taken
  · next storing =>
      cases taken
      exact .stores storing
  · cases taken

/-- The transition function does nothing else, by cases on the event. -/
theorem takes_of_step (taken : deployment.step world event = some next)
    : Takes deployment world event next := by
  cases event with
  | arrives request =>
      cases taken
      exact .arrives request
  | turn turn =>
      cases taken
      exact .turn turn
  | operator file =>
      cases taken
      exact .operator file
  | stops =>
      cases taken
      exact .stops
  | starts readable generated => exact takes_of_starts taken
  | sends => exact takes_of_sends taken
  | checks => exact takes_of_checks taken
  | answered now clock answers => exact takes_of_answered taken
  | breaks => exact takes_of_breaks taken
  | clears removed => exact takes_of_clears taken
  | registers draw => exact takes_of_registers taken
  | registered => exact takes_of_registered taken
  | stores outcome => exact takes_of_stores taken

@[simp] theorem rejected_unenrolled {rejected : Option Enrollment}
    : (MainPhase.unenrolled rejected).rejected = none := by
  cases rejected <;> rfl

@[simp] theorem rejected_resume {loaded : Option Enrollment} : (resume loaded).rejected = none := by
  cases loaded <;> rfl

end Steps

-----------------------------------------------------------------------------------------
-- Runs
-----------------------------------------------------------------------------------------

/-- The event, unless it is the operator's own, leaves an accepted enrollment in the file. -/
def KeepsAccepted (world : GatewayWorld) (event : GatewayEvent) : Prop :=
  ∀ (enrollment : Enrollment) (next : GatewayWorld),
    (∀ file, event ≠ .operator file) → deployment.step world event = some next
      → world.file = .holds enrollment → enrollment.Accepted deployment.state world.plane.state
      → next.file = .holds enrollment

/-- The process removes or replaces the file only while that holds no enrollment but the rejected one.
-/
def RemovesRejected (world : GatewayWorld) : GatewayEvent → Prop
  | .clears true | .stores .unwritten | .stores .unsynced | .stores .stored =>
      ∀ enrollment, world.file = .holds enrollment → world.phase.rejected = some enrollment
  | _ => True

/-- No call stores the digest of the enrollment that was rejected. -/
def DrawsAfresh (world : GatewayWorld) : GatewayEvent → Prop
  | .turn (.run call) =>
      ∀ (statement : Statement) (digest : String) (enrollment : Enrollment),
        world.plane.Runs call statement → statement.storedDigest = some digest
          → world.phase.rejected = some enrollment
          → enrollment.digest deployment.state ≠ some digest
  | _ => True

/-- The file changes only where the process will know of it: the operator writes it while the process
is down, it can be read whenever the process starts, and no `store` fails after it has written.
-/
def KnowsFile (world : GatewayWorld) : GatewayEvent → Prop
  | .operator _ => world.phase = .down
  | .starts readable _ => readable = true
  | .stores outcome => outcome ≠ .unsynced
  | _ => True

/-- What was rejected is still not accepted. -/
def StaysRejected (world : GatewayWorld) : Prop :=
  ∀ enrollment, world.phase.rejected = some enrollment
    → ¬ enrollment.Accepted deployment.state world.plane.state

/-- The enrollment that the process has in its memory, be it a rejected one. -/
def inHand : MainPhase → Option Enrollment
  | .beating enrolled | .sent enrolled | .served enrolled _ => some enrolled
  | phase => phase.rejected

/-- The file of a running process holds no enrollment but the one in hand. -/
def FileInHand (world : GatewayWorld) : Prop :=
  world.phase ≠ .down
    → ∀ enrollment, world.file = .holds enrollment → inHand world.phase = some enrollment

section Runs

variable {deployment : GatewayDeployment} {world next : GatewayWorld} {event : GatewayEvent}
  {events : List GatewayEvent}

theorem staysRejected_down (down : world.phase = .down) : deployment.StaysRejected world := by
  intro enrollment rejected
  rw [down] at rejected
  cases rejected

/-- By cases on the step: credentials are stored by turns only, and a rejection is an answer. -/
theorem StaysRejected.step (stays : deployment.StaysRejected world)
    (fresh : deployment.DrawsAfresh world event)
    (taken : deployment.step world event = some next)
    : deployment.StaysRejected next := by
  intro enrollment rejected
  cases takes_of_step taken with
  | arrives | operator | unsent => exact stays enrollment rejected
  | turn turn =>
      intro accepted
      have moves := System.handle_moves elapse world.plane turn
      rcases accepted_moved moves accepted with before | ⟨call, statement, digest, rfl, runs, stored, digests⟩
      · exact stays enrollment rejected before
      · exact fresh statement digest enrollment runs stored rejected digests
  | rejected sent unaccepted =>
      cases rejected
      exact unaccepted
  | clears unauthorized =>
      apply stays enrollment
      rw [unauthorized]
      exact rejected
  | registers enrolling =>
      apply stays enrollment
      rw [enrolling]
      exact rejected
  | registered registering =>
      apply stays enrollment
      rw [registering]
      exact rejected
  | stops | sends | admitted | answered | breaks => cases rejected
  | starts | unenrolled => simp at rejected
  | stores storing =>
      dsimp only at rejected
      split at rejected
      · cases rejected
      · simp at rejected

/-- By cases on the step: two of the process's touch the file, and the condition is about them. -/
theorem keepsAccepted_of_stays (stays : deployment.StaysRejected world)
    (removes : ∀ next, deployment.step world event = some next → RemovesRejected world event)
    : deployment.KeepsAccepted world event := by
  intro enrollment next others taken holds accepted
  have condition := removes next taken
  cases takes_of_step taken with
  | operator file => exact absurd rfl (others file)
  | @clears removed =>
      cases removed with
      | false => exact holds
      | true => exact absurd accepted (stays enrollment (condition enrollment holds))
  | @stores outcome =>
      cases outcome with
      | unopened => exact holds
      | unwritten | unsynced | stored =>
          exact absurd accepted (stays enrollment (condition enrollment holds))
  | _ => exact holds

/-- In every run in which the process removes or replaces no enrollment but the rejected one, nothing
that the control plane accepts is taken out of the file.
-/
theorem accepted_enrollment_kept (down : world.phase = .down)
    (removes : Runs.Along deployment.step RemovesRejected world events)
    (fresh : Runs.Along deployment.step deployment.DrawsAfresh world events)
    : Runs.Along deployment.step deployment.KeepsAccepted world events := by
  have keep : ∀ state action after, deployment.StaysRejected state
      → RemovesRejected state action ∧ deployment.DrawsAfresh state action
      → deployment.step state action = some after → deployment.StaysRejected after :=
    fun _ _ _ stays fits taken => stays.step fits.2 taken
  have gives : ∀ state action, deployment.StaysRejected state
      → RemovesRejected state action ∧ deployment.DrawsAfresh state action
      → deployment.KeepsAccepted state action :=
    fun _ _ stays fits => keepsAccepted_of_stays stays (fun _ _ => fits.1)
  exact Runs.along_of_invariant keep gives (staysRejected_down down) (Runs.along_and removes fresh)

-----------------------------------------------------------------------------------------
-- A rotation
-----------------------------------------------------------------------------------------

/-- A gateway with a public key of its own, whose peers the control plane's network scopes. -/
def gwDeployment : GatewayDeployment where
  state := smallState
  control := ⟨"enrol"⟩
  gateway := ⟨"gw", "vpn:51820", some 3⟩
  cfg := ⟨{ interface := "wg0", publicKey := some "gateway-key", managedRange := none }⟩

/-- The gateway's process is down, and its file holds the credential that the control plane knows. -/
def enrolledWorld : GatewayWorld where
  plane := ControlPlane.start smallState [] {
    smallInstallation with
    gateways := [⟨4, "gw", "gateway-key", "vpn:51820", some 3, "", some "old", none, 0⟩]
  }
  file := .holds ⟨4, "old"⟩
  phase := .down
  keypair := (none, "")
  loop := .start emptyHost

/-- While the process runs, an administrator rotates the credential. -/
def rotation : List GatewayEvent :=
  [.starts true ("", ""), .arrives (.rotateGatewayToken 4 "new"), .turn (.run 0), .turn (.run 0)]

/-- The next heartbeat is refused, and the process discards the file. -/
def rejection : List GatewayEvent := [.sends, .checks, .clears true]

/-- The operator stores the new credential before that heartbeat. -/
def discarded : List GatewayEvent := rotation ++ .operator (.holds ⟨4, "new"⟩) :: rejection

/-- What the process asks for next, and what it is answered. -/
def refusal : List GatewayEvent := [.registers ⟨30, "other"⟩, .turn (.run 1)]

theorem rotation_kept
    : Runs.Along gwDeployment.step gwDeployment.KeepsAccepted enrolledWorld
        (rotation ++ rejection) := by
  have removes : Runs.Along gwDeployment.step RemovesRejected enrolledWorld
      (rotation ++ rejection) := by
    iterate 6 refine Runs.along_cons rfl trivial ?_
    refine Runs.along_cons rfl ?_ trivial
    intro enrollment holds
    cases holds
    rfl
  have fresh : Runs.Along gwDeployment.step gwDeployment.DrawsAfresh enrolledWorld
      (rotation ++ rejection) := by
    refine Runs.along_cons rfl trivial (Runs.along_cons rfl trivial ?_)
    iterate 2
      refine Runs.along_cons rfl ?_ ?_
      · intro statement digest enrollment runs stores rejected
        cases rejected
    iterate 3 refine Runs.along_cons rfl trivial ?_
    trivial
  exact accepted_enrollment_kept rfl removes fresh

theorem new_credential_discarded
    : ¬ Runs.Along gwDeployment.step gwDeployment.KeepsAccepted enrolledWorld discarded
      ∧ ∃ after, Runs.run gwDeployment.step enrolledWorld (discarded ++ refusal) = some after
          ∧ after.file = .absent
          ∧ Enrollment.Accepted smallState after.plane.state ⟨4, "new"⟩
          ∧ after.plane.Answered 1 (.error .forbidden) := by
  refine ⟨?_, _, rfl, rfl, ⟨_, rfl⟩, rfl⟩
  intro along
  have last := @Runs.along_append _ _ _ _
    (rotation ++ [.operator (.holds ⟨4, "new"⟩), .sends, .checks]) [.clears true] _ _ rfl along
  have kept := last.2.1 ⟨4, "new"⟩ _ (by simp) rfl rfl ⟨_, rfl⟩
  cases kept

-----------------------------------------------------------------------------------------
-- An operator who stops the process first
-----------------------------------------------------------------------------------------

/-- A running process that has the same in hand as before, and a file that holds what it held. -/
theorem FileInHand.same (known : FileInHand world) (up : world.phase ≠ .down)
    (file : next.file = world.file) (hand : inHand next.phase = inHand world.phase)
    : FileInHand next := by
  intro _ enrollment holds
  rw [hand]
  exact known up enrollment (file ▸ holds)

/-- A process that has not enrolled, and goes on with the rejected enrollment or ends. -/
theorem FileInHand.unenrolled {rejected : Option Enrollment} (known : FileInHand world)
    (up : world.phase ≠ .down) (file : next.file = world.file)
    (hand : inHand world.phase = rejected) (phase : next.phase = .unenrolled rejected)
    : FileInHand next := by
  cases rejected with
  | none =>
      intro up'
      exact absurd phase up'
  | some enrolled =>
      refine known.same up file ?_
      rw [phase, hand]
      rfl

/-- By cases on the step. -/
theorem FileInHand.step (known : FileInHand world) (knows : KnowsFile world event)
    (taken : deployment.step world event = some next)
    : FileInHand next := by
  cases takes_of_step taken with
  | arrives | turn | unsent => exact known
  | operator file =>
      intro up
      exact absurd knows up
  | stops =>
      intro up
      exact absurd rfl up
  | starts down =>
      intro _ enrollment holds
      have loads : world.file = .holds enrollment := holds
      obtain rfl := knows
      simp [loads, StateFile.load, resume, inHand]
  | sends beating => exact known.same (by simp [beating]) rfl (by rw [beating]; rfl)
  | admitted sent | rejected sent => exact known.same (by simp [sent]) rfl (by rw [sent]; rfl)
  | answered loop served => exact known.same (by simp [served]) rfl (by rw [served]; rfl)
  | breaks beats =>
      rcases beats with stands | ⟨call, stands⟩ | stands
        <;> exact known.same (by simp [stands]) rfl (by rw [stands]; rfl)
  | unenrolled ends enrols =>
      rcases enrols with stands | ⟨call, stands⟩
        <;> exact known.unenrolled (by simp [stands]) rfl (by rw [stands]; rfl) rfl
  | clears unauthorized =>
      intro _ enrollment holds
      have before : world.file = .holds enrollment := by
        revert holds
        simp only [StateFile.clear]
        split <;> simp
      have hand := known (by simp [unauthorized]) enrollment before
      rw [unauthorized] at hand
      exact hand
  | registers stands | registered stands =>
      exact known.same (by simp [stands]) rfl (by rw [stands]; rfl)
  | @stores outcome rejected enrolled storing =>
      cases outcome with
      | unopened => exact known.unenrolled (by simp [storing]) rfl (by rw [storing]; rfl) rfl
      | unwritten =>
          intro _ enrollment holds
          cases holds
      | unsynced => exact absurd rfl knows
      | stored =>
          intro _ enrollment holds
          cases holds
          rfl

/-- A process that is not down and has the rejected enrollment in hand, if any. -/
theorem FileInHand.rejected (known : FileInHand world) (up : world.phase ≠ .down)
    (hand : inHand world.phase = world.phase.rejected) {enrollment : Enrollment}
    (holds : world.file = .holds enrollment)
    : world.phase.rejected = some enrollment :=
  hand ▸ known up enrollment holds

/-- What a running process removes or replaces is in its hand, and as a rejected one. -/
theorem FileInHand.removes (known : FileInHand world)
    (taken : deployment.step world event = some next)
    : RemovesRejected world event := by
  cases takes_of_step taken with
  | @clears removed enrolled unauthorized =>
      cases removed with
      | false => trivial
      | true => exact fun _ => known.rejected (by simp [unauthorized]) (by rw [unauthorized]; rfl)
  | @stores outcome rejected enrolled storing =>
      cases outcome with
      | unopened => trivial
      | unwritten | unsynced | stored =>
          exact fun _ => known.rejected (by simp [storing]) (by rw [storing]; rfl)
  | unenrolled ends =>
      rcases ends with rfl | rfl <;> trivial
  | _ => trivial

/-- Nothing that is accepted is taken out of the file in a run in which the operator writes the file
only while the process is down.
-/
theorem accepted_kept_of_known (down : world.phase = .down)
    (knows : Runs.Along deployment.step KnowsFile world events)
    (fresh : Runs.Along deployment.step deployment.DrawsAfresh world events)
    : Runs.Along deployment.step deployment.KeepsAccepted world events := by
  have keep : ∀ state action after, deployment.StaysRejected state ∧ FileInHand state
      → KnowsFile state action ∧ deployment.DrawsAfresh state action
      → deployment.step state action = some after
      → deployment.StaysRejected after ∧ FileInHand after :=
    fun _ _ _ both fits taken => ⟨both.1.step fits.2 taken, both.2.step fits.1 taken⟩
  have gives : ∀ state action, deployment.StaysRejected state ∧ FileInHand state
      → KnowsFile state action ∧ deployment.DrawsAfresh state action
      → deployment.KeepsAccepted state action :=
    fun _ _ both _ => keepsAccepted_of_stays both.1 (fun _ taken => both.2.removes taken)
  exact Runs.along_of_invariant keep gives
    ⟨staysRejected_down down, fun up => absurd down up⟩ (Runs.along_and knows fresh)

end Runs

end GatewayDeployment

end WslVpn
