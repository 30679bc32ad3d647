import WslVpn.Interleaving.Contracts
import WslVpn.Control.Requests

/-! The WireGuard config that a session is created with, whatever calls are interleaved: its address and its
routes are texts that the control plane has written itself.
-/

namespace WslVpn

open AddressSpace Interleaving

/-- The texts that the control plane writes itself are those of an address and of networks. -/
structure OwnTexts (wg : ClientWireGuardConfig) : Prop where
  interface : ∃ addr : IpAddr, wg.interfaceAddress = addressText addr ++ "/32"
  routes : ∃ networks, networks ≠ [] ∧ wg.allowedIps = networks.map networkText

section Calls

variable {Value Result : Type} {good : Value → Prop}

/-- Whatever the statements are answered, a value that the call returns is so. -/
def Supplies (good : Value → Prop) (program : Call Value) : Prop :=
  program.Along (fun _ _ => True) (fun _ => True) (fun result => ∀ value, result = .ok value → good value)

theorem supplies_error (error : AppError) : Supplies good (.done (.error error)) := by
  intro value same
  cases same

theorem supplies_pure {value : Value} (holds : good value) : Supplies good (pure value) := by
  intro other same
  cases same
  exact holds

theorem Supplies.request {statement : Statement} {rest : statement.Reply → Call Value}
    (answered : ∀ reply, Supplies good (rest reply))
    : Supplies good (query statement >>= rest) :=
  Program.Along.request trivial (fun reply _ => answered reply) (fun _ _ => supplies_error _)

/-- A sequence, by induction on its first program. -/
theorem Supplies.bind {middle : Value → Prop} {good : Result → Prop} {program : Call Value}
    {rest : Value → Call Result} (first : Supplies middle program)
    (second : ∀ value, middle value → Supplies good (rest value))
    : Supplies good (program >>= rest) := by
  induction program with
  | done result =>
      cases result with
      | ok value => exact second value (first value rfl)
      | error error => exact supplies_error error
  | step op next ih => exact ⟨trivial, fun reply _ => ih reply (first.2 reply trivial)⟩

/-- Every call returns something, by induction on it. -/
theorem supplies_something (program : Call Value) : Supplies (fun _ => True) program := by
  induction program with
  | done result => exact fun _ _ => trivial
  | step op next ih => exact ⟨trivial, fun reply _ => ih reply⟩

theorem Supplies.seq {good : Result → Prop} {program : Call Value} {rest : Value → Call Result}
    (second : ∀ value, Supplies good (rest value))
    : Supplies good (program >>= rest) :=
  (supplies_something program).bind (fun value _ => second value)

end Calls

section Create

variable {draw : SessionService.Draw} {userId : Uuid} {userEmail : String}
  {req : CreateSessionRequest} {network : Network} {gatewayId : Uuid}
  {gwPub gwEndpoint wgPub : String} {decision : PolicyDecision} {expiresAt : Timestamp}

theorem allocate_supplies (networkId sessionId : Uuid)
    : Supplies (fun text => ∃ addr : IpAddr, text = addressText addr ++ "/32")
        (IpamService.allocate networkId sessionId) := by
  unfold IpamService.allocate
  refine Supplies.request ?_
  intro cidr
  split
  · refine Supplies.request ?_
    intro used
    split
    · exact supplies_error _
    · next addr _ =>
        split
        · refine Supplies.request ?_
          intro _
          exact supplies_pure ⟨addr, rfl⟩
        · exact supplies_error _
  · exact supplies_error _

theorem routesFor_supplies (networkId : Uuid)
    : Supplies (fun routes => ∃ networks : List IpNetwork, routes = networks.map networkText)
        (NetworkService.routesFor networkId) := by
  unfold NetworkService.routesFor
  refine Supplies.request ?_
  intro rows
  exact supplies_pure ⟨rows, rfl⟩

theorem provision_supplies {cidr : IpNetwork} (named : network.cidr = networkText cidr)
    : Supplies (fun response => OwnTexts response.wireguard)
        (SessionService.provision draw userId userEmail req network gatewayId gwPub gwEndpoint wgPub
          decision expiresAt) := by
  unfold SessionService.provision
  refine (allocate_supplies _ _).bind ?_
  intro assigned interface
  split
  · refine Supplies.request ?_
    intro _
    refine (routesFor_supplies _).bind ?_
    intro routes written
    refine Supplies.request ?_
    intro _
    refine Supplies.request ?_
    intro _
    refine Supplies.seq ?_
    intro _
    refine Supplies.request ?_
    intro createdAt
    refine supplies_pure ⟨interface, ?_⟩
    obtain ⟨networks, same⟩ := written
    cases networks with
    | nil =>
        refine ⟨[cidr], List.cons_ne_nil _ _, ?_⟩
        simp [same, named]
    | cons first rest =>
        refine ⟨first :: rest, List.cons_ne_nil _ _, ?_⟩
        simp [same]
  · exact supplies_error _

theorem get_supplies (id : Uuid)
    : Supplies (fun network => ∀ found ∈ network, ∃ cidr, found.cidr = networkText cidr)
        (NetworkService.get id) := by
  unfold NetworkService.get
  refine Supplies.request ?_
  intro row
  refine supplies_pure ?_
  intro found member
  obtain ⟨stored, _, rfl⟩ := Option.map_eq_some_iff.mp member
  exact ⟨stored.cidr, rfl⟩

theorem create_supplies
    : Supplies (fun response => OwnTexts response.wireguard)
        (SessionService.create draw userId userEmail req) := by
  unfold SessionService.create
  refine Supplies.request ?_
  intro device
  split
  · split
    · exact supplies_error _
    · refine (get_supplies _).bind ?_
      intro found named
      split
      · next network =>
          obtain ⟨cidr, same⟩ := named network rfl
          refine Supplies.request ?_
          intro gateway
          split
          · refine Supplies.seq ?_
            intro groups
            refine Supplies.seq ?_
            intro policies
            refine Supplies.seq ?_
            intro decision
            split
            · unfold SessionService.grant
              refine Supplies.request ?_
              intro now
              refine Supplies.request ?_
              intro _
              exact provision_supplies same
            · unfold SessionService.deny
              refine Supplies.seq ?_
              intro _
              exact supplies_error _
          · exact supplies_error _
      · exact supplies_error _
  · exact supplies_error _

end Create

/-- Every session that is answered comes with such a config. -/
def WithOwnTexts : Answer → Prop
  | .session response => OwnTexts response.wireguard
  | _ => True

theorem Request.call_supplies (state : AppState) (request : Request)
    : Supplies WithOwnTexts (request.call state) := by
  cases request with
  | createSession draw userId userEmail req =>
      exact create_supplies.bind (fun response handed => supplies_pure handed)
  | _ => exact Supplies.seq (fun _ => supplies_pure trivial)

/-- Whatever calls are interleaved. -/
theorem ControlPlane.answered_ownTexts {state : AppState} {requests : List Request} {db : Db}
    {turns : List Turn} {call : Nat} {response : CreateSessionResponse}
    (answered : ((ControlPlane.start state requests db).after turns).Answered call
      (.ok (.session response)))
    : OwnTexts response.wireguard := by
  have start : (ControlPlane.start state requests db).AllAlong (fun _ _ => True)
      (fun _ result => ∀ answer, result = .ok answer → WithOwnTexts answer) := by
    intro call program found
    rw [ControlPlane.start_calls] at found
    obtain ⟨request, _, rfl⟩ := Option.map_eq_some_iff.mp found
    exact request.call_supplies state
  exact start.run turns call _ answered _ rfl

end WslVpn
