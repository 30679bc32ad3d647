import WslVpn.Interleaving.Contracts
import WslVpn.Control.Traffic

/-! The form of the peers that configurations are served with, whatever calls are interleaved: their
allowed-ips are networks without host bits.
-/

namespace WslVpn

open AddressSpace Interleaving

/-- The text is a network without host bits, in the notation in which networks are written. -/
def Shown (text : String) : Prop := ∃ net : IpNetwork, net.canonical = net ∧ text = networkText net

/-- Columns of type `cidr[]` hold no host bits. -/
def CidrColumns (db : Db) : Prop :=
  ∀ row ∈ db.wireguardPeers, ∀ net ∈ row.allowedIps, net.canonical = net

/-- All allowed-ips of the configuration are networks without host bits. -/
def ShownPeers (answer : Answer) : Prop :=
  match answer with
  | .config config => ∀ peer ∈ config.peers, ∀ text ∈ peer.allowedIps, Shown text
  | _ => True

theorem CidrColumns.step {statement : Statement} {db after : Db} {reply : statement.Reply}
    (columns : CidrColumns db) (ran : statement.exec db = .ok (reply, after))
    : CidrColumns after := by
  intro row there net allowed
  rcases Statement.peer_before ran there with old | ⟨inserted, _, rfl⟩
  · exact columns row old net allowed
  · obtain ⟨given, _, rfl⟩ := List.mem_map.mp allowed
    exact given.canonical_canonical

/-- Any calls at all, on tables with columns of their types. -/
def columnTypes : Contract sql where
  possible := CidrColumns
  later := fun _ _ _ => True
  may := fun _ _ => True
  mayLose := fun _ _ => True
  asserts := fun _ _ _ => True
  later_refl := fun _ _ => trivial
  later_trans := fun _ _ => trivial
  exec_sound := fun columns _ _ ran => ⟨columns.step ran, fun _ _ => trivial⟩

section Calls

variable {Value : Type} {call : Nat} {db : Db}

/-- Every program keeps to a contract that asks for nothing, by induction on it. -/
theorem columnTypes_keeps (program : Call Value)
    : program.Keeps columnTypes call (fun _ _ => True) db := by
  have anything : program.Along (fun _ _ => True) (fun _ => True) (fun _ => True) := by
    induction program with
    | done result => trivial
    | step op next ih => exact ⟨trivial, fun reply _ => ih reply⟩
  refine anything.keeps (fun _ _ _ _ => trivial) ?_ trivial
  exact fun _ _ _ _ _ _ => ⟨trivial, fun _ _ _ => trivial⟩

/-- The served peers are the rows that one statement has read. -/
theorem config_keeps {state : AppState} {id : Uuid} (columns : CidrColumns db)
    : (GatewayService.config state id).Keeps columnTypes call
        (fun config _ => ShownPeers (.config config)) db := by
  have asks : ∀ {Value Result : Type} {post : Result → Db → Prop} {program : Call Value}
      {rest : Value → Call Result},
      (∀ value now, CidrColumns now → (rest value).Keeps columnTypes call post now)
        → ∀ {db : Db}, CidrColumns db → (program >>= rest).Keeps columnTypes call post db := by
    intro Value Result post program rest second db columns
    exact Program.Keeps.bind columns (columnTypes_keeps program)
      (fun value now fine _ => second value now fine)
  unfold GatewayService.config
  refine asks ?_ columns
  rintro (_ | gateway) now columns
  · trivial
  dsimp only
  split
  · trivial
  · unfold GatewayService.configOf
    refine asks ?_ columns
    rintro (_ | cidr) now columns
    · trivial
    refine asks ?_ columns
    intro _ now columns
    refine asks ?_ columns
    intro _ now columns
    refine Program.Keeps.request ?_
    intro now _ columns _
    refine ⟨trivial, ?_⟩
    intro rows after ran columns'
    have shown : ∀ row ∈ rows, ∀ net ∈ row.allowedIps, net.canonical = net := by
      cases ran
      exact fun row listed => columns row (List.mem_filter.mp listed).1
    refine asks ?_ columns'
    intro routes now columns
    refine asks ?_ columns
    intro services now columns
    refine asks ?_ columns
    intro time now columns _ _ _ peer listed text written
    obtain ⟨row, member, rfl⟩ := List.mem_map.mp listed
    obtain ⟨net, allowed, rfl⟩ := List.mem_map.mp written
    exact ⟨net, shown row member net allowed, rfl⟩

/-- Only configurations have anything to show. -/
theorem Request.call_keeps_shown {state : AppState} (request : Request) (columns : CidrColumns db)
    : (request.call state).Keeps columnTypes call (fun answer _ => ShownPeers answer) db := by
  have returns : ∀ {Value : Type} {program : Call Value} {wrap : Value → Answer}
      {middle : Value → Db → Prop},
      program.Keeps columnTypes call middle db
        → (∀ value now, middle value now → ShownPeers (wrap value))
        → (program >>= fun value => pure (wrap value)).Keeps columnTypes call
            (fun answer _ => ShownPeers answer) db :=
    fun keeps shown =>
      Program.Keeps.bind columns keeps (fun value now _ holds _ _ _ => shown value now holds)
  cases request with
  | gatewayConfig id => exact returns (config_keeps columns) (fun _ _ shown => shown)
  | gatewayHeartbeat id req =>
      refine returns ?_ (fun _ _ shown => shown)
      unfold GatewayService.heartbeat
      exact Program.Keeps.bind columns (columnTypes_keeps _)
        (fun _ _ columns _ => config_keeps columns)
  | _ => exact returns (columnTypes_keeps _) (fun _ _ _ => trivial)

end Calls

/-- Whatever calls are interleaved, every configuration that one of them has answered lists networks
without host bits.
-/
theorem ControlPlane.answered_shown {state : AppState} {requests : List Request} {db : Db}
    {turns : List Turn} {call : Nat} {config : GatewayConfig} (columns : CidrColumns db)
    (answered : ((ControlPlane.start state requests db).after turns).Answered call
      (.ok (.config config)))
    : ∀ peer ∈ config.peers, ∀ text ∈ peer.allowedIps, Shown text := by
  have start : (ControlPlane.start state requests db).Kept columnTypes
      (fun _ answer _ => ShownPeers answer) := by
    refine ⟨columns, ?_⟩
    intro call program found
    rw [ControlPlane.start_calls] at found
    obtain ⟨request, _, rfl⟩ := Option.map_eq_some_iff.mp found
    exact request.call_keeps_shown columns
  have everything : ∀ (turns : List Turn) (plane : ControlPlane),
      plane.Meets elapse (System.Admits columnTypes) turns := by
    intro turns
    induction turns with
    | nil => exact fun _ => trivial
    | cons turn rest ih =>
        intro plane
        refine ⟨?_, ih _⟩
        cases turn with
        | env => trivial
        | _ => exact fun _ _ _ => trivial
  have surroundings : ∀ passed db, CidrColumns db
      → CidrColumns (elapse passed db) ∧ ∀ _ : Nat, True :=
    fun _ _ columns => ⟨columns, fun _ => trivial⟩
  exact (start.run surroundings (everything turns _)).answered answered

end WslVpn
