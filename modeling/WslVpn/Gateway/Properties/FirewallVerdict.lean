import WslVpn.Gateway.Firewall

/-! The verdict that the forward chain gives, against the one that is meant. -/

namespace WslVpn

open AddressSpace

/-- The text names a network that the packet goes to. -/
def reaches (text : String) (packet : Packet) : Bool :=
  (parseNetwork text).any (·.contains packet.destination)

/-- Some service has the packet's destination, protocol and port, or some route its destination. -/
def granted (services : List GatewayService) (routes : List String) (packet : Packet) : Bool :=
  services.any (fun service =>
    reaches service.destination packet && dport service.protocol service.ports packet)
  || routes.any (fun route => reaches route packet)

/-- The verdict that is meant for a packet. -/
structure Intended (managed : IpNetwork) (services : List GatewayService) (routes : List String)
    (packet : Packet) (verdict : Option Verdict) : Prop where
  foreign : managed.contains packet.source = false → verdict ≠ some .drop
  opensGranted
    : managed.contains packet.source = true
      → packet.connection = .new
      → (verdict = some .accept ↔ granted services routes packet = true)
  opensOther
    : managed.contains packet.source = true
      → packet.connection = .new
      → (verdict = some .drop ↔ granted services routes packet = false)
  flows : packet.inFlow = true → verdict = some .accept

/-- Every operand in the script is an IPv4 network. -/
structure Ipv4Only (managed : IpNetwork) (services : List GatewayService) (routes : List String)
    : Prop where
  range : ∃ net, managed = .v4 net
  services
    : ∀ service ∈ services, service.ports ≠ []
      → ∃ net, parseNetwork service.destination = some (.v4 net)
  routes : ∀ route ∈ routes, ∃ net, parseNetwork route = some (.v4 net)

-----------------------------------------------------------------------------------------
-- What the rules decide together
-----------------------------------------------------------------------------------------

theorem operand_isSome {text : String}
    : (operand text).isSome = true ↔ ∃ net, parseNetwork text = some (.v4 net) := by
  rw [operand]
  rcases parseNetwork text with _ | net | net <;> simp

@[simp] theorem operand_networkText (net : Prefix 32)
    : operand (networkText (.v4 net)) = some net := by
  simp [operand]

/-- The script loads exactly where all its operands are IPv4 networks. -/
theorem loads_forwardChain {managed : IpNetwork} {services : List GatewayService}
    {routes : List String}
    : (forwardChain services routes (networkText managed)).all Rule.loads = true
      ↔ Ipv4Only managed services routes := by
  have range : (operand (networkText managed)).isSome = true ↔ ∃ net, managed = .v4 net := by
    simp [operand_isSome]
  have split : (forwardChain services routes (networkText managed)).all Rule.loads = true
      ↔ (operand (networkText managed)).isSome = true
        ∧ (∀ service ∈ services, service.ports ≠ [] → (operand service.destination).isSome = true)
        ∧ ∀ route ∈ routes, (operand route).isSome = true := by
    simp [forwardChain, Rule.loads, or_iff_not_imp_left]
  simp only [split, range, operand_isSome]
  constructor
  · intro ⟨ofRange, ofServices, ofRoutes⟩
    exact ⟨ofRange, ofServices, ofRoutes⟩
  · intro only
    exact ⟨only.range, only.services, only.routes⟩

/-- Entries that can only give one result give it when one of them applies. -/
theorem findSome?_guarded {Entry Result : Type} (applies : Entry → Bool) (result : Result)
    (entries : List Entry)
    : entries.findSome? (fun entry => if applies entry then some result else none)
      = if entries.any applies then some result else none := by
  induction entries with
  | nil => rfl
  | cons head rest ih =>
      cases first : applies head with
      | true => simp [first]
      | false => simp [first, ih]

@[simp] theorem dport_nil (protocol : ServiceProtocol) (packet : Packet)
    : dport protocol [] packet = false := by
  cases protocol with
  | tcp => cases sent : packet.transport <;> simp [dport, sent]
  | udp => cases sent : packet.transport <;> simp [dport, sent]

@[simp] theorem Rule.fires_acceptFlows (packet : Packet)
    : Rule.acceptFlows.fires packet = if packet.inFlow then some .accept else none := rfl

@[simp] theorem Rule.fires_drop (packet : Packet) : Rule.drop.fires packet = some .drop := rfl

/-- The rules between that for flows and the final one accept what one of them matches. -/
theorem firstVerdict_forwardChain (services : List GatewayService) (routes : List String)
    (range : String) (packet : Packet)
    : firstVerdict (forwardChain services routes range) packet
      = ((Rule.returnForeign range).fires packet).or
          (if packet.inFlow
              || (services.any (fun service =>
                  daddr service.destination packet && dport service.protocol service.ports packet)
                || routes.any (fun route => daddr route packet))
            then some .accept else some .drop) := by
  have ofServices : ((services.filter (fun service => !service.ports.isEmpty)).map (fun service =>
        Rule.acceptService service.destination service.protocol service.ports
          (escapeComment service.name))).findSome? (fun rule => rule.fires packet)
      = if services.any (fun service =>
            daddr service.destination packet && dport service.protocol service.ports packet)
          then some .accept else none := by
    have portless : ∀ service : GatewayService,
        (!service.ports.isEmpty
          && (daddr service.destination packet && dport service.protocol service.ports packet))
        = (daddr service.destination packet && dport service.protocol service.ports packet) := by
      intro service
      cases ports : service.ports <;> simp
    rw [List.findSome?_map]
    refine (findSome?_guarded _ _ _).trans ?_
    simp only [List.any_filter, portless]
  have ofRoutes : (routes.map Rule.acceptRoute).findSome? (fun rule => rule.fires packet)
      = if routes.any (fun route => daddr route packet) then some .accept else none := by
    rw [List.findSome?_map]
    exact findSome?_guarded _ _ _
  rw [firstVerdict, forwardChain]
  simp only [List.findSome?_append, ofServices, ofRoutes]
  cases foreign : (Rule.returnForeign range).fires packet with
  | some verdict => simp [List.findSome?_cons, foreign]
  | none =>
      cases flow : packet.inFlow with
      | true => simp [List.findSome?_cons, foreign, flow]
      | false =>
          cases services.any (fun service =>
            daddr service.destination packet && dport service.protocol service.ports packet) with
          | true => simp [List.findSome?_cons, foreign, flow]
          | false =>
              cases routes.any (fun route => daddr route packet) <;>
                simp [List.findSome?_cons, foreign, flow]

/-- An IPv4 packet is matched by its destination as it is meant to be. -/
theorem daddr_eq_reaches {packet : Packet} (ipv4 : packet.isIpv4 = true) (text : String)
    : daddr text packet = reaches text packet := by
  rw [daddr, reaches, operand]
  rcases packet with ⟨⟨source, destination⟩ | ⟨source, destination⟩, transport, connection⟩
  · rcases parseNetwork text with _ | net | net <;> rfl
  · cases ipv4

/-- No operand matches an IPv6 packet. -/
theorem daddr_of_ipv6 {packet : Packet} (ipv6 : packet.isIpv4 = false) (text : String)
    : daddr text packet = false := by
  rw [daddr]
  rcases packet with ⟨⟨source, destination⟩ | ⟨source, destination⟩, transport, connection⟩
  · cases ipv6
  · rcases operand text with _ | net <;> rfl

/-- The chain's verdict on an IPv4 packet. -/
theorem chainVerdict_of_ipv4 {net : Prefix 32} {services : List GatewayService}
    {routes : List String} {packet : Packet} (only : Ipv4Only (.v4 net) services routes)
    (ipv4 : packet.isIpv4 = true)
    : chainVerdict (forwardChain services routes (networkText (.v4 net))) packet
      = if (IpNetwork.v4 net).contains packet.source = false ∨ packet.inFlow = true
            ∨ granted services routes packet = true
          then some .accept else some .drop := by
  have first : (Rule.returnForeign (networkText (.v4 net))).fires packet
      = if (IpNetwork.v4 net).contains packet.source then none else some .return := by
    rcases packet with ⟨⟨source, destination⟩ | ⟨source, destination⟩, transport, connection⟩
    · simp only [Rule.fires, operand_networkText]
      rfl
    · cases ipv4
  rw [chainVerdict, if_pos (loads_forwardChain.mpr only), firstVerdict_forwardChain, first]
  simp only [daddr_eq_reaches ipv4]
  rw [← granted]
  cases inside : (IpNetwork.v4 net).contains packet.source with
  | false => simp
  | true =>
      cases flow : packet.inFlow with
      | true => simp
      | false => cases granted services routes packet <;> simp

/-- The chain's verdict on an IPv6 packet. -/
theorem chainVerdict_of_ipv6 {managed : IpNetwork} {services : List GatewayService}
    {routes : List String} {packet : Packet} (only : Ipv4Only managed services routes)
    (ipv6 : packet.isIpv4 = false)
    : chainVerdict (forwardChain services routes (networkText managed)) packet
      = if packet.inFlow then some .accept else some .drop := by
  have first : (Rule.returnForeign (networkText managed)).fires packet = none := by
    rcases packet with ⟨⟨source, destination⟩ | ⟨source, destination⟩, transport, connection⟩
    · cases ipv6
    · simp only [Rule.fires]
      cases operand (networkText managed) <;> rfl
  rw [chainVerdict, if_pos (loads_forwardChain.mpr only), firstVerdict_forwardChain, first]
  simp only [daddr_of_ipv6 ipv6]
  cases flow : packet.inFlow <;> simp

-----------------------------------------------------------------------------------------
-- Where the verdict is the one that is meant
-----------------------------------------------------------------------------------------

/-- A packet that opens a connection is in no flow. -/
theorem Packet.inFlow_of_new {packet : Packet} (opens : packet.connection = .new)
    : packet.inFlow = false := by
  rw [Packet.inFlow, opens]
  rfl

theorem contains_of_ipv6 {net : Prefix 32} {packet : Packet} (ipv6 : packet.isIpv4 = false)
    : (IpNetwork.v4 net).contains packet.source = false := by
  rw [Packet.isIpv4] at ipv6
  cases source : packet.source with
  | v4 address =>
      rw [source] at ipv6
      cases ipv6
  | v6 address => rfl

theorem intended_of_ipv4 {net : Prefix 32} {services : List GatewayService}
    {routes : List String} {packet : Packet} (only : Ipv4Only (.v4 net) services routes)
    (ipv4 : packet.isIpv4 = true)
    : Intended (.v4 net) services routes packet
        (chainVerdict (forwardChain services routes (networkText (.v4 net))) packet) := by
  rw [chainVerdict_of_ipv4 only ipv4]
  refine ⟨?_, ?_, ?_, ?_⟩
  · intro outside
    rw [if_pos (Or.inl outside)]
    nofun
  · intro inside opens
    cases granted services routes packet <;> simp [inside, Packet.inFlow_of_new opens]
  · intro inside opens
    cases granted services routes packet <;> simp [inside, Packet.inFlow_of_new opens]
  · intro flow
    rw [if_pos (Or.inr (Or.inl flow))]

theorem intended_ipv6_iff {managed : IpNetwork} {services : List GatewayService}
    {routes : List String} {packet : Packet} (only : Ipv4Only managed services routes)
    (ipv6 : packet.isIpv4 = false)
    : Intended managed services routes packet
        (chainVerdict (forwardChain services routes (networkText managed)) packet)
      ↔ packet.inFlow = true := by
  obtain ⟨net, rfl⟩ := only.range
  have outside := @contains_of_ipv6 net packet ipv6
  rw [chainVerdict_of_ipv6 only ipv6]
  constructor
  · intro intended
    have kept := intended.foreign outside
    cases flow : packet.inFlow with
    | true => rfl
    | false => simp [flow] at kept
  · intro flow
    rw [if_pos flow]
    refine ⟨nofun, ?_, ?_, fun _ => rfl⟩
    · intro inside
      simp [outside] at inside
    · intro inside
      simp [outside] at inside

/-- Of a script that is refused no packet gets a verdict. -/
theorem intended_refused_iff {managed : IpNetwork} {services : List GatewayService}
    {routes : List String} {packet : Packet} (refused : ¬Ipv4Only managed services routes)
    : Intended managed services routes packet
        (chainVerdict (forwardChain services routes (networkText managed)) packet)
      ↔ packet.inFlow = false
        ∧ (managed.contains packet.source = true → packet.connection ≠ .new) := by
  rw [chainVerdict, if_neg (mt loads_forwardChain.mp refused)]
  constructor
  · intro intended
    refine ⟨?_, ?_⟩
    · by_contra flow
      have accepted := intended.flows (Bool.of_not_eq_false flow)
      cases accepted
    · intro inside opens
      have passed := intended.opensGranted inside opens
      have stopped := intended.opensOther inside opens
      cases grants : granted services routes packet <;> simp [grants] at passed stopped
  · intro ⟨noFlow, opensNot⟩
    refine ⟨nofun, ?_, ?_, ?_⟩
    · intro inside opens
      exact absurd opens (opensNot inside)
    · intro inside opens
      exact absurd opens (opensNot inside)
    · intro flow
      rw [noFlow] at flow
      cases flow

/-- The verdict is the one that is meant for every IPv4 packet and every packet of a flow, as long
as the range and every destination are IPv4. One other destination, and nft refuses the script.
-/
theorem firewall_verdict_iff (managed : IpNetwork) (services : List GatewayService)
    (routes : List String) (packet : Packet)
    : Intended managed services routes packet
        (chainVerdict (forwardChain services routes (networkText managed)) packet)
      ↔ (Ipv4Only managed services routes ∧ (packet.isIpv4 = true ∨ packet.inFlow = true))
        ∨ (¬Ipv4Only managed services routes ∧ packet.inFlow = false
          ∧ (managed.contains packet.source = true → packet.connection ≠ .new)) := by
  by_cases only : Ipv4Only managed services routes
  · cases family : packet.isIpv4 with
    | true =>
        obtain ⟨net, rfl⟩ := only.range
        simp only [intended_of_ipv4 only family, only, true_and, true_or]
    | false => simp [intended_ipv6_iff only family, only]
  · simp [intended_refused_iff only, only]

/-- An IPv6 packet of the host's own, with a chain that is loaded for an IPv4 range. -/
def hostPacket : Packet where
  addresses := .v6 1 2
  transport := .tcp 443
  connection := .new

/-- The rule that returns foreign traffic passes over it, and the last rule drops it. -/
theorem foreign_ipv6_dropped
    : ¬Intended (.v4 ⟨0x0a080100, 24, by decide⟩) [] [] hostPacket
        (chainVerdict (forwardChain [] [] (networkText (.v4 ⟨0x0a080100, 24, by decide⟩)))
          hostPacket) := by
  intro intended
  have only : Ipv4Only (.v4 ⟨0x0a080100, 24, by decide⟩) [] [] := ⟨⟨_, rfl⟩, nofun, nofun⟩
  have flow := (intended_ipv6_iff only rfl).mp intended
  cases flow

end WslVpn
