import Mathlib.Data.String.Basic
import WslVpn.Types

/-! The nftables policy of the gateway, as text and as the rules that the text stands for. -/

namespace WslVpn

open AddressSpace

/-- The table the gateway owns. -/
def firewallTable : String := "wsl_gateway"

/-- A rule of the forward chain, its operands in the words of the script. -/
inductive Rule where
  | returnForeign (range : String)
  | acceptFlows
  | acceptService (destination : String) (protocol : ServiceProtocol) (ports : List (Fin 65536))
    (comment : String)
  | acceptRoute (route : String)
  | drop
  deriving DecidableEq

/-- `char::is_control`. -/
def isControl (char : Char) : Bool :=
  char.toNat < 0x20 || (0x7f ≤ char.toNat && char.toNat < 0xa0)

/-- A quote or backslash would end the comment early. -/
def escapeComment (name : String) : String :=
  String.ofList (((name.toList.filter (fun char => !isControl char)).map fun char =>
    if char = '"' || char = '\\' then '_' else char).take 63)

/-- One port stands alone, several are a set. -/
def portExpr (ports : List (Fin 65536)) : String :=
  match ports.map (fun port => toString port.val) with
  | [port] => port
  | ports => "\x7b " ++ String.intercalate ", " ports ++ " \x7d"

def Rule.line : Rule → String
  | .returnForeign range => "    ip saddr != " ++ range ++ " return"
  | .acceptFlows => "    ct state established,related accept"
  | .acceptService destination protocol ports comment =>
      "    ip daddr " ++ destination ++ " " ++ protocol.asStr ++ " dport " ++ portExpr ports
        ++ " accept comment \"" ++ comment ++ "\""
  | .acceptRoute route => "    ip daddr " ++ route ++ " accept"
  | .drop => "    drop"

/-- The rules in their order. A service without ports has none. -/
def forwardChain (services : List GatewayService) (routes : List String) (range : String)
    : List Rule :=
  [.returnForeign range, .acceptFlows]
  ++ (services.filter (fun service => !service.ports.isEmpty)).map (fun service =>
      .acceptService service.destination service.protocol service.ports
        (escapeComment service.name))
  ++ routes.map .acceptRoute
  ++ [.drop]

/-- The `nft -f -` script around the rules of the chain. -/
def script (rules : List Rule) : String :=
  let lines :=
    [ "add table inet " ++ firewallTable,
      "delete table inet " ++ firewallTable,
      "table inet " ++ firewallTable ++ " \x7b",
      "  chain forward \x7b",
      "    type filter hook forward priority filter + 10; policy accept;" ]
    ++ rules.map Rule.line
    ++ ["  \x7d", "\x7d"]
  String.join (lines.map (· ++ "\n"))

/-- Without a managed range no policy is emitted at all. -/
def render (services : List GatewayService) (routes : List String) (managedRange : Option String)
    : Option String :=
  managedRange.map fun range => script (forwardChain services routes range)

-----------------------------------------------------------------------------------------
-- What nftables makes of the chain
-----------------------------------------------------------------------------------------

/-- The source and the destination are of one family. -/
inductive Addresses where
  | v4 (source destination : BitVec 32)
  | v6 (source destination : BitVec 128)
  deriving DecidableEq

inductive Transport where
  | tcp (port : Fin 65536)
  | udp (port : Fin 65536)
  | other
  deriving DecidableEq

inductive ConnectionState where
  | new
  | established
  | related
  | invalid
  | untracked
  deriving DecidableEq

/-- A forwarded packet, as far as the chain looks at it. -/
structure Packet where
  addresses : Addresses
  transport : Transport
  connection : ConnectionState
  deriving DecidableEq

namespace Packet

def source (packet : Packet) : IpAddr :=
  match packet.addresses with
  | .v4 source _ => .v4 source
  | .v6 source _ => .v6 source

def destination (packet : Packet) : IpAddr :=
  match packet.addresses with
  | .v4 _ destination => .v4 destination
  | .v6 _ destination => .v6 destination

def isIpv4 (packet : Packet) : Bool := packet.source.isIpv4

/-- The packet belongs to an established or a related flow. -/
def inFlow (packet : Packet) : Bool :=
  packet.connection = .established || packet.connection = .related

end Packet

inductive Verdict where
  | accept
  | drop
  | return
  deriving DecidableEq

/-- `ip saddr` and `ip daddr` take IPv4 operands only. -/
def operand (text : String) : Option (Prefix 32) :=
  match parseNetwork text with
  | some (.v4 net) => some net
  | _ => none

/-- `ip daddr` matches IPv4 packets only. -/
def daddr (text : String) (packet : Packet) : Bool :=
  match operand text, packet.addresses with
  | some net, .v4 _ destination => net.contains destination
  | _, _ => false

/-- `tcp dport` or `udp dport`, with one of the ports. -/
def dport (protocol : ServiceProtocol) (ports : List (Fin 65536)) (packet : Packet) : Bool :=
  match protocol, packet.transport with
  | .tcp, .tcp port | .udp, .udp port => ports.contains port
  | _, _ => false

namespace Rule

/-- The rule's verdict on a packet, where the rule matches it. -/
def fires (rule : Rule) (packet : Packet) : Option Verdict :=
  match rule with
  | returnForeign range =>
      match operand range, packet.addresses with
      | some net, .v4 source _ => if net.contains source then none else some .return
      | _, _ => none
  | acceptFlows => if packet.inFlow then some .accept else none
  | acceptService destination protocol ports _ =>
      if daddr destination packet && dport protocol ports packet then some .accept else none
  | acceptRoute route => if daddr route packet then some .accept else none
  | drop => some .drop

/-- The operands of the rule are ones that nft takes. -/
def loads : Rule → Bool
  | returnForeign range => (operand range).isSome
  | acceptService destination _ _ _ => (operand destination).isSome
  | acceptRoute route => (operand route).isSome
  | acceptFlows | drop => true

end Rule

/-- The rules are tried in their order, and the first that fires decides. -/
def firstVerdict (rules : List Rule) (packet : Packet) : Option Verdict :=
  rules.findSome? (fun rule => rule.fires packet)

/-- The policy of the chain accepts what no rule decides. A script with a rule that nft refuses is
refused whole, and no chain comes of it.
-/
def chainVerdict (rules : List Rule) (packet : Packet) : Option Verdict :=
  if rules.all Rule.loads then
    match firstVerdict rules packet with
    | some .drop => some .drop
    | some .accept | some .return | none => some .accept
  else none

end WslVpn
