import WslVpn.Dns.Text
import WslVpn.Encodings.Base64
import WslVpn.Gateway.Wg

/-! The text of `wg show <interface> dump`, as `wg` writes it and as the gateway reads it. -/

namespace WslVpn

open AddressSpace
open Dns (Text trim lines)

-----------------------------------------------------------------------------------------
-- What the gateway reads
-----------------------------------------------------------------------------------------

/-- The allowed-ips of a peer, with `(none)` standing in for an empty value. -/
def dumpedIps (raw : Text) : List String :=
  if raw = "(none)".toList ∨ raw = [] then []
  else (((raw.splitOn ',').map trim).filter (· ≠ [])).map String.ofList

/-- A line of a peer: its key, and three fields further its allowed-ips. -/
def dumpedPeer (line : Text) : Option LivePeer :=
  match line.splitOn '\t' with
  | key :: _ :: _ :: raw :: _ => if key = [] then none else some ⟨String.ofList key, dumpedIps raw⟩
  | _ => none

/-- Parse `wg show <interface> dump`. The first line describes the interface. Every later line is a
peer.
-/
def parseWgDump (dump : Text) : List LivePeer := ((lines dump).drop 1).filterMap dumpedPeer

-----------------------------------------------------------------------------------------
-- What `wg` writes
-----------------------------------------------------------------------------------------

/-- A peer with all that `wg` shows of it. -/
structure ShownPeer where
  publicKey : Vector UInt8 32
  presharedKey : Option (Vector UInt8 32)
  endpoint : Option (IpAddr × Fin 65536)
  allowedIps : List IpNetwork
  latestHandshake : Nat
  received : Nat
  sent : Nat
  persistentKeepalive : Option (Fin 65536)

structure ShownInterface where
  privateKey : Option (Vector UInt8 32)
  publicKey : Option (Vector UInt8 32)
  listenPort : Fin 65536
  fwmark : Option Nat
  peers : List ShownPeer

def keyField (key : Vector UInt8 32) : Text := Base64.standard.encode key.toList

def decimalField (number : Nat) : Text := Nat.toDigits 10 number

/-- What stands for an absent value. -/
def fieldOr {Value : Type} (absent : String) (field : Value → Text) (value : Option Value) : Text :=
  value.elim absent.toList field

def endpointField : IpAddr × Fin 65536 → Text
  | (.v4 address, port) => renderIpv4 address ++ ':' :: decimalField port
  | (.v6 address, port) => '[' :: (renderIpv6 address ++ "]:".toList ++ decimalField port)

def ipsField (ips : List IpNetwork) : Text :=
  if ips = [] then "(none)".toList else [','].intercalate (ips.map IpNetwork.render)

def fwmarkField (mark : Nat) : Text := "0x".toList ++ Nat.toDigits 16 mark

def dumpLine (fields : List Text) : Text := ['\t'].intercalate fields ++ ['\n']

def ShownPeer.fields (peer : ShownPeer) : List Text :=
  [keyField peer.publicKey, fieldOr "(none)" keyField peer.presharedKey,
    fieldOr "(none)" endpointField peer.endpoint, ipsField peer.allowedIps,
    decimalField peer.latestHandshake, decimalField peer.received, decimalField peer.sent,
    fieldOr "off" (decimalField ·) (peer.persistentKeepalive.map Fin.val)]

def ShownInterface.fields (shown : ShownInterface) : List Text :=
  [fieldOr "(none)" keyField shown.privateKey, fieldOr "(none)" keyField shown.publicKey,
    decimalField shown.listenPort, fieldOr "off" fwmarkField shown.fwmark]

def ShownInterface.dump (shown : ShownInterface) : Text :=
  dumpLine shown.fields ++ shown.peers.flatMap (fun peer => dumpLine peer.fields)

/-- The peer as the gateway knows it. -/
def ShownPeer.live (peer : ShownPeer) : LivePeer :=
  ⟨String.ofList (keyField peer.publicKey), peer.allowedIps.map networkText⟩

end WslVpn
