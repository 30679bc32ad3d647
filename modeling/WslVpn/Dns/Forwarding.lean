import WslVpn.AddressSpace.Text
import WslVpn.Dns.Reply

/-! What the resolver asks of others: a name that no override answers goes to the nameservers of the
system, one after the other. And the client that asks the resolver itself.
-/

namespace WslVpn.Dns

open AddressSpace

structure SocketAddr where
  ip : IpAddr
  port : Nat
  /-- Of an IPv6 address: the interface that it is local to. -/
  scope : Nat
  deriving DecidableEq

/-- Where forwarded queries go. -/
inductive Upstreams where
  | fixed (list : List SocketAddr)
  /-- The `nameserver` lines of a file, which is read again for every query. -/
  | resolvConf
  deriving DecidableEq

/-- The server that a line of a resolv.conf names, without its scope. -/
def nameserverOn (line : Text) : Option SocketAddr :=
  match splitWhitespace line with
  | key :: value :: _ =>
      if key = "nameserver".toList then
        (IpAddr.parse (value.takeWhile (· ≠ '%'))).map (fun ip => ⟨ip, 53, 0⟩)
      else none
  | _ => none

def parseResolvConf (text : Text) : List SocketAddr := (lines text).filterMap nameserverOn

/-- The servers to try, without the resolver itself. The file has this text if it can be read. -/
def Upstreams.resolve (upstreams : Upstreams) (conf : Option Text) (own : SocketAddr)
    : List SocketAddr :=
  let all := match upstreams with
    | fixed list => list
    | resolvConf => (conf.map parseResolvConf).getD []
  all.filter (· ≠ own)

/-- The room for a datagram. The rest of a longer one is lost. -/
def bufferLen : Nat := 4096

/-- What comes back from a server that is sent a query, up to the deadline: the datagrams from its
address, and the bytes on a connection to it.
-/
structure Network where
  datagrams : SocketAddr → Bytes → List Bytes
  stream : SocketAddr → Bytes → Bytes

/-- The first datagram with the id of the query. -/
def forwardUdp (net : Network) (upstream : SocketAddr) (query : Bytes) (id : Nat) : Option Bytes :=
  ((net.datagrams upstream query).map (·.take bufferLen)).find?
    (fun datagram => Wire.u16At datagram 0 = some id)

/-- The first message on the connection. -/
def forwardTcp (net : Network) (upstream : SocketAddr) (query : Bytes) : Option Bytes :=
  (readFrame (net.stream upstream (frame query))).map Prod.fst

/-- The upstreams that are asked, one after the other, and what the first one says that answers. -/
def forward (attempt : SocketAddr → Option Bytes) : List SocketAddr → List SocketAddr × Option Bytes
  | [] => ([], none)
  | upstream :: rest =>
      match attempt upstream with
      | some reply => ([upstream], some reply)
      | none =>
          let (asked, reply) := forward attempt rest
          (upstream :: asked, reply)

structure ServerConfig where
  upstreams : Upstreams
  ttl : Nat

/-- The reply to a query, and whom it was sent on to. -/
structure Served where
  reply : Option Bytes
  asked : List SocketAddr
  deriving DecidableEq

/-- One query in, at most one reply out, with the table as it is once it has been refreshed. -/
def serve (config : ServerConfig) (own : SocketAddr) (table : Overrides) (conf : Option Text)
    (net : Network) (transport : Transport) (query : Bytes)
    : Served :=
  match handle config.ttl table query with
  | .forwarded question =>
      let attempt := fun upstream =>
        match transport with
        | .udp => forwardUdp net upstream query question.id
        | .tcp => forwardTcp net upstream query
      let (asked, reply) := forward attempt (config.upstreams.resolve conf own)
      ⟨(Handling.forwarded question).reply (fun _ => reply), asked⟩
  | handling => ⟨handling.reply (fun _ => none), []⟩

/-- A datagram is served as far as there is room for it. -/
def serveUdp (config : ServerConfig) (own : SocketAddr) (table : Overrides) (conf : Option Text)
    (net : Network) (datagram : Bytes)
    : Served :=
  serve config own table conf net .udp (datagram.take bufferLen)

-----------------------------------------------------------------------------------------
-- The client
-----------------------------------------------------------------------------------------

inductive ClientError where
  | timeout
  | unreadable
  | wrongId
  deriving DecidableEq

/-- Ask a resolver for the records of a name. `server` is its first datagram to what it is sent, if one
comes in time.
-/
def query (server : Bytes → Option Bytes) (id : UInt16) (name : Text) (qtype : UInt16)
    : Except ClientError Wire.Response :=
  match server (Wire.buildQuery id name qtype) with
  | none => .error .timeout
  | some datagram =>
      match Wire.parseResponse (datagram.take bufferLen) with
      | none => .error .unreadable
      | some response => if response.id = id.toNat then .ok response else .error .wrongId

/-- Ask a resolver for the probe's name. -/
def probe (server : Bytes → Option Bytes) : Bool :=
  match server (Wire.buildQuery 0x5a5a probeName 1) with
  | none => false
  | some datagram => (Wire.parseResponse (datagram.take 512)).any (·.id = 0x5a5a)

end WslVpn.Dns
