import WslVpn.Utf8
import WslVpn.Octets.BigEndian
import WslVpn.Dns.Server

/-! The replies that the resolver writes, over UDP and in the frames of a TCP connection, and the reader
of replies.
-/

namespace WslVpn.Dns

open AddressSpace
open Octets

namespace Wire

def typeA : Nat := 1
def typeAaaa : Nat := 28
def classIn : Nat := 1

def rcodeNoerror : Nat := 0
def rcodeServfail : Nat := 2

/-- A reply to a question. `answers` is cut to two bytes where it is written. -/
def header (question : Question) (rcode : Nat) (authoritative : Bool) (answers : Nat) : Bytes :=
  let flags := 0x8000 ||| question.flags ||| 0x0080 ||| rcode
  let flags := if authoritative then flags ||| 0x0400 else flags
  bytes 2 question.id ++ bytes 2 flags ++ bytes 2 1 ++ bytes 2 answers ++ bytes 4 0

/-- The addresses of the family that a type asks for. -/
def ofFamily (qtype : Nat) (addresses : List IpAddr) : List IpAddr :=
  if qtype = typeA then addresses.filter IpAddr.isIpv4
  else if qtype = typeAaaa then addresses.filter (fun address => !address.isIpv4)
  else []

/-- The addresses that a question is answered with. -/
def records (question : Question) (addresses : List IpAddr) : List IpAddr :=
  if question.qclass = classIn then ofFamily question.qtype addresses else []

/-- A record behind a pointer to the name of the question. -/
def record (ttl : UInt32) (address : IpAddr) : Bytes :=
  [0xc0, 0x0c] ++
    match address with
    | .v4 v4 =>
        bytes 2 typeA ++ bytes 2 classIn ++ bytes 4 ttl.toNat ++ bytes 2 4 ++ bytes 4 v4.toNat
    | .v6 v6 =>
        bytes 2 typeAaaa ++ bytes 2 classIn ++ bytes 4 ttl.toNat ++ bytes 2 16 ++ bytes 16 v6.toNat

/-- A response to the question with the addresses of the family that it asked for. -/
def answer (question : Question) (addresses : List IpAddr) (ttl : UInt32) : Bytes :=
  let records := records question addresses
  header question rcodeNoerror true (records.length % 65536) ++ question.raw
    ++ records.flatMap (record ttl)

def error (question : Question) (rcode : Nat) : Bytes :=
  header question rcode false 0 ++ question.raw

/-- An error response to a query that could not be parsed past its header. -/
def errorForId (id rcode : Nat) : Bytes := bytes 2 id ++ bytes 2 (0x8080 ||| rcode) ++ bytes 8 0

/-- A label behind its length, cut to what a length byte can say. -/
def cutLabel (label : Text) : Bytes :=
  UInt8.ofNat (min (byteLength label) 63) :: (Utf8.encode label).take (min (byteLength label) 63)

/-- A query for the records of a name. The server does not need this. -/
def buildQuery (id : UInt16) (name : Text) (qtype : UInt16) : Bytes :=
  let labels := ((trimEndDots name).splitOn '.').filter (· ≠ [])
  bytes 2 id.toNat ++ bytes 2 0x0100 ++ bytes 2 1 ++ bytes 6 0 ++ labels.flatMap cutLabel ++ [0]
    ++ bytes 2 qtype.toNat ++ bytes 2 classIn

/-- What a response said, for a client that only cares about addresses. -/
structure Response where
  id : Nat
  rcode : Nat
  authoritative : Bool
  addresses : List IpAddr
  deriving DecidableEq

/-- The offset behind a name. -/
def skipName (buf : Bytes) (offset : Nat) : Option Nat :=
  match _found : buf[offset]? with
  | none => none
  | some len =>
      if len = 0 then some (offset + 1)
      else if len &&& 0xc0 = 0xc0 then (buf[offset + 1]?).map (fun _ => offset + 2)
      else skipName buf (offset + 1 + len.toNat)
termination_by buf.length - offset
decreasing_by
  have inside := (List.getElem?_eq_some_iff.mp _found).1
  omega

/-- The offset behind some questions. -/
def skipQuestions (buf : Bytes) : Nat → Nat → Option Nat
  | 0, offset => some offset
  | count + 1, offset => do
      let behind ← skipName buf offset
      skipQuestions buf count (behind + 4)

/-- The address in the data of a record. -/
def addressIn (rtype : Nat) (data : Bytes) : Option IpAddr :=
  if rtype = typeA ∧ data.length = 4 then some (.v4 (BitVec.ofNat 32 (number data)))
  else if rtype = typeAaaa ∧ data.length = 16 then some (.v6 (BitVec.ofNat 128 (number data)))
  else none

/-- One record, and the offset behind it. Other types of records have no address. -/
def readAnswer (buf : Bytes) (offset : Nat) : Option (Option IpAddr × Nat) := do
  let behind ← skipName buf offset
  let rtype ← u16At buf behind
  let rdlen ← u16At buf (behind + 8)
  let data ← slice buf (behind + 10) rdlen
  some (addressIn rtype data, behind + 10 + rdlen)

/-- The addresses in some records, and the offset behind them. -/
def readAnswers (buf : Bytes) : Nat → Nat → Option (List IpAddr × Nat)
  | 0, offset => some ([], offset)
  | count + 1, offset => do
      let (address, behind) ← readAnswer buf offset
      let (addresses, final) ← readAnswers buf count behind
      some (address.toList ++ addresses, final)

def parseResponse (buf : Bytes) : Option Response := do
  let id ← u16At buf 0
  let flags ← u16At buf 2
  if flags &&& 0x8000 = 0 then none
  else
    let qd ← u16At buf 4
    let an ← u16At buf 6
    let offset ← skipQuestions buf qd headerLen
    let (addresses, _) ← readAnswers buf an offset
    some {
      id
      rcode := flags &&& 0x000f
      authoritative := flags &&& 0x0400 ≠ 0
      addresses
    }

end Wire

inductive Transport where
  | udp
  | tcp
  deriving DecidableEq

/-- The reply to a query. `forward` is what the first upstream that answers says. -/
def Handling.reply (forward : Wire.Question → Option Bytes) : Handling → Option Bytes
  | dropped => none
  | refused id rcode => some (Wire.errorForId id rcode)
  | probed question => some (Wire.answer question [] 0)
  | answered question found ttl =>
      some (Wire.answer question found.records.addresses (UInt32.ofNat ttl))
  | forwarded question => some ((forward question).getD (Wire.error question Wire.rcodeServfail))

/-- A message on a TCP connection, behind its length. The length is cut to two bytes. -/
def frame (message : Bytes) : Bytes := bytes 2 (message.length % 65536) ++ message

/-- The first message on a connection, and what comes behind it. -/
def readFrame (stream : Bytes) : Option (Bytes × Bytes) := do
  let len ← slice stream 0 2
  let message ← slice stream 2 (number len)
  some (message, stream.drop (2 + number len))

theorem readFrame_shorter {stream message rest : Bytes}
    (read : readFrame stream = some (message, rest)) : rest.length < stream.length := by
  cases len : slice stream 0 2 with
  | none => simp [readFrame, len] at read
  | some width =>
      have inside := (slice_some len).2.1
      cases content : slice stream 2 (number width) with
      | none => simp [readFrame, len, content] at read
      | some =>
          simp only [readFrame, len, content, Option.bind_eq_bind, Option.bind_some,
            Option.some.injEq, Prod.mk.injEq] at read
          rw [← read.2, List.length_drop]
          omega

/-- The messages on a connection, up to one that is not complete. -/
def messages (stream : Bytes) : List Bytes :=
  match _read : readFrame stream with
  | none => []
  | some (message, rest) => message :: messages rest
termination_by stream.length
decreasing_by exact readFrame_shorter _read

/-- What is written to a connection on which a client sends the stream. -/
def serveTcp (handler : Bytes → Option Bytes) (stream : Bytes) : Bytes :=
  match _read : readFrame stream with
  | none => []
  | some (query, rest) => ((handler query).map frame).getD [] ++ serveTcp handler rest
termination_by stream.length
decreasing_by exact readFrame_shorter _read

end WslVpn.Dns
