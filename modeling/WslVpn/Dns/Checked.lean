import WslVpn.Fallible.Commands
import WslVpn.Dns.Reply

/-! The two parsers of the wire format step by step, with whatever could go wrong in each: an offset that
does not fit a machine word, a slice that is not there, a loop without an end. What they read, and where
their cursor has been, is recorded.
-/

namespace WslVpn.Dns

/-- The width of a machine word. -/
structure Platform where
  bits : Nat
  wide : 32 ≤ bits

/-- A byte slice. The language has none of more bytes than a signed word can count. -/
structure Buffer (platform : Platform) where
  bytes : Bytes
  fits : bytes.length < 2 ^ (platform.bits - 1)

/-- What a parser has done. -/
structure Trace where
  /-- The offsets of bytes that were read one by one. -/
  bytes : List Nat
  /-- The two ends of each slice that was taken. -/
  slices : List (Nat × Nat)
  /-- The values of the cursor, the last one first. -/
  cursors : List Nat

/-- Why a parser stops. -/
inductive Stop (Error : Type) where
  | returned (error : Error)
  | panicked
  /-- A loop goes on although every byte has had its round. -/
  | unfinished

namespace Checked

open Fallible

abbrev Parser (Error Value : Type) := Command Trace (Stop Error) Value

/-- `found.ok_or(error)?`. -/
def require {Error Value : Type} (error : Error) (found : Option Value) : Parser Error Value :=
  (found.map pure).getD (throw (.returned error))

section Steps

variable {Error : Type} {platform : Platform} (buf : Buffer platform)

/-- An addition of machine words. -/
def add (platform : Platform) (first second : Nat) : Parser Error Nat :=
  if first + second < 2 ^ platform.bits then pure (first + second) else throw .panicked

/-- The cursor is here from now on. -/
def moveTo (offset : Nat) : Parser Error PUnit :=
  modify (fun trace => { trace with cursors := offset :: trace.cursors })

/-- `buf.get(offset)`. -/
def byteAt (offset : Nat) : Parser Error (Option UInt8) :=
  if offset < buf.bytes.length then do
    modify (fun trace => { trace with bytes := offset :: trace.bytes })
    return buf.bytes[offset]?
  else return none

/-- The bytes between two offsets that are in the buffer and in order. -/
def take (start stop : Nat) : Parser Error Bytes := do
  modify (fun trace => { trace with slices := (start, stop) :: trace.slices })
  return (buf.bytes.drop start).take (stop - start)

/-- `buf.get(start..stop)`. -/
def sliceAt (start stop : Nat) : Parser Error (Option Bytes) :=
  if start ≤ stop ∧ stop ≤ buf.bytes.length then some <$> take buf start stop else return none

/-- `buf[start..stop]`. -/
def sliceOf (start stop : Nat) : Parser Error Bytes :=
  if start ≤ stop ∧ stop ≤ buf.bytes.length then take buf start stop else throw .panicked

def u16At (offset : Nat) : Parser Error (Option Nat) := do
  let high ← byteAt buf offset
  if high.isNone then return none
  else
    let next ← add platform offset 1
    let low ← byteAt buf next
    return high.bind (fun high => low.map (fun low => high.toNat * 256 + low.toNat))

end Steps

-----------------------------------------------------------------------------------------
-- Queries
-----------------------------------------------------------------------------------------

section Queries

open Wire

variable {platform : Platform} (buf : Buffer platform)

/-- The labels from the cursor on, and the offset behind the empty one. -/
def readLabels (malformed : QueryError) : Nat → Nat → Nat → Parser QueryError (List Bytes × Nat)
  | 0, _, _ => throw .unfinished
  | rounds + 1, offset, nameLen => do
      let len ← require malformed (← byteAt buf offset)
      let offset ← add platform offset 1
      moveTo offset
      if len = 0 then return ([], offset)
      else if len &&& 0xc0 ≠ 0 then throw (.returned malformed)
      else
        let stop ← add platform offset len.toNat
        let label ← require malformed (← sliceAt buf offset stop)
        let nameLen ← add platform nameLen (← add platform len.toNat 1)
        if 255 < nameLen then throw (.returned malformed)
        else
          let offset ← add platform offset len.toNat
          moveTo offset
          let later ← readLabels malformed rounds offset nameLen
          return (label :: later.1, later.2)

/-- Read the question out of a query. -/
def parseQuery : Parser QueryError Question :=
  if buf.bytes.length < headerLen then throw (.returned .truncated)
  else do
    let id ← require .truncated (← u16At buf 0)
    let flags ← require .truncated (← u16At buf 2)
    let malformed := QueryError.malformed id
    if flags &&& 0x8000 ≠ 0 then throw (.returned (malformed rcodeFormerr))
    else if (flags >>> 11) &&& 0x0f ≠ 0 then throw (.returned (malformed rcodeNotimp))
    else
      let count ← u16At buf 4
      if count ≠ some 1 then throw (.returned (malformed rcodeFormerr))
      else
        moveTo headerLen
        let name ← readLabels buf (malformed rcodeFormerr) buf.bytes.length headerLen 0
        let qtype ← require (malformed rcodeFormerr) (← u16At buf name.2)
        let qclass ← require (malformed rcodeFormerr) (← u16At buf (← add platform name.2 2))
        let stop ← add platform name.2 4
        let raw ← sliceOf buf headerLen stop
        return {
          id
          name := dottedName name.1
          qtype
          qclass
          flags := flags &&& 0x7900
          raw
        }

end Queries

-----------------------------------------------------------------------------------------
-- Responses
-----------------------------------------------------------------------------------------

section Responses

open AddressSpace
open Wire

variable {platform : Platform} (buf : Buffer platform)

/-- The offset behind a name. -/
def skipName : Nat → Nat → Parser Unit Nat
  | 0, _ => throw .unfinished
  | rounds + 1, offset => do
      let len ← require () (← byteAt buf offset)
      if len = 0 then add platform offset 1
      else if len &&& 0xc0 = 0xc0 then
        let next ← add platform offset 1
        let _ ← require () (← byteAt buf next)
        add platform offset 2
      else
        let width ← add platform 1 len.toNat
        let offset ← add platform offset width
        moveTo offset
        skipName rounds offset

/-- The loop over the questions. -/
def skipQuestions : Nat → Nat → Parser Unit Nat
  | 0, offset => return offset
  | count + 1, offset => do
      let behind ← skipName buf (buf.bytes.length + 1) offset
      let offset ← add platform behind 4
      moveTo offset
      skipQuestions count offset

/-- One round of the loop over the answers. -/
def readAnswer (offset : Nat) : Parser Unit (Option IpAddr × Nat) := do
  let offset ← skipName buf (buf.bytes.length + 1) offset
  moveTo offset
  let rtype ← require () (← u16At buf offset)
  let rdlen ← require () (← u16At buf (← add platform offset 8))
  let start ← add platform offset 10
  let stop ← add platform (← add platform offset 10) rdlen
  let data ← require () (← sliceAt buf start stop)
  let width ← add platform 10 rdlen
  let offset ← add platform offset width
  moveTo offset
  return (addressIn rtype data, offset)

/-- The loop over the answers. -/
def readAnswers : Nat → Nat → Parser Unit (List IpAddr × Nat)
  | 0, offset => return ([], offset)
  | count + 1, offset => do
      let answer ← readAnswer buf offset
      let later ← readAnswers count answer.2
      return (answer.1.toList ++ later.1, later.2)

/-- Read the A/AAAA answers out of a response. -/
def parseResponse : Parser Unit Response := do
  let id ← require () (← u16At buf 0)
  let flags ← require () (← u16At buf 2)
  if flags &&& 0x8000 = 0 then throw (.returned ())
  else
    let qd ← require () (← u16At buf 4)
    let an ← require () (← u16At buf 6)
    moveTo headerLen
    let offset ← skipQuestions buf qd headerLen
    let answers ← readAnswers buf an offset
    return {
      id
      rcode := flags &&& 0x000f
      authoritative := flags &&& 0x0400 ≠ 0
      addresses := answers.1
    }

end Responses

end Checked

end WslVpn.Dns
