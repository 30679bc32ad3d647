import WslVpn.Dns.Properties.AnswerDecoding
import WslVpn.Dns.Properties.SavedTables

/-! The numbers that a reply says of itself: how many records it has, and over TCP how many bytes. Both are
cut to two bytes, and a hosts file may give a name more addresses than that leaves room for.
-/

open Separated

namespace WslVpn.Dns

open AddressSpace
open Octets

/-- The records behind the question of a reply are as many, and nothing is behind them. -/
def Carries (reply : Bytes) (count : Nat) : Prop :=
  ∃ offset addresses, Wire.skipQuestions reply 1 Wire.headerLen = some offset
    ∧ Wire.readAnswers reply count offset = some (addresses, reply.length)

/-- The header of the reply says how many records it carries, and over TCP the length in front of it is
that of the reply, so that whatever is written behind it is found there.
-/
structure Honest (transport : Transport) (reply : Bytes) : Prop where
  ancount : ∃ count, Carries reply count ∧ Wire.u16At reply 6 = some count
  length : transport = .tcp → Wire.u16At (frame reply) 0 = some reply.length
  inStep : transport = .tcp → ∀ later, readFrame (frame reply ++ later) = some (reply, later)

/-- The records that are asked for can be counted in two bytes, and over TCP the reply's bytes, too. -/
structure Fits (transport : Transport) (question : Wire.Question) (addresses : List IpAddr) : Prop where
  records : (addresses.filter question.asksFor).length < 65536
  bytes
    : transport = .tcp →
        Wire.headerLen + question.raw.length + (addresses.filter question.asksFor).length
          * (if question.qtype = Wire.typeA then 16 else 28) < 65536

-----------------------------------------------------------------------------------------
-- Records
-----------------------------------------------------------------------------------------

section Records

open Wire

variable {buf : Bytes} {offset behind : Nat}

theorem inside_of_readAnswer {address : Option IpAddr}
    (found : readAnswer buf offset = some (address, behind)) : offset < buf.length := by
  cases name : skipName buf offset with
  | none => simp [readAnswer, name] at found
  | some =>
      have within := skipName_inside name
      omega

/-- What reading a record more comes to. -/
theorem readAnswers_succ {count final : Nat} {found : List IpAddr}
    (read : readAnswers buf (count + 1) offset = some (found, final))
    : ∃ address behind later, readAnswer buf offset = some (address, behind)
        ∧ readAnswers buf count behind = some (later, final) := by
  rw [readAnswers] at read
  cases first : readAnswer buf offset with
  | none => simp [first] at read
  | some pair =>
      obtain ⟨address, behind⟩ := pair
      cases others : readAnswers buf count behind with
      | none => simp [first, others] at read
      | some rest =>
          obtain ⟨later, last⟩ := rest
          simp only [first, others, Option.bind_eq_bind, Option.bind_some, Option.some.injEq,
            Prod.mk.injEq] at read
          exact ⟨address, behind, later, rfl, by rw [others, read.2]⟩

/-- Records that reach to the end can be counted in one way, by induction on them. -/
theorem readAnswers_unique {count other : Nat} {found found' : List IpAddr}
    (read : readAnswers buf count offset = some (found, buf.length))
    (read' : readAnswers buf other offset = some (found', buf.length))
    : count = other := by
  induction count generalizing other offset found found' with
  | zero =>
      cases other with
      | zero => rfl
      | succ other =>
          obtain ⟨_, _, _, first, _⟩ := readAnswers_succ read'
          have inside := inside_of_readAnswer first
          cases read
          omega
  | succ count ih =>
      obtain ⟨_, _, _, first, rest⟩ := readAnswers_succ read
      cases other with
      | zero =>
          have inside := inside_of_readAnswer first
          cases read'
          omega
      | succ other =>
          obtain ⟨_, _, _, first', rest'⟩ := readAnswers_succ read'
          rw [first] at first'
          cases first'
          rw [ih rest rest']

theorem Carries.unique {reply : Bytes} {count other : Nat} (carries : Carries reply count)
    (carries' : Carries reply other) : count = other := by
  obtain ⟨offset, _, skipped, read⟩ := carries
  obtain ⟨offset', _, skipped', read'⟩ := carries'
  rw [skipped] at skipped'
  cases skipped'
  exact readAnswers_unique read read'

/-- The bytes of the records that a question asks for. -/
theorem records_length (question : Question) (addresses : List IpAddr) (ttl : UInt32)
    : ((records question addresses).flatMap (record ttl)).length
      = (addresses.filter question.asksFor).length
        * (if question.qtype = typeA then 16 else 28) := by
  rw [records_eq]
  induction addresses with
  | nil => simp
  | cons address addresses ih =>
      rw [List.filter_cons]
      split
      · next asked =>
          have size : (record ttl address).length = if question.qtype = typeA then 16 else 28 := by
            cases address with
            | v4 address =>
                simp only [Question.asksFor, Bool.and_eq_true, beq_iff_eq] at asked
                simp [record_length, IpAddr.isIpv4, asked.2]
            | v6 address =>
                simp only [Question.asksFor, Bool.and_eq_true, beq_iff_eq] at asked
                simp [record_length, IpAddr.isIpv4, asked.2, typeA, typeAaaa]
          rw [List.flatMap_cons, List.length_append, ih, List.length_cons, size, Nat.succ_mul,
            Nat.add_comm]
      · exact ih

theorem answer_length (question : Question) (addresses : List IpAddr) (ttl : UInt32)
    : (answer question addresses ttl).length
      = headerLen + question.raw.length + (addresses.filter question.asksFor).length
        * (if question.qtype = typeA then 16 else 28) := by
  rw [answer, List.length_append, List.length_append, records_length]
  simp [header, headerLen]

end Records

-----------------------------------------------------------------------------------------
-- Frames
-----------------------------------------------------------------------------------------

section Frames

variable {message later : Bytes}

theorem frame_length_read (message : Bytes)
    : Wire.u16At (frame message) 0 = some (message.length % 65536) := by
  have start : (frame message).drop 0 = bytes 2 (message.length % 65536) ++ message := rfl
  have value := @number_bytes_of_lt 2 (message.length % 65536) (Nat.mod_lt _ (by decide))
  rw [u16At_part start length_bytes, value]

theorem readFrame_frame (short : message.length < 65536)
    : readFrame (frame message ++ later) = some (message, later) := by
  have whole : frame message ++ later = bytes 2 message.length ++ (message ++ later) := by
    rw [frame, List.append_assoc, Nat.mod_eq_of_lt short]
  have value := @number_bytes_of_lt 2 message.length short
  have first := @slice_append _ [] (bytes 2 message.length) (message ++ later)
  have second := @slice_append _ (bytes 2 message.length) message later
  have rest : (bytes 2 message.length ++ (message ++ later)).drop (2 + message.length) = later := by
    rw [← List.append_assoc, List.drop_left' (by simp)]
  rw [List.nil_append, List.length_nil, length_bytes] at first
  rw [length_bytes] at second
  rw [whole, readFrame, first, Option.bind_eq_bind, Option.bind_some, value, second,
    Option.bind_some, rest]

theorem messages_frame (short : message.length < 65536)
    : messages (frame message ++ later) = message :: messages later := by
  rw [messages, readFrame_frame short]

/-- A client finds the replies to its queries in their order, as long as each has fewer than 65536
bytes. By induction on the queries.
-/
theorem messages_serveTcp {handler : Bytes → Option Bytes} {stream : Bytes}
    (short : ∀ query ∈ messages stream, ∀ reply, handler query = some reply → reply.length < 65536)
    : messages (serveTcp handler stream) = (messages stream).filterMap handler := by
  induction stream using messages.induct with
  | case1 stream read =>
      rw [serveTcp, messages, messages, read]
      rfl
  | case2 stream query rest read ih =>
      have queries : messages stream = query :: messages rest := by rw [messages, read]
      rw [queries] at short ⊢
      have later := ih (fun query member => short query (List.mem_cons_of_mem _ member))
      have served : serveTcp handler stream
          = ((handler query).map frame).getD [] ++ serveTcp handler rest := by
        rw [serveTcp, read]
      rw [served]
      cases handled : handler query with
      | none =>
          rw [List.filterMap_cons_none handled]
          exact later
      | some reply =>
          rw [List.filterMap_cons_some handled, ← later]
          exact messages_frame (short query List.mem_cons_self reply handled)

end Frames

/-- Only a query that is read is answered from the table. -/
theorem parsed_of_answered {ttl written : Nat} {table : Overrides} {query : Bytes}
    {question : Wire.Question} {found : Found}
    (answered : handle ttl table query = .answered question found written)
    : Wire.parseQuery query = .ok question := by
  unfold handle at answered
  split at answered
  · cases answered
  · cases answered
  · next parsed =>
      split at answered
      · cases answered
      · split at answered
        · cases answered
          exact parsed
        · cases answered

/-- What an answer says of itself is true if its records and its bytes can be counted in two bytes. -/
theorem answer_honest (transport : Transport) {query : Bytes} {question : Wire.Question}
    (parsed : Wire.parseQuery query = .ok question) (addresses : List IpAddr) (ttl : UInt32)
    : Honest transport (Wire.answer question addresses ttl) ↔ Fits transport question addresses := by
  have headed := answer_headed parsed addresses ttl
  obtain ⟨skipped, read⟩ := answer_records parsed addresses ttl
  have carries : Carries (Wire.answer question addresses ttl)
      (addresses.filter question.asksFor).length := by
    rw [← records_eq]
    exact ⟨_, _, skipped, read⟩
  have total := answer_length question addresses ttl
  constructor
  · intro honest
    refine ⟨?_, ?_⟩
    · obtain ⟨count, carried, ancount⟩ := honest.ancount
      obtain rfl := carried.unique carries
      have same := headed.ancount.symm.trans ancount
      rw [records_eq, Option.some.injEq] at same
      omega
    · intro tcp
      have same := (frame_length_read _).symm.trans (honest.length tcp)
      rw [Option.some.injEq] at same
      omega
  · intro fits
    refine ⟨⟨_, carries, ?_⟩, ?_, ?_⟩
    · rw [headed.ancount, records_eq, Nat.mod_eq_of_lt fits.records]
    · intro tcp
      rw [frame_length_read, total, Nat.mod_eq_of_lt (fits.bytes tcp)]
    · intro tcp later
      exact readFrame_frame (total ▸ fits.bytes tcp)

/-- A reply with the addresses of an override is honest if and only if its records and its bytes can be
counted in two bytes.
-/
theorem honest_iff (transport : Transport) {ttl written : Nat} {table : Overrides} {query : Bytes}
    {question : Wire.Question} {found : Found}
    (answered : handle ttl table query = .answered question found written)
    (forward : Wire.Question → Option Bytes)
    : ∃ reply, (handle ttl table query).reply forward = some reply
        ∧ (Honest transport reply ↔ Fits transport question found.records.addresses) := by
  refine ⟨_, congrArg (Handling.reply forward) answered, ?_⟩
  exact answer_honest transport (parsed_of_answered answered) _ _

-----------------------------------------------------------------------------------------
-- A hosts file with as many addresses as are wanted
-----------------------------------------------------------------------------------------

section Hosts

variable {name : Text} {table : Overrides} {address : IpAddr} {addresses : List IpAddr}

/-- The name stands in a hosts file as it is entered. -/
structure EntersAs (name : Text) : Prop where
  normal : normalise name = .ok name
  exact : stripStart wildcardStart name = none
  visible : ∀ char ∈ name, isWhitespace char = false ∧ char ≠ '#'

/-- The addresses of a name, a line for each. -/
def hostsText (name : Text) (addresses : List IpAddr) : Text :=
  addresses.flatMap (fun address => address.render ++ '\t' :: name ++ ['\n'])

/-- The table that addresses of a name are entered into. -/
def entered (name : Text) (addresses : List IpAddr) (table : Overrides) : Overrides :=
  addresses.foldl (fun table address => table.insert address name) table

theorem hostsText_eq
    : hostsText name addresses = (Overrides.entriesOf name addresses).flatMap Entry.line := by
  rw [hostsText, Overrides.entriesOf, List.flatMap_map]
  rfl

theorem entered_eq
    : entered name addresses table = table.enter (Overrides.entriesOf name addresses) := by
  rw [entered, Overrides.enter, Overrides.entriesOf, List.foldl_map]

theorem parse_hostsText (enters : EntersAs name)
    : Overrides.parse (hostsText name addresses) = .ok (entered name addresses .empty) := by
  rw [hostsText_eq, entered_eq]
  refine parse_entries ?_
  intro entry member
  obtain ⟨address, _, rfl⟩ := List.mem_map.mp member
  exact normal_of_normalise enters.normal

/-- The file is read, and the name answers with all of its addresses. -/
theorem parse_hostsText_get (enters : EntersAs name) (distinct : addresses.Nodup)
    (filled : addresses ≠ [])
    : ∃ table, Overrides.parse (hostsText name addresses) = .ok table
        ∧ table.exact.get name = some ⟨addresses⟩ := by
  refine ⟨_, parse_hostsText enters, ?_⟩
  have new : Overrides.empty.slot name = none := by
    rw [Overrides.slot_exact enters.exact]
    rfl
  have known := @Overrides.slot_enter_new .empty name name _ new filled distinct
  rw [if_pos rfl, Overrides.slot_exact enters.exact] at known
  rw [entered_eq]
  exact known

end Hosts

def shortName : Text := "a.b".toList

theorem shortName_enters : EntersAs shortName where
  normal := by rfl
  exact := by rfl
  visible := by
    have each : shortName.all (fun char => !isWhitespace char && char != '#') = true := by decide
    simpa using each

/-- The query for the IPv4 addresses of the short name, and its question. -/
def shortQuery : Bytes := lookupQuery [[0x61], [0x62]]
def shortQuestion : Wire.Question := questionOf lookupHeader [[0x61], [0x62]] lookupTail

theorem shortQuery_answered {table : Overrides} {records : Records}
    (found : table.exact.get shortName = some records)
    : handle 30 table shortQuery = .answered shortQuestion (.exact shortName records) 30 := by
  have parsed : Wire.parseQuery shortQuery = .ok shortQuestion :=
    parseQuery_composed (lookupQuery_composed (by decide)) (by decide)
  have other : ¬ toAsciiLowercase shortQuestion.name = toAsciiLowercase probeName := by
    decide +kernel
  have name : toAsciiLowercase (trimEndDots shortQuestion.name) = shortName := by decide +kernel
  have looked : table.lookup shortQuestion.name = some (.exact shortName records) := by
    simp only [Overrides.lookup, name, found]
  simp only [handle, parsed, if_neg other, looked]

/-- Two addresses are counted and framed as they are. -/
theorem honest_pair
    : ∃ reply, (handle 30 ⟨[(shortName, ⟨[.v4 5, .v4 6]⟩)], []⟩ shortQuery).reply (fun _ => none)
          = some reply
        ∧ Honest .tcp reply := by
  let table : Overrides := ⟨[(shortName, ⟨[.v4 5, .v4 6]⟩)], []⟩
  have found : table.exact.get shortName = some ⟨[.v4 5, .v4 6]⟩ := by decide
  obtain ⟨reply, answered, honest⟩ := honest_iff .tcp (shortQuery_answered found) (fun _ => none)
  refine ⟨reply, answered, honest.mpr ⟨by decide, ?_⟩⟩
  intro _
  decide

/-- 4096 addresses from `10.0.0.0` on. -/
def crowd : List IpAddr :=
  (List.range 4096).map (fun index => .v4 (BitVec.ofNat 32 (0x0a000000 + index)))

theorem crowd_nodup : crowd.Nodup := by
  apply List.nodup_range.map_on
  intro index below other below' same
  rw [List.mem_range] at below below'
  have numbers := congrArg BitVec.toNat (IpAddr.v4.inj same)
  simp only [BitVec.toNat_ofNat] at numbers
  omega

theorem crowd_asked : (crowd.filter shortQuestion.asksFor).length = 4096 := by
  have all : crowd.filter shortQuestion.asksFor = crowd := by
    apply List.filter_eq_self.mpr
    intro address member
    obtain ⟨_, _, rfl⟩ := List.mem_map.mp member
    rfl
  rw [all, crowd, List.length_map, List.length_range]

theorem many_not_honest {table : Overrides} {addresses : List IpAddr}
    (many : (addresses.filter shortQuestion.asksFor).length = 4096)
    (found : table.exact.get shortName = some ⟨addresses⟩)
    : ∃ reply, (handle 30 table shortQuery).reply (fun _ => none) = some reply
        ∧ ¬ Honest .tcp reply := by
  have answered := shortQuery_answered found
  refine ⟨_, congrArg (Handling.reply (fun _ => none)) answered, ?_⟩
  intro honest
  have fits := (answer_honest .tcp (parsed_of_answered answered) _ _).mp honest
  have short := fits.bytes rfl
  change _ + (addresses.filter shortQuestion.asksFor).length * _ < _ at short
  rw [many] at short
  exact absurd short (by decide)

/-- A file with a name for 4096 addresses is read, and the TCP reply for the name is out of step. -/
theorem crowd_out_of_step
    : ∃ table reply, Overrides.parse (hostsText shortName crowd) = .ok table
        ∧ (handle 30 table shortQuery).reply (fun _ => none) = some reply
        ∧ ¬ Honest .tcp reply := by
  have filled : crowd ≠ [] := by
    intro nothing
    have count := crowd_asked
    rw [nothing] at count
    cases count
  obtain ⟨table, parsed, found⟩ := parse_hostsText_get shortName_enters crowd_nodup filled
  obtain ⟨reply, handled, dishonest⟩ := many_not_honest crowd_asked found
  exact ⟨table, reply, parsed, handled, dishonest⟩

end WslVpn.Dns
