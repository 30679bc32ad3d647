import WslVpn.Dns.Reply
import WslVpn.Dns.Properties.QueryGrammar

/-! The reader of replies reads what has been answered: it passes over the question and over each
pointer, and finds the addresses of the records.
-/

namespace WslVpn.Dns

open AddressSpace
open Octets

/-- The question asks for addresses of this kind. -/
def Wire.Question.asksFor (question : Wire.Question) : IpAddr → Bool
  | .v4 _ => question.qclass == Wire.classIn && question.qtype == Wire.typeA
  | .v6 _ => question.qclass == Wire.classIn && question.qtype == Wire.typeAaaa

-----------------------------------------------------------------------------------------
-- Reading at an offset
-----------------------------------------------------------------------------------------

section Reading

open Wire

variable {buf part back : Bytes} {offset : Nat} {labels : List Bytes} {ttl : UInt32}
  {address : IpAddr} {addresses : List IpAddr}

theorem drop_behind {length : Nat} (found : buf.drop offset = part ++ back)
    (size : part.length = length) : buf.drop (offset + length) = back := by
  rw [← List.drop_drop, found, ← size, List.drop_left]

theorem u16At_part (found : buf.drop offset = part ++ back) (two : part.length = 2)
    : u16At buf offset = some (number part) := by
  have inside : offset + 2 ≤ buf.length := by
    have long := congrArg List.length found
    rw [List.length_drop, List.length_append] at long
    omega
  rw [u16At_eq_field inside, field, found, ← two, List.take_left]

theorem slice_part {length : Nat} (found : buf.drop offset = part ++ back)
    (size : part.length = length) (some : 0 < length)
    : slice buf offset length = .some part := by
  have inside : offset + length ≤ buf.length := by
    have long := congrArg List.length found
    rw [List.length_drop, List.length_append] at long
    omega
  rw [slice, if_pos inside, found, ← size, List.take_left]

theorem head_at {byte : UInt8} (found : buf.drop offset = byte :: back)
    : buf[offset]? = some byte ∧ buf.drop (offset + 1) = back := by
  refine ⟨?_, ?_⟩
  · have first := congrArg List.head? found
    rwa [List.head?_drop] at first
  · exact @drop_behind buf [byte] back offset 1 found rfl

/-- A name is passed over label by label, by induction on the labels. -/
theorem skipName_name (found : buf.drop offset = nameBytes labels ++ back)
    (lengths : ∀ label ∈ labels, 0 < label.length ∧ label.length ≤ 63)
    : skipName buf offset = some (offset + (nameBytes labels).length) := by
  induction labels generalizing offset with
  | nil =>
      obtain ⟨root, _⟩ := head_at found
      rw [skipName, root]
      rfl
  | cons label labels ih =>
      obtain ⟨⟨some, few⟩, lengths⟩ := List.forall_mem_cons.mp lengths
      obtain ⟨notZero, plain, size⟩ := length_byte some few
      have shape : nameBytes (label :: labels) ++ back
          = UInt8.ofNat label.length :: (label ++ (nameBytes labels ++ back)) := by
        simp [nameBytes, labelBytes]
      rw [shape] at found
      obtain ⟨first, behind⟩ := head_at found
      have pointer : ¬ UInt8.ofNat label.length &&& 0xc0 = 0xc0 := by
        rw [plain]
        decide
      have total : (nameBytes (label :: labels)).length
          = 1 + label.length + (nameBytes labels).length := by
        rw [nameBytes_length, nameBytes_length, List.map_cons, List.sum_cons]
        omega
      rw [skipName, first]
      simp only [if_neg notZero, if_neg pointer, size]
      rw [ih (drop_behind behind rfl) lengths, total]
      simp only [Option.some.injEq]
      omega

/-- A name ends behind where it begins, and in the buffer. By induction on its labels. -/
theorem skipName_inside {buf : Bytes} {behind : Nat} (found : skipName buf offset = some behind)
    : offset < behind ∧ behind ≤ buf.length := by
  induction offset using skipName.induct buf with
  | case1 offset missing =>
      rw [skipName, missing] at found
      cases found
  | case2 offset here =>
      rw [skipName, here] at found
      cases found
      have inside := (List.getElem?_eq_some_iff.mp here).1
      omega
  | case3 offset len here some pointer =>
      rw [skipName, here] at found
      simp only [if_neg some, if_pos pointer] at found
      obtain ⟨low, second, rfl⟩ := Option.map_eq_some_iff.mp found
      have inside := (List.getElem?_eq_some_iff.mp second).1
      omega
  | case4 offset len here some plain ih =>
      rw [skipName, here] at found
      simp only [if_neg some, if_neg plain] at found
      have later := ih found
      omega

/-- A pointer has two bytes. -/
theorem skipName_pointer {low : UInt8} (found : buf.drop offset = 0xc0 :: low :: back)
    : skipName buf offset = some (offset + 2) := by
  obtain ⟨first, behind⟩ := head_at found
  obtain ⟨second, _⟩ := head_at behind
  rw [skipName, first]
  simp only [second]
  rfl

theorem record_length (ttl : UInt32) (address : IpAddr)
    : (record ttl address).length = 12 + if address.isIpv4 then 4 else 16 := by
  cases address <;> simp [record, IpAddr.isIpv4]

/-- The parts of a record are found where the reader looks for them. -/
theorem readAnswer_parts {rtype rdlen : Nat} {fields data : Bytes}
    (found : buf.drop offset
      = [0xc0, 0x0c] ++ (bytes 2 rtype ++ (fields ++ (bytes 2 rdlen ++ (data ++ back)))))
    (kind : rtype < 256 ^ 2) (six : fields.length = 6) (size : rdlen < 256 ^ 2)
    (filled : data.length = rdlen) (some : 0 < rdlen)
    : readAnswer buf offset = .some (addressIn rtype data, offset + 12 + rdlen) := by
  have typeAt := drop_behind found (rfl : _ = 2)
  have fieldsAt := drop_behind typeAt length_bytes
  have sizeAt := drop_behind fieldsAt six
  have dataAt := drop_behind sizeAt length_bytes
  have rtype_read := u16At_part typeAt length_bytes
  have rdlen_read := u16At_part sizeAt length_bytes
  rw [number_bytes_of_lt kind] at rtype_read
  rw [number_bytes_of_lt size] at rdlen_read
  have behind : offset + 2 + 10 + rdlen = offset + 12 + rdlen := by omega
  have content := slice_part dataAt filled some
  rw [readAnswer, skipName_pointer found, Option.bind_eq_bind, Option.bind_some, rtype_read,
    Option.bind_eq_bind, Option.bind_some]
  change (u16At buf (offset + 2 + 2 + 6)).bind _ = _
  rw [rdlen_read, Option.bind_some]
  change (slice buf (offset + 2 + 2 + 6 + 2) rdlen).bind _ = _
  rw [content, Option.bind_some, behind]

/-- A record is read, and its address is found in it. -/
theorem readAnswer_record (found : buf.drop offset = record ttl address ++ back)
    : readAnswer buf offset = some (some address, offset + (record ttl address).length) := by
  cases address with
  | v4 address =>
      have value := @number_bytes_of_lt 4 address.toNat address.isLt
      have parts : buf.drop offset = [0xc0, 0x0c] ++ (bytes 2 typeA ++ ((bytes 2 classIn
          ++ bytes 4 ttl.toNat) ++ (bytes 2 4 ++ (bytes 4 address.toNat ++ back)))) := by
        rw [found, record]
        simp only [List.append_assoc]
      rw [readAnswer_parts parts (by decide) (by simp) (by decide) length_bytes (by decide),
        record_length]
      simp [addressIn, value, IpAddr.isIpv4]
  | v6 address =>
      have value := @number_bytes_of_lt 16 address.toNat address.isLt
      have parts : buf.drop offset = [0xc0, 0x0c] ++ (bytes 2 typeAaaa ++ ((bytes 2 classIn
          ++ bytes 4 ttl.toNat) ++ (bytes 2 16 ++ (bytes 16 address.toNat ++ back)))) := by
        rw [found, record]
        simp only [List.append_assoc]
      rw [readAnswer_parts parts (by decide) (by simp) (by decide) length_bytes (by decide),
        record_length]
      simp [addressIn, value, IpAddr.isIpv4]

/-- Records are read one after the other, by induction on them. -/
theorem readAnswers_records (found : buf.drop offset = addresses.flatMap (record ttl) ++ back)
    : readAnswers buf addresses.length offset
      = some (addresses, offset + (addresses.flatMap (record ttl)).length) := by
  induction addresses generalizing offset with
  | nil => rfl
  | cons address addresses ih =>
      rw [List.flatMap_cons, List.append_assoc] at found
      have later := ih (drop_behind found rfl)
      rw [List.length_cons, readAnswers, readAnswer_record found, Option.bind_eq_bind,
        Option.bind_some]
      dsimp only
      rw [later, Option.bind_eq_bind, Option.bind_some, List.flatMap_cons, List.length_append,
        Nat.add_assoc]
      rfl

end Reading

-----------------------------------------------------------------------------------------
-- The header of an answer
-----------------------------------------------------------------------------------------

section Header

open Wire

variable {buf back : Bytes} {question : Question} {addresses : List IpAddr}

/-- The flags of an answer to a question with these flags. -/
def answerFlags (flags : Nat) : Nat := 0x8000 ||| flags ||| 0x0080 ||| rcodeNoerror ||| 0x0400

/-- Of the flags of a query, only the opcode and the RD bit come back. -/
theorem answerFlags_bits (flags : Nat)
    : answerFlags (flags &&& 0x7900) < 2 ^ 16
      ∧ answerFlags (flags &&& 0x7900) &&& 0x8000 = 0x8000
      ∧ answerFlags (flags &&& 0x7900) &&& 0x000f = 0
      ∧ answerFlags (flags &&& 0x7900) &&& 0x0400 = 0x0400 := by
  refine ⟨?_, ?_, ?_, ?_⟩
  · have masked : flags &&& 0x7900 < 2 ^ 16 := Nat.and_lt_two_pow flags (by decide)
    have first := Nat.or_lt_two_pow (by decide : 0x8000 < 2 ^ 16) masked
    have second := Nat.or_lt_two_pow first (by decide : 0x0080 < 2 ^ 16)
    have third := Nat.or_lt_two_pow second (by decide : rcodeNoerror < 2 ^ 16)
    exact Nat.or_lt_two_pow third (by decide)
  · simp [answerFlags, rcodeNoerror, Nat.and_or_distrib_right, Nat.and_assoc]
  · simp [answerFlags, rcodeNoerror, Nat.and_or_distrib_right, Nat.and_assoc]
  · simp [answerFlags, rcodeNoerror, Nat.and_or_distrib_right, Nat.and_assoc]

/-- What the header of an answer says. -/
structure Headed (buf : Bytes) (question : Question) (count : Nat) (back : Bytes) : Prop where
  id : u16At buf 0 = some question.id
  flags : u16At buf 2 = some (answerFlags question.flags)
  qdcount : u16At buf 4 = some 1
  ancount : u16At buf 6 = some count
  behind : buf.drop headerLen = back

theorem header_headed {count : Nat} (id : question.id < 256 ^ 2)
    (flags : answerFlags question.flags < 256 ^ 2) (few : count < 256 ^ 2)
    : Headed (header question rcodeNoerror true count ++ back) question count back := by
  have start : (header question rcodeNoerror true count ++ back).drop 0
      = bytes 2 question.id ++ (bytes 2 (answerFlags question.flags)
        ++ (bytes 2 1 ++ (bytes 2 count ++ (bytes 4 0 ++ back)))) := by
    simp only [header, List.drop_zero, List.append_assoc, if_true, answerFlags]
  have flagsAt := drop_behind start length_bytes
  have qdcountAt := drop_behind flagsAt length_bytes
  have ancountAt := drop_behind qdcountAt length_bytes
  have restAt := drop_behind ancountAt length_bytes
  refine ⟨?_, ?_, ?_, ?_, drop_behind restAt length_bytes⟩
  · rw [u16At_part start length_bytes, number_bytes_of_lt id]
  · rw [u16At_part flagsAt length_bytes, number_bytes_of_lt flags]
  · rw [u16At_part qdcountAt length_bytes, number_bytes_of_lt (by decide)]
  · rw [u16At_part ancountAt length_bytes, number_bytes_of_lt few]

theorem records_eq : records question addresses = addresses.filter question.asksFor := by
  by_cases class_in : question.qclass = classIn
  · rw [records, if_pos class_in]
    by_cases four : question.qtype = typeA
    · rw [ofFamily, if_pos four]
      apply List.filter_congr
      intro address _
      cases address <;> simp [Question.asksFor, IpAddr.isIpv4, class_in, four, typeA, typeAaaa]
    · by_cases six : question.qtype = typeAaaa
      · rw [ofFamily, if_neg four, if_pos six]
        apply List.filter_congr
        intro address _
        cases address <;> simp [Question.asksFor, IpAddr.isIpv4, class_in, six, typeA, typeAaaa]
      · rw [ofFamily, if_neg four, if_neg six, eq_comm, List.filter_eq_nil_iff]
        intro address _
        cases address <;> simp [Question.asksFor, four, six]
  · rw [records, if_neg class_in, eq_comm, List.filter_eq_nil_iff]
    intro address _
    cases address <;> simp [Question.asksFor, class_in]

end Header

-----------------------------------------------------------------------------------------
-- Answers
-----------------------------------------------------------------------------------------

section Answers

open Wire

variable {query : Bytes} {question : Question}

/-- An answer is a header, the question, and the records. -/
theorem answer_headed (parsed : parseQuery query = .ok question) (addresses : List IpAddr)
    (ttl : UInt32)
    : Headed (answer question addresses ttl) question ((records question addresses).length % 65536)
        (question.raw ++ (records question addresses).flatMap (record ttl)) := by
  obtain ⟨header, labels, tail, _, _, rfl⟩ := composed_of_parseQuery parsed
  rw [answer, List.append_assoc]
  exact header_headed field_lt (answerFlags_bits _).1 (Nat.mod_lt _ (by decide))

/-- The reader comes to the records behind the question, and they end where the answer ends. -/
theorem answer_records (parsed : parseQuery query = .ok question) (addresses : List IpAddr)
    (ttl : UInt32)
    : skipQuestions (answer question addresses ttl) 1 headerLen
        = some (headerLen + question.raw.length)
      ∧ readAnswers (answer question addresses ttl) (records question addresses).length
          (headerLen + question.raw.length)
        = some (records question addresses, (answer question addresses ttl).length) := by
  have headed := (answer_headed parsed addresses ttl).behind
  obtain ⟨header, labels, tail, composed, _, rfl⟩ := composed_of_parseQuery parsed
  generalize answer (questionOf header labels tail) addresses ttl = reply at headed ⊢
  have rawAt := drop_behind headed rfl
  have total := congrArg List.length headed
  have read := readAnswers_records (rawAt.trans (List.append_nil _).symm)
  rw [questionOf, List.append_assoc] at headed
  have name := skipName_name headed composed.labels
  have raw : (questionOf header labels tail).raw.length = (nameBytes labels).length + 4 := by
    rw [questionOf, List.length_append, composed.tail]
  refine ⟨?_, ?_⟩
  · rw [skipQuestions, name, raw]
    rfl
  · rw [read]
    rw [List.length_drop, List.length_append] at total
    simp only [Option.some.injEq, Prod.mk.injEq, true_and]
    omega

end Answers

/-- An answer says what has been answered, and repeats the question. -/
theorem answer_decodes {query : Bytes} {question : Wire.Question}
    (parsed : Wire.parseQuery query = .ok question) (addresses : List IpAddr) (ttl : UInt32)
    (few : (addresses.filter question.asksFor).length < 65536)
    : Wire.parseResponse (Wire.answer question addresses ttl)
        = some {
            id := question.id
            rcode := Wire.rcodeNoerror
            authoritative := true
            addresses := addresses.filter question.asksFor }
      ∧ ∃ header labels tail, Composed query header labels tail
        ∧ slice (Wire.answer question addresses ttl) Wire.headerLen (nameBytes labels ++ tail).length
          = some (nameBytes labels ++ tail) := by
  have headed := answer_headed parsed addresses ttl
  obtain ⟨skipped, read⟩ := answer_records parsed addresses ttl
  rw [← records_eq] at few ⊢
  rw [Nat.mod_eq_of_lt few] at headed
  obtain ⟨header, labels, tail, composed, _, made⟩ := composed_of_parseQuery parsed
  have raw : question.raw = nameBytes labels ++ tail := by
    rw [made]
    rfl
  have filled : 0 < (nameBytes labels ++ tail).length := by
    rw [List.length_append, composed.tail]
    omega
  have bits := answerFlags_bits (field header 2)
  have same : question.flags = field header 2 &&& 0x7900 := by
    rw [made]
    rfl
  rw [← same] at bits
  obtain ⟨_, response, noError, authoritative⟩ := bits
  refine ⟨?_, header, labels, tail, composed, ?_⟩
  · simp [Wire.parseResponse, headed.id, headed.flags, headed.qdcount, headed.ancount, skipped, read,
      response, noError, authoritative, Wire.rcodeNoerror]
  · exact slice_part (raw ▸ headed.behind) rfl filled

/-- Of two addresses the one of the family comes back. -/
theorem answer_decodes_lookup
    : Wire.parseResponse (Wire.answer (questionOf lookupHeader [[0x61]] lookupTail)
        [.v4 (IpAddr.ofOctets 10 0 0 5), .v6 1] 30)
      = some ⟨7, 0, true, [.v4 (IpAddr.ofOctets 10 0 0 5)]⟩ :=
  (answer_decodes (parseQuery_composed (@lookupQuery_composed [[0x61]] (by decide)) (by decide))
    [.v4 (IpAddr.ofOctets 10 0 0 5), .v6 1] 30 (by decide)).1

end WslVpn.Dns
