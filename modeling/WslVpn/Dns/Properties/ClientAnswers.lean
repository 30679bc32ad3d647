import WslVpn.Dns.Properties.BuiltQueries
import WslVpn.Dns.Properties.ReplySizes
import WslVpn.Dns.Properties.Relaying

/-! The client and the resolver together: the client is told the addresses of the override, as long as the
reply fits the room that the client has for it.
-/

namespace WslVpn.Dns

open AddressSpace
open Octets

-----------------------------------------------------------------------------------------
-- What comes behind does not disturb
-----------------------------------------------------------------------------------------

section Extension

open Wire

variable {buf more : Bytes} {offset : Nat}

theorem getElem?_before {byte : UInt8} (found : buf[offset]? = some byte)
    : (buf ++ more)[offset]? = some byte := by
  obtain ⟨inside, _⟩ := List.getElem?_eq_some_iff.mp found
  rw [List.getElem?_append_left inside, found]

theorem u16At_before {value : Nat} (found : u16At buf offset = some value)
    : u16At (buf ++ more) offset = some value := by
  have inside := inside_of_u16At found
  rw [u16At_eq_field inside] at found
  rw [u16At_eq_field (by rw [List.length_append]; omega), field_append inside, found]

theorem slice_before {length : Nat} {part : Bytes} (found : slice buf offset length = some part)
    : slice (buf ++ more) offset length = some part := by
  obtain ⟨_, inside, same⟩ := slice_some found
  rw [slice, if_pos (by rw [List.length_append]; omega), same, List.drop_append_of_le_length (by omega),
    List.take_append_of_le_length (by rw [List.length_drop]; omega)]

/-- By induction on the labels of the name. -/
theorem skipName_before {behind : Nat} (found : skipName buf offset = some behind)
    : skipName (buf ++ more) offset = some behind := by
  induction offset using skipName.induct buf with
  | case1 offset missing =>
      rw [skipName, missing] at found
      cases found
  | case2 offset here =>
      rw [skipName, here] at found
      rw [skipName, getElem?_before here]
      exact found
  | case3 offset len here some pointer =>
      rw [skipName, here] at found
      simp only [if_neg some, if_pos pointer] at found
      obtain ⟨low, second, rfl⟩ := Option.map_eq_some_iff.mp found
      rw [skipName, getElem?_before here]
      simp only [if_neg some, if_pos pointer, getElem?_before second, Option.map_some]
  | case4 offset len here some plain ih =>
      rw [skipName, here] at found
      simp only [if_neg some, if_neg plain] at found
      rw [skipName, getElem?_before here]
      simp only [if_neg some, if_neg plain]
      exact ih found

/-- What reading a record comes to. -/
theorem readAnswer_some {address : Option IpAddr} {final : Nat}
    (read : readAnswer buf offset = some (address, final))
    : ∃ behind rtype rdlen data, skipName buf offset = some behind ∧ u16At buf behind = some rtype
        ∧ u16At buf (behind + 8) = some rdlen ∧ slice buf (behind + 10) rdlen = some data
        ∧ (address, final) = (addressIn rtype data, behind + 10 + rdlen) := by
  unfold readAnswer at read
  obtain ⟨behind, name, read⟩ := Option.bind_eq_some_iff.mp read
  obtain ⟨rtype, kind, read⟩ := Option.bind_eq_some_iff.mp read
  obtain ⟨rdlen, size, read⟩ := Option.bind_eq_some_iff.mp read
  obtain ⟨data, content, read⟩ := Option.bind_eq_some_iff.mp read
  exact ⟨behind, rtype, rdlen, data, name, kind, size, content, (Option.some.inj read).symm⟩

theorem readAnswer_before {address : Option IpAddr} {final : Nat}
    (read : readAnswer buf offset = some (address, final))
    : readAnswer (buf ++ more) offset = some (address, final) ∧ final ≤ buf.length := by
  obtain ⟨behind, rtype, rdlen, data, name, kind, size, content, same⟩ := readAnswer_some read
  obtain ⟨_, inside, _⟩ := slice_some content
  cases same
  refine ⟨?_, inside⟩
  rw [readAnswer, skipName_before name, Option.bind_eq_bind, Option.bind_some, u16At_before kind,
    Option.bind_eq_bind, Option.bind_some, u16At_before size, Option.bind_some,
    slice_before content]
  rfl

/-- By induction on the records. -/
theorem readAnswers_before {count final : Nat} {found : List IpAddr} (inside : offset ≤ buf.length)
    (read : readAnswers buf count offset = some (found, final))
    : readAnswers (buf ++ more) count offset = some (found, final) ∧ final ≤ buf.length := by
  induction count generalizing offset found with
  | zero =>
      cases read
      exact ⟨rfl, inside⟩
  | succ count ih =>
      rw [readAnswers] at read
      obtain ⟨⟨address, behind⟩, first, read⟩ := Option.bind_eq_some_iff.mp read
      obtain ⟨⟨later, last⟩, rest, read⟩ := Option.bind_eq_some_iff.mp read
      cases read
      obtain ⟨same, within⟩ := @readAnswer_before buf more _ _ _ first
      obtain ⟨others, ends⟩ := ih within rest
      refine ⟨?_, ends⟩
      rw [readAnswers, same, Option.bind_eq_bind, Option.bind_some]
      dsimp only
      rw [others]
      rfl

end Extension

-----------------------------------------------------------------------------------------
-- A reply as far as there is room for it
-----------------------------------------------------------------------------------------

section Room

open Wire

variable {buf back query : Bytes} {question : Question} {limit count size : Nat}

theorem u16At_take {offset value : Nat} (found : u16At buf offset = some value)
    (room : offset + 2 ≤ limit) : u16At (buf.take limit) offset = some value := by
  have inside := inside_of_u16At found
  rw [u16At_eq_field inside] at found
  by_cases whole : buf.length ≤ limit
  · rw [List.take_of_length_le whole, u16At_eq_field inside, found]
  · rw [u16At_eq_field (by rw [List.length_take]; omega), field_take room (by omega), found]

/-- The header of a reply that is cut behind it. -/
theorem Headed.taken (headed : Headed buf question count back) (room : headerLen ≤ limit)
    : Headed (buf.take limit) question count (back.take (limit - headerLen)) where
  id := u16At_take headed.id (le_trans (by decide) room)
  flags := u16At_take headed.flags (le_trans (by decide) room)
  qdcount := u16At_take headed.qdcount (le_trans (by decide) room)
  ancount := u16At_take headed.ancount (le_trans (by decide) room)
  behind := by rw [List.drop_take, headed.behind]

theorem flatMap_length {Item : Type} {items : List Item} {parts : Item → Bytes}
    (even : ∀ item ∈ items, (parts item).length = size)
    : (items.flatMap parts).length = items.length * size := by
  rw [List.length_flatMap, List.map_congr_left even, List.map_const', List.sum_replicate, smul_eq_mul]

/-- The bytes of a record of the type that is asked for. -/
def recordSize (question : Question) : Nat := if question.qtype = typeA then 16 else 28

theorem record_size {ttl : UInt32} {addresses : List IpAddr} {address : IpAddr}
    (member : address ∈ records question addresses)
    : (record ttl address).length = recordSize question := by
  rw [records_eq] at member
  have asked := (List.mem_filter.mp member).2
  cases address with
  | v4 address =>
      simp only [Question.asksFor, Bool.and_eq_true, beq_iff_eq] at asked
      simp [recordSize, record_length, IpAddr.isIpv4, asked.2]
  | v6 address =>
      simp only [Question.asksFor, Bool.and_eq_true, beq_iff_eq] at asked
      simp [recordSize, record_length, IpAddr.isIpv4, asked.2, typeA, typeAaaa]

/-- What a client reads of a reply that it has so much room for. -/
def readWithin (limit : Nat) (question : Question) (addresses : List IpAddr) : Option Response :=
  let asked := records question addresses
  if headerLen + question.raw.length + asked.length % 65536 * recordSize question ≤ limit then
    some ⟨question.id, rcodeNoerror, true, asked.take (asked.length % 65536)⟩
  else none

/-- The question of a reply is read if there is room for it. -/
theorem skipQuestions_taken (parsed : parseQuery query = .ok question)
    (start : buf.drop headerLen = question.raw ++ back)
    : skipQuestions buf 1 headerLen = some (headerLen + question.raw.length) := by
  obtain ⟨header, labels, tail, composed, _, rfl⟩ := composed_of_parseQuery parsed
  have raw : (questionOf header labels tail).raw.length = (nameBytes labels).length + 4 := by
    rw [questionOf, List.length_append, composed.tail]
  rw [questionOf, List.append_assoc] at start
  rw [skipQuestions, skipName_name start composed.labels, raw]
  rfl

/-- Records that all have room are read, and otherwise none is. -/
theorem readAnswers_taken {ttl : UInt32} {addresses : List IpAddr} {offset : Nat}
    (start : buf.drop offset = (addresses.flatMap (record ttl)).take limit)
    (inside : offset ≤ buf.length) (few : count ≤ addresses.length)
    (even : ∀ address ∈ addresses, (record ttl address).length = size)
    : readAnswers buf count offset
      = if count * size ≤ limit then some (addresses.take count, offset + count * size) else none := by
  have counted : (addresses.take count).length = count := List.length_take_of_le few
  have firstSize : ((addresses.take count).flatMap (record ttl)).length = count * size := by
    rw [flatMap_length (fun address member => even address (List.mem_of_mem_take member)), counted]
  have split : addresses.flatMap (record ttl)
      = (addresses.take count).flatMap (record ttl) ++ (addresses.drop count).flatMap (record ttl) := by
    rw [← List.flatMap_append, List.take_append_drop]
  split
  · next room =>
      rw [split, List.take_append, firstSize, List.take_of_length_le (by omega)] at start
      have read := readAnswers_records start
      rw [counted, firstSize] at read
      exact read
  · next noRoom =>
      -- Read in a buffer with all of the records, they end behind the end of this one.
      by_contra found
      obtain ⟨⟨read, final⟩, found⟩ := Option.ne_none_iff_exists'.mp found
      obtain ⟨same, ends⟩ := @readAnswers_before buf ((addresses.flatMap (record ttl)).drop limit)
        offset count final read inside found
      have whole : (buf ++ (addresses.flatMap (record ttl)).drop limit).drop offset
          = (addresses.take count).flatMap (record ttl)
            ++ (addresses.drop count).flatMap (record ttl) := by
        rw [List.drop_append_of_le_length inside, start, List.take_append_drop, split]
      have all := readAnswers_records whole
      rw [counted, same, firstSize] at all
      cases all
      have long := congrArg List.length start
      rw [List.length_drop, List.length_take] at long
      omega

/-- The reader of replies, of an answer that is cut behind its question. -/
theorem parseResponse_taken (parsed : parseQuery query = .ok question) (addresses : List IpAddr)
    (ttl : UInt32) (room : headerLen + question.raw.length ≤ limit)
    : parseResponse ((answer question addresses ttl).take limit) = readWithin limit question addresses := by
  have headed := @Headed.taken _ _ _ limit _ (answer_headed parsed addresses ttl) (by omega)
  have whole : question.raw.take (limit - headerLen) = question.raw :=
    List.take_of_length_le (by omega)
  have total := answer_length question addresses ttl
  rw [List.take_append, whole, Nat.sub_sub] at headed
  generalize taken : (answer question addresses ttl).take limit = buf at headed ⊢
  have inside : headerLen + question.raw.length ≤ buf.length := by
    rw [← taken, List.length_take]
    omega
  have skipped := skipQuestions_taken parsed headed.behind
  have read := readAnswers_taken (drop_behind headed.behind rfl) inside
    (Nat.mod_le (records question addresses).length 65536)
    (fun address member => record_size member)
  obtain ⟨header, labels, tail, composed, _, made⟩ := composed_of_parseQuery parsed
  have bits := answerFlags_bits (field header 2)
  have same : question.flags = field header 2 &&& 0x7900 := by
    rw [made]
    rfl
  rw [← same] at bits
  obtain ⟨_, response, noError, authoritative⟩ := bits
  have fits : (records question addresses).length % 65536 * recordSize question
        ≤ limit - (headerLen + question.raw.length)
      ↔ headerLen + question.raw.length
        + (records question addresses).length % 65536 * recordSize question ≤ limit := by
    omega
  rw [readWithin]
  by_cases enough : headerLen + question.raw.length
      + (records question addresses).length % 65536 * recordSize question ≤ limit
  · rw [if_pos (fits.mpr enough)] at read
    rw [if_pos enough]
    simp [parseResponse, headed.id, headed.flags, headed.qdcount, headed.ancount, skipped, read,
      response, noError, authoritative, rcodeNoerror]
  · rw [if_neg (fun room => enough (fits.mp room))] at read
    rw [if_neg enough]
    simp [parseResponse, headed.id, headed.flags, headed.qdcount, headed.ancount, skipped, read]

end Room

-----------------------------------------------------------------------------------------
-- Asking the resolver
-----------------------------------------------------------------------------------------

section Asking

open Wire

variable {name : Text} {table : Overrides} {addresses : List IpAddr}

/-- A client that asks the resolver by a datagram. -/
def ask (config : ServerConfig) (own : SocketAddr) (table : Overrides) (conf : Option Text)
    (net : Network) (id : UInt16) (name : Text) (qtype : UInt16)
    : Except ClientError Response :=
  query (fun datagram => (serveUdp config own table conf net datagram).reply) id name qtype

/-- What the client is told of these addresses, if the datagram has room for them. -/
def told (id : UInt16) (name : Text) (qtype : UInt16) (addresses : List IpAddr)
    : Except ClientError Response :=
  let asked := ofFamily qtype.toNat addresses
  let told := asked.take (asked.length % 65536)
  if headerLen + (name.length + 6) + told.length * (if qtype = 1 then 16 else 28) ≤ bufferLen then
    .ok ⟨id.toNat, rcodeNoerror, true, told⟩
  else .error .unreadable

/-- The question that is read of a built query. -/
theorem parseQuery_built (host : HostText name) (id qtype : UInt16)
    : ∃ question, parseQuery (buildQuery id name qtype) = .ok question ∧ question.id = id.toNat
        ∧ question.name = name ∧ question.qtype = qtype.toNat ∧ question.qclass = classIn
        ∧ question.raw.length = name.length + 6 := by
  have short := host.short
  rw [byteLength_ascii host.ascii] at short
  have parsed := parseQuery_composed (buildQuery_composed host id qtype)
    (by rw [wireLabels_bytes host]; omega)
  obtain ⟨sameId, sameName, sameType, sameClass⟩ := questionOf_built host id qtype
  refine ⟨_, parsed, sameId, sameName, sameType, sameClass, ?_⟩
  rw [questionOf, List.length_append, wireLabels_bytes host]
  simp [builtTail]

/-- A query for a host name fits into a datagram. -/
theorem buildQuery_whole (host : HostText name) (id qtype : UInt16)
    : (buildQuery id name qtype).take bufferLen = buildQuery id name qtype := by
  have short := host.short
  rw [byteLength_ascii host.ascii] at short
  apply List.take_of_length_le
  have labels := congrArg List.length (builtLabels host)
  rw [wireLabels_bytes host, List.length_append, List.length_singleton] at labels
  simp only [buildQuery, List.length_append, length_bytes, List.length_singleton, bufferLen]
  omega

/-- The reply to a built query says as much as there is room for in a datagram. -/
theorem query_answered {server : Bytes → Option Bytes} {question : Question} {id qtype : UInt16}
    {ttl : UInt32} (parsed : parseQuery (buildQuery id name qtype) = .ok question)
    (sameId : question.id = id.toNat) (sameType : question.qtype = qtype.toNat)
    (sameClass : question.qclass = classIn) (size : question.raw.length = name.length + 6)
    (short : name.length ≤ 253)
    (replied : server (buildQuery id name qtype) = some (answer question addresses ttl))
    : query server id name qtype = told id name qtype addresses := by
  have asked : records question addresses = ofFamily qtype.toNat addresses := by
    rw [records, if_pos sameClass, sameType]
  have few : ((ofFamily qtype.toNat addresses).take
      ((ofFamily qtype.toNat addresses).length % 65536)).length
        = (ofFamily qtype.toNat addresses).length % 65536 :=
    List.length_take_of_le (Nat.mod_le _ _)
  have sameSize : recordSize question = if qtype = 1 then 16 else 28 := by
    rw [recordSize, sameType]
    refine if_congr ?_ rfl rfl
    rw [← UInt16.toNat_inj]
    rfl
  have room : headerLen + question.raw.length ≤ bufferLen := by
    rw [size, headerLen, bufferLen]
    omega
  rw [query, replied]
  dsimp only
  rw [parseResponse_taken parsed addresses ttl room, readWithin, told, asked, few, size, sameSize, sameId]
  by_cases fits : headerLen + (name.length + 6)
      + (ofFamily qtype.toNat addresses).length % 65536 * (if qtype = 1 then 16 else 28) ≤ bufferLen
  · rw [if_pos fits, if_pos fits]
    exact if_pos rfl
  · rw [if_neg fits, if_neg fits]

end Asking

/-- Whatever upstreams there are and whatever they say: a client that asks for a name with an override is
told the addresses that the override has of the family it asks for, as many as the count of the reply
says, and nobody else is asked. If its datagram has no room for them it is told that there is no reply it
could read, and none of the addresses.
-/
theorem ask_overridden (config : ServerConfig) (own : SocketAddr) {table : Overrides}
    (conf : Option Text) (net : Network) (id qtype : UInt16) {input name : Text} {found : Found}
    (accepted : normalise input = .ok name) (exact : stripStart wildcardStart name = none)
    (foreign : name ≠ probeName) (overridden : table.lookup name = some found)
    : ask config own table conf net id name qtype = told id name qtype found.records.addresses
      ∧ (serveUdp config own table conf net (Wire.buildQuery id name qtype)).asked = [] := by
  have normal := normal_of_normalise accepted
  have host : HostText name := by
    cases normal with
    | host host => exact host
    | wildcard host two =>
        rw [stripStart_append] at exact
        cases exact
  obtain ⟨question, parsed, sameId, sameName, sameType, sameClass, size⟩ := parseQuery_built host id qtype
  have short := host.short
  rw [byteLength_ascii host.ascii] at short
  have handled : handle config.ttl table (Wire.buildQuery id name qtype)
      = .answered question found config.ttl := by
    have noProbe : toAsciiLowercase question.name ≠ toAsciiLowercase probeName := by
      rw [sameName, normal.lower]
      exact foreign
    rw [handle, parsed]
    dsimp only
    rw [if_neg noProbe, sameName, overridden]
  have served : serveUdp config own table conf net (Wire.buildQuery id name qtype)
      = ⟨some (Wire.answer question found.records.addresses (UInt32.ofNat config.ttl)), []⟩ := by
    rw [serveUdp, buildQuery_whole host, serve_here (by simp [handled]), handled]
    rfl
  refine ⟨?_, congrArg Served.asked served⟩
  exact query_answered parsed sameId sameType sameClass size short (congrArg Served.reply served)

/-- An override of all names of a domain, asked for both families. -/
theorem ask_overridden_wildcard
    : let table : Overrides :=
        ⟨[], [("example.com".toList, ⟨[.v4 0x0a000001, .v6 1, .v4 0x0a000002]⟩)]⟩
      let config : ServerConfig := ⟨.fixed [⟨.v4 0x01010101, 53, 0⟩], 60⟩
      let net : Network := ⟨fun _ _ => [], fun _ _ => []⟩
      (∀ own conf, ask config own table conf net 7 "intranet.example.com".toList 1
        = .ok ⟨7, 0, true, [.v4 0x0a000001, .v4 0x0a000002]⟩)
      ∧ ∀ own conf, ask config own table conf net 7 "intranet.example.com".toList 28
        = .ok ⟨7, 0, true, [.v6 1]⟩ := by
  have accepted : normalise "Intranet.Example.com.".toList = .ok "intranet.example.com".toList := by
    decide +kernel
  have overridden : Overrides.lookup
      ⟨[], [("example.com".toList, ⟨[.v4 0x0a000001, .v6 1, .v4 0x0a000002]⟩)]⟩
      "intranet.example.com".toList
      = some (.wildcard "example.com".toList ⟨[.v4 0x0a000001, .v6 1, .v4 0x0a000002]⟩) := by
    decide +kernel
  refine ⟨fun own conf => ?_, fun own conf => ?_⟩
  · exact (ask_overridden _ own conf _ 7 1 accepted (by decide) (by decide) overridden).1.trans
      (by decide +kernel)
  · exact (ask_overridden _ own conf _ 7 28 accepted (by decide) (by decide) overridden).1.trans
      (by decide +kernel)

end WslVpn.Dns
