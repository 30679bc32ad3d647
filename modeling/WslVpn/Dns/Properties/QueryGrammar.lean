import Mathlib.Data.Nat.Bitwise
import WslVpn.Octets.BigEndian
import WslVpn.Dns.Server

/-! The queries that are read: their grammar, and the one length of a name by which the reader departs
from it.
-/

namespace WslVpn.Dns

open Octets

/-- The number in two bytes of a message. -/
def field (buf : Bytes) (offset : Nat) : Nat := number ((buf.drop offset).take 2)

/-- The wire form of a name, with the root byte. -/
def nameBytes (labels : List Bytes) : Bytes := labels.flatMap labelBytes ++ [0]

/-- The header of a standard query with one question. -/
structure QueryHeader (header : Bytes) : Prop where
  length : header.length = 12
  qr : field header 2 / 2 ^ 15 = 0
  opcode : field header 2 / 2 ^ 11 % 16 = 0
  qdcount : field header 4 = 1

/-- The buffer is a header, a name of labels, four more bytes, and whatever follows. -/
structure Composed (buf header : Bytes) (labels : List Bytes) (tail : Bytes) : Prop where
  split : ∃ rest, buf = header ++ (nameBytes labels ++ (tail ++ rest))
  header : QueryHeader header
  labels : ∀ label ∈ labels, 0 < label.length ∧ label.length ≤ 63
  tail : tail.length = 4

/-- The queries of the grammar are read, and no others, and their parts are what is read. -/
structure ReadByGrammar (buf : Bytes) : Prop where
  accepted
    : (∃ question, Wire.parseQuery buf = .ok question)
      ↔ ∃ header labels tail, Composed buf header labels tail ∧ (nameBytes labels).length ≤ 255
  parts
    : ∀ question header labels tail, Wire.parseQuery buf = .ok question →
        Composed buf header labels tail →
        question.id = field header 0 ∧ question.qtype = field tail 0
          ∧ question.qclass = field tail 2 ∧ question.raw = nameBytes labels ++ tail

-----------------------------------------------------------------------------------------
-- Fields
-----------------------------------------------------------------------------------------

section Fields

variable {buf front back : Bytes} {offset flags : Nat}

theorem u16At_eq_field (inside : offset + 2 ≤ buf.length)
    : Wire.u16At buf offset = some (field buf offset) := by
  have two : (buf.drop offset).take 2 = [buf[offset], buf[offset + 1]] := by
    rw [List.drop_eq_getElem_cons (by omega), List.drop_eq_getElem_cons (by omega)]
    rfl
  have value : field buf offset = buf[offset].toNat * 256 + buf[offset + 1].toNat := by
    rw [field, two, number]
    simp [Nat.ofDigits]
    omega
  rw [Wire.u16At, List.getElem?_eq_getElem (by omega), List.getElem?_eq_getElem (by omega), value]
  rfl

theorem inside_of_u16At {value : Nat} (found : Wire.u16At buf offset = some value)
    : offset + 2 ≤ buf.length := by
  by_contra short
  have missing : buf[offset + 1]? = none := List.getElem?_eq_none (by omega)
  rw [Wire.u16At, missing] at found
  cases first : buf[offset]? <;> simp [first] at found

theorem field_append (inside : offset + 2 ≤ front.length)
    : field (front ++ back) offset = field front offset := by
  rw [field, field, List.drop_append_of_le_length (by omega),
    List.take_append_of_le_length (by rw [List.length_drop]; omega)]

theorem field_take {length : Nat} (inside : offset + 2 ≤ length) (long : length ≤ buf.length)
    : field (buf.take length) offset = field buf offset := by
  conv_rhs => rw [← List.take_append_drop length buf]
  exact (field_append (by rw [List.length_take]; omega)).symm

theorem field_lt : field buf offset < 2 ^ 16 := by
  refine lt_of_lt_of_le (number_lt _) ?_
  refine Nat.pow_le_pow_right (by norm_num) ?_ |>.trans (le_of_eq (by norm_num : 256 ^ 2 = 2 ^ 16))
  rw [List.length_take]
  exact Nat.min_le_left _ _

theorem qr_iff (small : flags < 2 ^ 16) : flags &&& 0x8000 = 0 ↔ flags / 2 ^ 15 = 0 := by
  have mask : flags &&& 2 ^ 15 = (flags.testBit 15).toNat * 2 ^ 15 := Nat.and_two_pow flags 15
  have bit : flags / 2 ^ 15 < 2 := by omega
  change flags &&& 2 ^ 15 = 0 ↔ _
  rw [mask, Nat.testBit_eq_decide_div_mod_eq, Nat.mod_eq_of_lt bit]
  generalize flags / 2 ^ 15 = top at bit ⊢
  obtain rfl | rfl : top = 0 ∨ top = 1 := by omega
  · simp
  · simp

theorem opcode_eq : (flags >>> 11) &&& 0x0f = flags / 2 ^ 11 % 16 := by
  rw [Nat.shiftRight_eq_div_pow]
  exact Nat.and_two_pow_sub_one_eq_mod _ 4

end Fields

-----------------------------------------------------------------------------------------
-- Names
-----------------------------------------------------------------------------------------

section Names

variable {labels : List Bytes} {body after : Bytes} {fuel nameLen : Nat}

theorem nameBytes_length : (nameBytes labels).length = (labels.map (·.length + 1)).sum + 1 := by
  induction labels with
  | nil => rfl
  | cons label labels ih =>
      simp only [nameBytes, List.flatMap_cons, List.length_append, List.length_singleton] at ih ⊢
      simp only [labelBytes, List.length_cons, List.map_cons, List.sum_cons]
      omega

/-- A name is told from what follows it, by induction on its labels. -/
theorem nameBytes_inj {others : List Bytes} {front back : Bytes}
    (lengths : ∀ label ∈ labels, 0 < label.length ∧ label.length ≤ 63)
    (othersLengths : ∀ label ∈ others, 0 < label.length ∧ label.length ≤ 63)
    (same : nameBytes labels ++ front = nameBytes others ++ back)
    : labels = others ∧ front = back := by
  induction labels generalizing others with
  | nil =>
      cases others with
      | nil => exact ⟨rfl, by simpa [nameBytes] using same⟩
      | cons other others =>
          obtain ⟨some, few⟩ := othersLengths other List.mem_cons_self
          have root : 0 = UInt8.ofNat other.length := (List.cons.inj same).1
          exact absurd root.symm (length_byte some few).1
  | cons label labels ih =>
      obtain ⟨⟨some, few⟩, lengths⟩ := List.forall_mem_cons.mp lengths
      cases others with
      | nil =>
          have root : UInt8.ofNat label.length = 0 := (List.cons.inj same).1
          exact absurd root (length_byte some few).1
      | cons other others =>
          obtain ⟨⟨otherSome, otherFew⟩, laterLengths⟩ := List.forall_mem_cons.mp othersLengths
          have shape (label : Bytes) (labels : List Bytes) (behind : Bytes)
              : nameBytes (label :: labels) ++ behind
                = UInt8.ofNat label.length :: (label ++ (nameBytes labels ++ behind)) := by
            simp [nameBytes, labelBytes]
          rw [shape, shape, List.cons.injEq] at same
          have size : label.length = other.length := by
            have value := congrArg UInt8.toNat same.1
            rwa [(length_byte some few).2.2, (length_byte otherSome otherFew).2.2] at value
          obtain ⟨rfl, rest⟩ := List.append_inj same.2 size
          obtain ⟨rfl, behind⟩ := ih lengths laterLengths rest
          exact ⟨rfl, behind⟩

theorem length_of_plain {len : UInt8} (plain : len &&& 0xc0 = 0) : len.toNat ≤ 63 := by
  have all : ∀ value < 256, UInt8.ofNat value &&& 0xc0 = 0 → value ≤ 63 := by decide +kernel
  have same : UInt8.ofNat len.toNat = len := UInt8.ofNat_toNat
  exact all len.toNat len.toNat_lt (same.symm ▸ plain)

/-- What has been read as labels is their wire form, by induction on the labels that are read. -/
theorem of_readLabels (read : Wire.readLabels fuel nameLen body = some (labels, after))
    (short : nameLen ≤ 255)
    : body = nameBytes labels ++ after
      ∧ (∀ label ∈ labels, 0 < label.length ∧ label.length ≤ 63)
      ∧ nameLen + (nameBytes labels).length ≤ 256 := by
  induction fuel generalizing nameLen body labels with
  | zero => cases read
  | succ fuel ih =>
      cases body with
      | nil => cases read
      | cons len rest =>
          rw [Wire.readLabels] at read
          split at read
          · next root =>
              cases read
              refine ⟨by simp [nameBytes, root], by simp, ?_⟩
              simp [nameBytes]
              omega
          · next some =>
              split at read
              · cases read
              · next plain =>
                  split at read
                  · cases read
                  · next inside =>
                      dsimp only at read
                      split at read
                      · cases read
                      · next fits =>
                          obtain ⟨⟨others, final⟩, found, made⟩ := Option.map_eq_some_iff.mp read
                          cases made
                          obtain ⟨split, lengths, total⟩ := ih found (by omega)
                          have size : (rest.take len.toNat).length = len.toNat := by
                            rw [List.length_take]
                            omega
                          have positive : 0 < len.toNat := by
                            refine Nat.pos_of_ne_zero ?_
                            intro zero
                            exact some (UInt8.toNat_inj.mp zero)
                          have few := length_of_plain (not_not.mp plain)
                          refine ⟨?_, ?_, ?_⟩
                          · have whole : nameBytes (rest.take len.toNat :: others)
                                = len :: (rest.take len.toNat ++ nameBytes others) := by
                              simp [nameBytes, labelBytes, size]
                            rw [whole, List.cons_append, List.append_assoc, ← split,
                              List.take_append_drop]
                          · intro label member
                            rcases List.mem_cons.mp member with rfl | member
                            · exact ⟨by omega, by omega⟩
                            · exact lengths label member
                          · rw [nameBytes_length] at total ⊢
                            rw [List.map_cons, List.sum_cons, size]
                            dsimp only
                            omega

end Names

-----------------------------------------------------------------------------------------
-- What is read
-----------------------------------------------------------------------------------------

section Reading

open Wire

variable {buf header tail : Bytes} {labels : List Bytes} {question : Question}

/-- The question that is read of the parts of a query. -/
def questionOf (header : Bytes) (labels : List Bytes) (tail : Bytes) : Question where
  id := field header 0
  name := dottedName labels
  qtype := field tail 0
  qclass := field tail 2
  flags := field header 2 &&& 0x7900
  raw := nameBytes labels ++ tail

/-- The name may have 256 bytes. -/
theorem parseQuery_composed (composed : Composed buf header labels tail)
    (short : (nameBytes labels).length ≤ 256)
    : parseQuery buf = .ok (questionOf header labels tail) := by
  obtain ⟨rest, split⟩ := composed.split
  have long := composed.header.length
  have four := composed.tail
  have least : 12 + (nameBytes labels).length + 4 ≤ buf.length := by
    rw [split]
    simp only [List.length_append]
    omega
  have inHeader {offset : Nat} (inside : offset + 2 ≤ 12)
      : u16At buf offset = some (field header offset) := by
    rw [u16At_eq_field (by omega), split, field_append (by omega)]
  have body : buf.drop headerLen = labels.flatMap labelBytes ++ 0 :: (tail ++ rest) := by
    rw [split, headerLen, ← long, List.drop_left]
    simp [nameBytes]
  have total := @nameBytes_length labels
  have fewer : labels.length < buf.length := by
    have bytes := labels_length labels
    rw [nameBytes, List.length_append] at least
    omega
  have read : readLabels buf.length 0 (buf.drop headerLen) = some (labels, tail ++ rest) := by
    rw [body]
    exact readLabels_bytes composed.labels (by omega) fewer
  have inTail {offset : Nat} (inside : offset + 2 ≤ 4)
      : u16At (tail ++ rest) offset = some (field tail offset) := by
    rw [u16At_eq_field (by rw [List.length_append]; omega), field_append (by omega)]
  have raw : (buf.drop headerLen).take ((buf.drop headerLen).length - (tail ++ rest).length + 4)
      = nameBytes labels ++ tail := by
    have whole : buf.drop headerLen = (nameBytes labels ++ tail) ++ rest := by
      rw [body]
      simp [nameBytes]
    have count : (buf.drop headerLen).length - (tail ++ rest).length + 4
        = (nameBytes labels ++ tail).length := by
      rw [whole]
      simp only [List.length_append]
      omega
    rw [count, whole, List.take_left]
  have isQuery := (qr_iff field_lt).mpr composed.header.qr
  have standard := (@opcode_eq (field header 2)).trans composed.header.opcode
  unfold parseQuery
  rw [if_neg (by rw [headerLen]; omega), inHeader (by omega), inHeader (by omega),
    inHeader (by omega), composed.header.qdcount]
  have first := @inTail 0 (by omega)
  have second := @inTail 2 (by omega)
  simp only [isQuery, standard, read, first, second, raw, ne_eq, not_true_eq_false, if_false]
  rfl

/-- A well-formed query is read, and its name is that of its labels. -/
theorem Query.parse (query : Query)
    : ∃ question, parseQuery query.bytes = .ok question
        ∧ question.name = dottedName query.labels := by
  obtain ⟨flags, flagsAt, isQuery, standard⟩ := query.flags
  have twelve : query.header.length = 12 := query.header_length
  have four := query.rest_length
  have short := query.name_length
  have count := query.one_question
  rw [u16At_eq_field (by omega), Option.some.injEq] at flagsAt count
  subst flagsAt
  have composed : Composed query.bytes query.header query.labels (query.rest.take 4) := {
    split := by
      refine ⟨query.rest.drop 4, ?_⟩
      rw [List.take_append_drop]
      simp [Query.bytes, nameBytes]
    header := {
      length := twelve
      qr := (qr_iff field_lt).mp isQuery
      opcode := opcode_eq.symm.trans standard
      qdcount := count }
    labels := query.label_length
    tail := by rw [List.length_take]; omega }
  exact ⟨_, parseQuery_composed composed (by rw [nameBytes_length]; omega), rfl⟩

/-- The parts that the reader finds, and the question that it makes of them. -/
theorem composed_of_read {after : Bytes} (long : ¬ buf.length < 12)
    (isQuery : ¬ field buf 2 &&& 0x8000 ≠ 0) (standard : ¬ (field buf 2 >>> 11) &&& 0x0f ≠ 0)
    (one : ¬ some (field buf 4) ≠ some 1)
    (read : readLabels buf.length 0 (buf.drop headerLen) = some (labels, after))
    (four : 4 ≤ after.length)
    : Composed buf (buf.take 12) labels (after.take 4) ∧ (nameBytes labels).length ≤ 256
      ∧ Question.mk (field buf 0) (dottedName labels) (field after 0) (field after 2)
          (field buf 2 &&& 0x7900)
          ((buf.drop headerLen).take ((buf.drop headerLen).length - after.length + 4))
        = questionOf (buf.take 12) labels (after.take 4) := by
  obtain ⟨split, lengths, total⟩ := of_readLabels read (by omega)
  have ofHeader {offset : Nat} (inside : offset + 2 ≤ 12)
      : field (buf.take 12) offset = field buf offset :=
    field_take inside (by omega)
  have whole : buf.drop headerLen = nameBytes labels ++ (after.take 4 ++ after.drop 4) := by
    rw [split, List.take_append_drop]
  have raw : (buf.drop headerLen).take ((buf.drop headerLen).length - after.length + 4)
      = nameBytes labels ++ after.take 4 := by
    have count : (buf.drop headerLen).length - after.length + 4
        = (nameBytes labels ++ after.take 4).length := by
      rw [split, List.length_append, List.length_append, List.length_take]
      omega
    rw [count, whole, ← List.append_assoc, List.take_left]
  refine ⟨?_, by omega, ?_⟩
  · refine {
      split := ⟨after.drop 4, ?_⟩
      header := {
        length := by rw [List.length_take]; omega
        qr := ?_
        opcode := ?_
        qdcount := ?_ }
      labels := lengths
      tail := by rw [List.length_take]; omega }
    · rw [← whole, headerLen, List.take_append_drop]
    · rw [ofHeader (by omega)]
      exact (qr_iff field_lt).mp (not_not.mp isQuery)
    · rw [ofHeader (by omega), ← opcode_eq]
      exact not_not.mp standard
    · rw [ofHeader (by omega)]
      exact Option.some.inj (not_not.mp one)
  · rw [questionOf, raw, ofHeader (by omega), ofHeader (by omega), field_take (by omega) four,
      field_take (by omega) four]

/-- What is read has the parts of a query, with a name of 256 bytes at most. -/
theorem composed_of_parseQuery (parsed : parseQuery buf = .ok question)
    : ∃ header labels tail, Composed buf header labels tail ∧ (nameBytes labels).length ≤ 256
        ∧ question = questionOf header labels tail := by
  unfold parseQuery at parsed
  split at parsed
  · cases parsed
  · next long =>
      rw [headerLen] at long
      rw [u16At_eq_field (by omega), u16At_eq_field (by omega), u16At_eq_field (by omega)] at parsed
      dsimp only at parsed
      split at parsed
      · cases parsed
      · next isQuery =>
          split at parsed
          · cases parsed
          · next standard =>
              split at parsed
              · cases parsed
              · next one =>
                  split at parsed
                  · cases parsed
                  · next labels after read =>
                      split at parsed
                      · next qtype qclass typeAt classAt =>
                          have four := inside_of_u16At classAt
                          rw [u16At_eq_field (by omega), Option.some.injEq] at typeAt classAt
                          subst typeAt classAt
                          cases parsed
                          exact ⟨_, _, _, composed_of_read long isQuery standard one read four⟩
                      · cases parsed

/-- A buffer is composed of parts in one way. -/
theorem Composed.unique {header' tail' : Bytes} {labels' : List Bytes}
    (one : Composed buf header labels tail) (other : Composed buf header' labels' tail')
    : header = header' ∧ labels = labels' ∧ tail = tail' := by
  obtain ⟨rest, split⟩ := one.split
  obtain ⟨rest', split'⟩ := other.split
  have sizes : header.length = header'.length := one.header.length.trans other.header.length.symm
  obtain ⟨rfl, behind⟩ := List.append_inj (split.symm.trans split') sizes
  obtain ⟨rfl, after⟩ := nameBytes_inj one.labels other.labels behind
  obtain ⟨rfl, _⟩ := List.append_inj after (one.tail.trans other.tail.symm)
  exact ⟨rfl, rfl, rfl⟩

end Reading

/-- The reader follows the grammar but for the limit of a name: it does not count the root byte, so that
it reads a name of 256 bytes.
-/
theorem readByGrammar_iff (buf : Bytes)
    : ReadByGrammar buf
      ↔ ¬ ∃ header labels tail,
          Composed buf header labels tail ∧ (nameBytes labels).length = 256 := by
  constructor
  · intro grammar found
    obtain ⟨header, labels, tail, composed, long⟩ := found
    have parsed := parseQuery_composed composed (by omega)
    obtain ⟨_, _, _, other, short⟩ := grammar.accepted.mp ⟨_, parsed⟩
    obtain ⟨_, rfl, _⟩ := composed.unique other
    omega
  · intro limited
    refine ⟨⟨?_, ?_⟩, ?_⟩
    · intro accepted
      obtain ⟨question, parsed⟩ := accepted
      obtain ⟨header, labels, tail, composed, short, _⟩ := composed_of_parseQuery parsed
      refine ⟨header, labels, tail, composed, ?_⟩
      by_contra long
      exact limited ⟨header, labels, tail, composed, by omega⟩
    · intro grammatical
      obtain ⟨header, labels, tail, composed, short⟩ := grammatical
      exact ⟨_, parseQuery_composed composed (by omega)⟩
    · intro question header labels tail parsed composed
      obtain ⟨_, _, _, other, _, rfl⟩ := composed_of_parseQuery parsed
      obtain ⟨rfl, rfl, rfl⟩ := composed.unique other
      exact ⟨rfl, rfl, rfl, rfl⟩

/-- The header of a query that asks for recursion. -/
def lookupHeader : Bytes := [0, 7, 1, 0, 0, 1, 0, 0, 0, 0, 0, 0]

/-- The type A and the class IN. -/
def lookupTail : Bytes := [0, 1, 0, 1]

/-- A query for the IPv4 addresses of a name. -/
def lookupQuery (labels : List Bytes) : Bytes := lookupHeader ++ (nameBytes labels ++ lookupTail)

theorem lookupQuery_composed {labels : List Bytes}
    (lengths : ∀ label ∈ labels, 0 < label.length ∧ label.length ≤ 63)
    : Composed (lookupQuery labels) lookupHeader labels lookupTail where
  split := ⟨[], by rw [List.append_nil, lookupQuery]⟩
  header := { length := rfl, qr := by decide, opcode := by decide, qdcount := by decide }
  labels := lengths
  tail := rfl

/-- A name of four labels, of 63, 63, 63 and 62 bytes. -/
def longLabels : List Bytes := [63, 63, 63, 62].map (fun length => List.replicate length 0x61)

/-- A query is read although its name has 256 bytes. -/
theorem long_name_read : ¬ ReadByGrammar (lookupQuery longLabels) := by
  intro grammar
  have composed := @lookupQuery_composed longLabels (by decide +kernel)
  have parsed := parseQuery_composed composed (by decide +kernel)
  obtain ⟨_, _, _, other, short⟩ := grammar.accepted.mp ⟨_, parsed⟩
  obtain ⟨_, rfl, _⟩ := composed.unique other
  exact absurd short (by decide +kernel)

end WslVpn.Dns
