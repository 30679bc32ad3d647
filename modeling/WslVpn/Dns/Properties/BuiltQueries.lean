import WslVpn.Dns.NormalForm
import WslVpn.Dns.Properties.AnswerDecoding

/-! The queries that are built for host names: they are of the grammar that the reader follows, and it
finds the name in them.
-/

open Separated

namespace WslVpn.Dns

open Octets
open Wire

section Labels

variable {label name : Text}

theorem byteLength_eq (text : Text) : byteLength text = (Utf8.encode text).length := by
  have same := Utf8.bytes_toList (String.ofList text)
  rw [String.toList_ofList] at same
  rw [← same]
  rfl

theorem byteLength_ascii (ascii : ∀ char ∈ label, char.toNat < 0x80)
    : byteLength label = label.length := by
  rw [byteLength_eq, Utf8.encode_ascii ascii, List.length_map]

/-- ASCII text is decoded to itself. -/
theorem fromUtf8Lossy_encode (ascii : ∀ char ∈ label, char.toNat < 0x80)
    : fromUtf8Lossy (Utf8.encode label) = label := by
  have low : ∀ byte ∈ Utf8.encode label, byte.toNat < 0x80 := by
    intro byte member
    rw [Utf8.encode_ascii ascii] at member
    obtain ⟨char, there, rfl⟩ := List.mem_map.mp member
    have small := ascii char there
    rw [UInt8.toNat_ofNat']
    omega
  rw [(fromUtf8Lossy_chunks _).ascii_iff.2 low, Utf8.encode_ascii ascii, List.map_map]
  refine (List.map_congr_left ?_).trans (List.map_id label)
  intro char member
  exact @ascii_forall (fun char => Char.ofNat (UInt8.ofNat char.toNat).toNat = char)
    (by decide +kernel) char (ascii char member)

/-- A label of a host name is not cut. -/
theorem cutLabel_valid (valid : validLabel label = true)
    : cutLabel label = labelBytes (Utf8.encode label) := by
  simp only [validLabel, Bool.and_eq_true, decide_eq_true_eq] at valid
  have short : byteLength label ≤ 63 := valid.1.1.1.2
  rw [cutLabel, labelBytes, Nat.min_eq_left short, byteLength_eq, List.take_length]

/-- The labels of a name, as they go on the wire. -/
def wireLabels (name : Text) : List Bytes := (name.splitOn '.').map Utf8.encode

variable (host : HostText name)

include host

theorem HostText.ascii : ∀ char ∈ name, char.toNat < 0x80 :=
  fun _ member => (host.plain member).ascii

theorem HostText.label_ascii (member : label ∈ name.splitOn '.')
    : ∀ char ∈ label, char.toNat < 0x80 :=
  fun char inside => host.ascii char ((of_mem_splitOn member).2 char inside)

/-- The lengths of labels are within the limits of the wire. -/
theorem wireLabels_length : ∀ label ∈ wireLabels name, 0 < label.length ∧ label.length ≤ 63 := by
  intro label member
  obtain ⟨text, there, rfl⟩ := List.mem_map.mp member
  have valid := host.labels text there
  have filled := List.length_pos_iff.mpr (validLabel_filled valid)
  simp only [validLabel, Bool.and_eq_true, decide_eq_true_eq] at valid
  have short : byteLength text ≤ 63 := valid.1.1.1.2
  rw [← byteLength_eq]
  refine ⟨?_, short⟩
  rw [byteLength_ascii (host.label_ascii there)]
  exact filled

/-- The length of a name on the wire is two more than that of its text. -/
theorem wireLabels_bytes : (nameBytes (wireLabels name)).length = name.length + 2 := by
  have sizes : (wireLabels name).map (·.length + 1) = (name.splitOn '.').map (·.length + 1) := by
    rw [wireLabels, List.map_map]
    refine List.map_congr_left ?_
    intro label member
    rw [Function.comp_apply, ← byteLength_eq, byteLength_ascii (host.label_ascii member)]
  rw [nameBytes_length, sizes, sum_splitOn]

theorem dottedName_wireLabels : dottedName (wireLabels name) = name := by
  have decoded : (wireLabels name).map fromUtf8Lossy = name.splitOn '.' := by
    rw [wireLabels, List.map_map]
    refine (List.map_congr_left ?_).trans (List.map_id _)
    intro label member
    exact fromUtf8Lossy_encode (host.label_ascii member)
  rw [dottedName, decoded, List.intercalate_splitOn]

/-- Nothing of a host name is filtered or cut. -/
theorem builtLabels
    : (((trimEndDots name).splitOn '.').filter (· ≠ [])).flatMap cutLabel ++ [0]
      = nameBytes (wireLabels name) := by
  have kept : (name.splitOn '.').filter (· ≠ []) = name.splitOn '.' := by
    apply List.filter_eq_self.mpr
    intro label member
    simpa using validLabel_filled (host.labels label member)
  have cut : (name.splitOn '.').flatMap cutLabel
      = (name.splitOn '.').flatMap (fun label => labelBytes (Utf8.encode label)) :=
    List.flatMap_congr (fun label member => cutLabel_valid (host.labels label member))
  rw [trimEndDots_of_last host.last, kept, cut, nameBytes, wireLabels, List.flatMap_map]

end Labels

-----------------------------------------------------------------------------------------
-- The query
-----------------------------------------------------------------------------------------

section Query

variable {front back : Bytes} {value : Nat} {name : Text}

theorem field_bytes (small : value < 2 ^ 16)
    : field (front ++ (bytes 2 value ++ back)) front.length = value := by
  have two : (bytes 2 value ++ back).take 2 = bytes 2 value :=
    List.take_left' length_bytes
  rw [field, List.drop_left, two, number_bytes_of_lt small]

/-- The header of a built query, which asks for recursion. -/
def builtHeader (id : UInt16) : Bytes := bytes 2 id.toNat ++ bytes 2 0x0100 ++ bytes 2 1 ++ bytes 6 0

def builtTail (qtype : UInt16) : Bytes := bytes 2 qtype.toNat ++ bytes 2 classIn

theorem builtHeader_flags (id : UInt16) : field (builtHeader id) 2 = 0x0100 := by
  have flags := @field_bytes (bytes 2 id.toNat) (bytes 2 1 ++ bytes 6 0) 0x0100 (by decide)
  rw [length_bytes, ← List.append_assoc, ← List.append_assoc] at flags
  exact flags

theorem builtHeader_standard (id : UInt16) : QueryHeader (builtHeader id) where
  length := by simp [builtHeader]
  qr := by simp [builtHeader_flags]
  opcode := by simp [builtHeader_flags]
  qdcount := by
    have count := @field_bytes (bytes 2 id.toNat ++ bytes 2 0x0100) (bytes 6 0) 1 (by decide)
    rw [List.length_append, length_bytes, length_bytes, ← List.append_assoc] at count
    exact count

theorem buildQuery_composed (host : HostText name) (id qtype : UInt16)
    : Composed (buildQuery id name qtype) (builtHeader id) (wireLabels name) (builtTail qtype) where
  split := by
    refine ⟨[], ?_⟩
    rw [← builtLabels host, buildQuery, builtHeader, builtTail]
    simp only [List.append_assoc, List.append_nil]
  header := builtHeader_standard id
  labels := wireLabels_length host
  tail := by simp [builtTail]

/-- The question of a built query is the one that it was built for. -/
theorem questionOf_built (host : HostText name) (id qtype : UInt16)
    : (questionOf (builtHeader id) (wireLabels name) (builtTail qtype)).id = id.toNat
      ∧ (questionOf (builtHeader id) (wireLabels name) (builtTail qtype)).name = name
      ∧ (questionOf (builtHeader id) (wireLabels name) (builtTail qtype)).qtype = qtype.toNat
      ∧ (questionOf (builtHeader id) (wireLabels name) (builtTail qtype)).qclass = classIn := by
  refine ⟨?_, dottedName_wireLabels host, ?_, ?_⟩
  · have first := @field_bytes [] (bytes 2 0x0100 ++ bytes 2 1 ++ bytes 6 0) id.toNat id.toNat_lt
    rw [List.nil_append, ← List.append_assoc, ← List.append_assoc] at first
    exact first
  · exact @field_bytes [] (bytes 2 classIn) qtype.toNat qtype.toNat_lt
  · have last := @field_bytes (bytes 2 qtype.toNat) [] classIn (by decide)
    rw [length_bytes, List.append_nil] at last
    exact last

end Query

/-- The query that is built for a host name is read, and it asks what it was built for. A name of 253
bytes, the longest one, has 255 bytes on the wire.
-/
theorem parseQuery_buildQuery (id qtype : UInt16) {input name : Text}
    (accepted : normalise input = .ok name) (exact : stripStart wildcardStart name = none)
    : ∃ question, parseQuery (buildQuery id name qtype) = .ok question ∧ question.id = id.toNat
        ∧ question.name = name ∧ question.qtype = qtype.toNat ∧ question.qclass = classIn := by
  have host : HostText name := by
    cases normal_of_normalise accepted with
    | host host => exact host
    | wildcard host two =>
        rw [stripStart_append] at exact
        cases exact
  have short := host.short
  rw [byteLength_ascii host.ascii] at short
  have parsed := parseQuery_composed (buildQuery_composed host id qtype)
    (by rw [wireLabels_bytes host]; omega)
  exact ⟨_, parsed, questionOf_built host id qtype⟩

/-- A query for a name that was given in another spelling. -/
theorem parseQuery_buildQuery_spelt
    : ∃ question, parseQuery (buildQuery 0xbeef "intranet.example.com".toList 28) = .ok question
        ∧ question.id = 0xbeef ∧ question.name = "intranet.example.com".toList
        ∧ question.qtype = 28 ∧ question.qclass = classIn :=
  @parseQuery_buildQuery 0xbeef 28 " Intranet.Example.com. ".toList "intranet.example.com".toList
    (by decide +kernel) (by decide)

end WslVpn.Dns
