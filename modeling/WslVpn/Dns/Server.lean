import WslVpn.Dns.Hosts

/-! Reading a query off the wire, and what the resolver does with it. -/

namespace WslVpn.Dns

/-- A datagram, or the part of one. -/
abbrev Bytes := List UInt8

namespace Wire

def rcodeFormerr : Nat := 1
def rcodeNotimp : Nat := 4

def headerLen : Nat := 12

structure Question where
  id : Nat
  /-- Dotted, as sent, without a trailing dot. -/
  name : Text
  qtype : Nat
  qclass : Nat
  flags : Nat
  raw : Bytes
  deriving DecidableEq

inductive QueryError where
  | truncated
  | malformed (id rcode : Nat)
  deriving DecidableEq

/-- The big-endian number at an offset. -/
def u16At (buf : Bytes) (offset : Nat) : Option Nat := do
  let high ← buf[offset]?
  let low ← buf[offset + 1]?
  some (high.toNat * 256 + low.toNat)

/-- The labels up to the empty one, with what follows it. `nameLen` is the length of the name so far,
and there are fewer labels than bytes.
-/
def readLabels : Nat → Nat → Bytes → Option (List Bytes × Bytes)
  | 0, _, _ => none
  | _ + 1, _, [] => none
  | fuel + 1, nameLen, len :: rest =>
      if len = 0 then some ([], rest)
      -- Compression pointers and the reserved label types.
      else if len &&& 0xc0 ≠ 0 then none
      else if rest.length < len.toNat then none
      else
        let nameLen := nameLen + len.toNat + 1
        if 255 < nameLen then none
        else
          (readLabels fuel nameLen (rest.drop len.toNat)).map
            (fun (labels, after) => (rest.take len.toNat :: labels, after))

/-- `labels.join(".")`, each label decoded on its own. -/
def dottedName (labels : List Bytes) : Text := ['.'].intercalate (labels.map fromUtf8Lossy)

def parseQuery (buf : Bytes) : Except QueryError Question :=
  if buf.length < headerLen then .error .truncated
  else
    match u16At buf 0, u16At buf 2 with
    | some id, some flags =>
        if flags &&& 0x8000 ≠ 0 then .error (.malformed id rcodeFormerr)
        else if (flags >>> 11) &&& 0x0f ≠ 0 then .error (.malformed id rcodeNotimp)
        else if u16At buf 4 ≠ some 1 then .error (.malformed id rcodeFormerr)
        else
          let body := buf.drop headerLen
          match readLabels buf.length 0 body with
          | none => .error (.malformed id rcodeFormerr)
          | some (labels, after) =>
              match u16At after 0, u16At after 2 with
              | some qtype, some qclass =>
                  .ok {
                    id
                    name := dottedName labels
                    qtype
                    qclass
                    flags := flags &&& 0x7900
                    raw := body.take (body.length - after.length + 4)
                  }
              | _, _ => .error (.malformed id rcodeFormerr)
    | _, _ => .error .truncated

end Wire

/-- The name that the health probe asks for. -/
def probeName : Text := "health.wsl-zerotrust.invalid".toList

/-- What becomes of one query. -/
inductive Handling where
  | dropped
  | refused (id rcode : Nat)
  /-- An empty answer to the probe. -/
  | probed (question : Wire.Question)
  /-- An answer with the addresses of an override, of the question's family. -/
  | answered (question : Wire.Question) (found : Found) (ttl : Nat)
  | forwarded (question : Wire.Question)
  deriving DecidableEq

/-- One query in, with the table as it is once it has been refreshed. -/
def handle (ttl : Nat) (table : Overrides) (query : Bytes) : Handling :=
  match Wire.parseQuery query with
  | .error .truncated => .dropped
  | .error (.malformed id rcode) => .refused id rcode
  | .ok question =>
      if toAsciiLowercase question.name = toAsciiLowercase probeName then .probed question
      else
        match table.lookup question.name with
        | some found => .answered question found ttl
        | none => .forwarded question

-----------------------------------------------------------------------------------------
-- Well-formed queries
-----------------------------------------------------------------------------------------

/-- A query with one question: a header, the labels of the name, and the type and the class with
whatever follows them.
-/
structure Query where
  header : Bytes
  labels : List Bytes
  rest : Bytes
  header_length : header.length = Wire.headerLen
  flags : ∃ flags, Wire.u16At header 2 = some flags ∧ flags &&& 0x8000 = 0
    ∧ (flags >>> 11) &&& 0x0f = 0
  one_question : Wire.u16At header 4 = some 1
  label_length : ∀ label ∈ labels, 0 < label.length ∧ label.length ≤ 63
  name_length : (labels.map (·.length + 1)).sum ≤ 255
  rest_length : 4 ≤ rest.length

/-- A label behind its length. -/
def labelBytes (label : Bytes) : Bytes := UInt8.ofNat label.length :: label

def Query.bytes (query : Query) : Bytes :=
  query.header ++ (query.labels.flatMap labelBytes ++ 0 :: query.rest)

section Reading

open Wire

/-- The length of a label is below the bits of a compression pointer. -/
theorem length_byte {length : Nat} (some : 0 < length) (short : length ≤ 63)
    : UInt8.ofNat length ≠ 0 ∧ UInt8.ofNat length &&& 0xc0 = 0
      ∧ (UInt8.ofNat length).toNat = length := by
  have all : ∀ length < 64, 0 < length →
      UInt8.ofNat length ≠ 0 ∧ UInt8.ofNat length &&& 0xc0 = 0
        ∧ (UInt8.ofNat length).toNat = length := by
    decide +kernel
  exact all length (by omega) some

/-- The labels are read back, by induction on them. -/
theorem readLabels_bytes {labels : List Bytes} {rest : Bytes} {fuel nameLen : Nat}
    (lengths : ∀ label ∈ labels, 0 < label.length ∧ label.length ≤ 63)
    (short : nameLen + (labels.map (·.length + 1)).sum ≤ 255) (enough : labels.length < fuel)
    : readLabels fuel nameLen (labels.flatMap labelBytes ++ 0 :: rest) = some (labels, rest) := by
  induction labels generalizing fuel nameLen with
  | nil =>
      obtain ⟨fuel, rfl⟩ := Nat.exists_eq_add_one_of_ne_zero (Nat.ne_of_gt enough)
      rfl
  | cons label labels ih =>
      obtain ⟨fuel, rfl⟩ :=
        Nat.exists_eq_add_one_of_ne_zero (Nat.ne_of_gt (Nat.zero_lt_of_lt enough))
      obtain ⟨⟨some, few⟩, lengths⟩ := List.forall_mem_cons.mp lengths
      obtain ⟨notZero, plain, size⟩ := length_byte some few
      simp only [List.map_cons, List.sum_cons, List.length_cons] at short enough
      have next := @ih fuel (nameLen + label.length + 1) lengths (by omega) (by omega)
      have shape : (label :: labels).flatMap labelBytes ++ 0 :: rest
          = UInt8.ofNat label.length :: (label ++ (labels.flatMap labelBytes ++ 0 :: rest)) := by
        simp [labelBytes]
      have within : ¬ 255 < nameLen + label.length + 1 := by omega
      rw [shape, readLabels, if_neg notZero, if_neg (not_not.mpr plain), size]
      simp only [List.drop_left, List.take_left, next, within, if_false, List.length_append,
        Option.map_some]
      rw [if_neg (by omega)]

/-- There are at least as many bytes as labels, by induction on the labels. -/
theorem labels_length (labels : List Bytes)
    : labels.length ≤ (labels.flatMap labelBytes).length := by
  induction labels with
  | nil => exact Nat.le_refl _
  | cons label labels ih =>
      rw [List.flatMap_cons, List.length_append, List.length_cons]
      simp only [labelBytes, List.length_cons]
      omega

end Reading

end WslVpn.Dns
