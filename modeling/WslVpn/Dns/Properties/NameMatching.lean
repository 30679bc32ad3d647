import WslVpn.Dns.Server

/-! Overrides as a matter of names: sequences of labels. The resolver compares text instead, in which
a dot inside a label looks like the end of one.
-/

open Separated

namespace WslVpn.Dns

/-- `byte.to_ascii_lowercase()`. -/
def lowerByte (byte : UInt8) : UInt8 := if 0x41 ≤ byte ∧ byte ≤ 0x5a then byte + 0x20 else byte

/-- The bytes of a text. -/
def textBytes (text : Text) : Bytes := text.flatMap String.utf8EncodeChar

/-- The labels on the wire are those of the name, ignoring ASCII case. -/
def SameName (labels : List Bytes) (name : Text) : Prop :=
  labels.map (·.map lowerByte) = (name.splitOn '.').map textBytes

/-- The labels end with those of the suffix, and there is one more at least. -/
def Covers (labels : List Bytes) (suffix : Text) : Prop :=
  ∃ front back, labels = front ++ back ∧ front ≠ [] ∧ SameName back suffix

/-- The override that the rules choose for a name: the exact one if there is one, otherwise the wildcard
of the longest suffix.
-/
inductive Chooses (table : Overrides) (labels : List Bytes) : Found → Prop where
  | exact {name records} (stored : table.exact.get name = some records)
    (same : SameName labels name)
    : Chooses table labels (.exact name records)
  | wildcard {suffix records} (stored : table.wildcard.get suffix = some records)
    (covers : Covers labels suffix)
    (noExact : ∀ name, table.exact.get name ≠ none → ¬ SameName labels name)
    (longest
      : ∀ other, table.wildcard.get other ≠ none → Covers labels other
          → (other.splitOn '.').length ≤ (suffix.splitOn '.').length)
    : Chooses table labels (.wildcard suffix records)

/-- The query is answered from the override that the rules choose, and otherwise forwarded, except that
of the probe.
-/
structure MatchesNames (ttl : Nat) (table : Overrides) (labels : List Bytes) (handling : Handling)
    : Prop where
  answers
    : ∀ found, Chooses table labels found → ∃ question, handling = .answered question found ttl
  only : ∀ question found ttl', handling = .answered question found ttl'
    → Chooses table labels found
  forwards
    : (∀ found, ¬ Chooses table labels found) → ¬ SameName labels probeName
        → ∃ question, handling = .forwarded question

/-- The label has a dot in it. -/
def dotted (label : Bytes) : Bool := label.contains 0x2e

/-- The labels behind the last one that has a dot in it. -/
def plainTail (labels : List Bytes) : List Bytes := labels.rtakeWhile (fun label => !dotted label)

/-- The text of the labels as the table is asked for it. -/
def soughtText (labels : List Bytes)
    : Text := toAsciiLowercase (trimEndDots (Wire.dottedName labels))

-----------------------------------------------------------------------------------------
-- Labels and their text
-----------------------------------------------------------------------------------------

/-- The labels as text, in lower case. -/
def folded (labels : List Bytes) : List Text :=
  labels.map (fun label => toAsciiLowercase (fromUtf8Lossy label))

theorem textBytes_ascii {text : Text} (ascii : ∀ char ∈ text, char.toNat < 0x80)
    : textBytes text = text.map (fun char => UInt8.ofNat char.toNat) := by
  induction text with
  | nil => rfl
  | cons char rest ih =>
      obtain ⟨low, ascii⟩ := List.forall_mem_cons.mp ascii
      have one : String.utf8EncodeChar char = [UInt8.ofNat char.toNat] :=
        @ascii_forall (fun char => String.utf8EncodeChar char = [UInt8.ofNat char.toNat])
          (by decide +kernel) char low
      rw [textBytes, List.flatMap_cons, one, ← textBytes, ih ascii]
      rfl

/-- ASCII text is determined by its bytes. -/
theorem textBytes_inj {first second : Text} (firstAscii : ∀ char ∈ first, char.toNat < 0x80)
    (secondAscii : ∀ char ∈ second, char.toNat < 0x80) (same : textBytes first = textBytes second)
    : first = second := by
  have back : ∀ {text : Text}, (∀ char ∈ text, char.toNat < 0x80) →
      (textBytes text).map (fun byte => Char.ofNat byte.toNat) = text := by
    intro text ascii
    rw [textBytes_ascii ascii, List.map_map]
    refine (List.map_congr_left ?_).trans (List.map_id text)
    intro char member
    exact @ascii_forall (fun char => Char.ofNat (UInt8.ofNat char.toNat).toNat = char)
      (by decide +kernel) char (ascii char member)
  rw [← back firstAscii, same, back secondAscii]

theorem lowerByte_ascii (byte : UInt8) : (lowerByte byte).toNat < 0x80 ↔ byte.toNat < 0x80 := by
  have all : ∀ code < 256, (lowerByte (UInt8.ofNat code)).toNat < 0x80
      ↔ (UInt8.ofNat code).toNat < 0x80 := by
    decide +kernel
  have here := all byte.toNat byte.toNat_lt
  rwa [UInt8.ofNat_toNat] at here

theorem lowered_ascii {label : Bytes} (ascii : ∀ byte ∈ label, byte.toNat < 0x80)
    : ∀ char ∈ toAsciiLowercase (fromUtf8Lossy label), char.toNat < 0x80 := by
  intro char member
  obtain ⟨before, inside, rfl⟩ := List.mem_map.mp member
  exact (toLower_ascii before).mpr
    ((fromUtf8Lossy_chunks label).ascii_iff.1.mpr ascii before inside)

/-- Lower-casing bytes of ASCII is lower-casing the text. -/
theorem textBytes_lower {label : Bytes} (ascii : ∀ byte ∈ label, byte.toNat < 0x80)
    : textBytes (toAsciiLowercase (fromUtf8Lossy label)) = label.map lowerByte := by
  have text := (fromUtf8Lossy_chunks label).ascii_iff.2 ascii
  have all : ∀ code < 0x80, UInt8.ofNat (Char.ofNat (UInt8.ofNat code).toNat).toLower.toNat
      = lowerByte (UInt8.ofNat code) := by
    decide +kernel
  rw [textBytes_ascii (lowered_ascii ascii), text, toAsciiLowercase, List.map_map, List.map_map]
  refine List.map_congr_left ?_
  intro byte member
  have here := all byte.toNat (ascii byte member)
  rwa [UInt8.ofNat_toNat] at here

/-- A label on the wire is one of a host name exactly when its text is. -/
theorem sameLabel_iff {label : Bytes} {host : Text} (isHost : HostLabel host)
    : label.map lowerByte = textBytes host
      ↔ toAsciiLowercase (fromUtf8Lossy label) = host := by
  have hostAscii : ∀ char ∈ host, char.toNat < 0x80 := fun char member => (isHost.2 char member).1
  constructor
  · intro same
    have ascii : ∀ byte ∈ label, byte.toNat < 0x80 := by
      intro byte member
      refine (lowerByte_ascii byte).mp ?_
      have inside : lowerByte byte ∈ textBytes host := same ▸ List.mem_map_of_mem member
      rw [textBytes_ascii hostAscii] at inside
      obtain ⟨char, there, code⟩ := List.mem_map.mp inside
      rw [← code, UInt8.toNat_ofNat']
      have low := hostAscii char there
      omega
    exact textBytes_inj (lowered_ascii ascii) hostAscii ((textBytes_lower ascii).trans same)
  · intro same
    have ascii : ∀ byte ∈ label, byte.toNat < 0x80 := by
      refine (fromUtf8Lossy_chunks label).ascii_iff.1.mp ?_
      intro char member
      refine (toLower_ascii char).mp (hostAscii _ ?_)
      rw [← same]
      exact List.mem_map_of_mem member
    rw [← same, textBytes_lower ascii]

/-- The same for whole names, by induction on the labels. -/
theorem sameLabels_iff {labels : List Bytes} {hosts : List Text}
    (areHosts : ∀ host ∈ hosts, HostLabel host)
    : labels.map (·.map lowerByte) = hosts.map textBytes ↔ folded labels = hosts := by
  induction labels generalizing hosts with
  | nil => cases hosts <;> simp [folded]
  | cons label labels ih =>
      cases hosts with
      | nil => simp [folded]
      | cons host hosts =>
          obtain ⟨isHost, areHosts⟩ := List.forall_mem_cons.mp areHosts
          simp only [folded, List.map_cons, List.cons.injEq]
          exact and_congr (sameLabel_iff isHost) (ih areHosts)

theorem sameName_iff {labels : List Bytes} {name : Text} (isHost : HostName name)
    : SameName labels name ↔ folded labels = name.splitOn '.' :=
  sameLabels_iff isHost

/-- A suffix of host labels is covered when it is a proper end of the folded labels. -/
theorem covers_iff {labels : List Bytes} {suffix : Text} (isHost : HostName suffix)
    : Covers labels suffix
      ↔ ∃ front, front ≠ [] ∧ folded labels = front ++ suffix.splitOn '.' := by
  constructor
  · intro covers
    obtain ⟨front, back, rfl, some, same⟩ := covers
    refine ⟨folded front, by simpa [folded] using some, ?_⟩
    rw [folded, List.map_append, ← folded, ← folded, (sameName_iff isHost).mp same]
  · intro ends
    obtain ⟨front, some, parts⟩ := ends
    obtain ⟨first, second, rfl, rfl, ends⟩ := List.map_eq_append_iff.mp parts
    refine ⟨first, second, rfl, by simpa using some, (sameName_iff isHost).mpr ends⟩

-----------------------------------------------------------------------------------------
-- The text that is looked up
-----------------------------------------------------------------------------------------

/-- Labels with a byte in each, and no dot in any. -/
def Plain (labels : List Bytes) : Prop := ∀ label ∈ labels, label ≠ [] ∧ dotted label = false

theorem lossy_filled {label : Bytes} (filled : label ≠ []) : fromUtf8Lossy label ≠ [] := by
  intro empty
  have chunks := fromUtf8Lossy_chunks label
  rw [empty] at chunks
  cases chunks
  exact filled rfl

theorem dot_not_mem_lossy {label : Bytes} (plain : dotted label = false)
    : '.' ∉ fromUtf8Lossy label := by
  intro dot
  have inside := (fromUtf8Lossy_chunks label).dot_mem.mp dot
  rw [dotted, List.contains_iff_mem.mpr inside] at plain
  cases plain

section Text

variable {front labels : List Bytes}

/-- The text of plain labels does not end with a dot. -/
theorem plain_last (plain : Plain labels) (some : labels ≠ [])
    : ∃ char, char ≠ '.' ∧ (Wire.dottedName labels).getLast? = .some char := by
  have filled : ∀ part ∈ labels.map fromUtf8Lossy, part ≠ [] := by
    intro part member
    obtain ⟨label, there, rfl⟩ := List.mem_map.mp member
    exact lossy_filled (plain label there).1
  have mapped : labels.map fromUtf8Lossy ≠ [] := by simpa using some
  obtain ⟨part, member, char, inside, ends⟩ := @getLast?_intercalate _ '.' _ filled mapped
  refine ⟨char, ?_, ends⟩
  intro isDot
  obtain ⟨label, there, rfl⟩ := List.mem_map.mp member
  exact dot_not_mem_lossy (plain label there).2 (isDot ▸ inside)

/-- The parts of the text of plain labels are the labels. -/
theorem plain_parts (plain : Plain labels) (some : labels ≠ [])
    : (toAsciiLowercase (Wire.dottedName labels)).splitOn '.' = folded labels := by
  have apart : ∀ part ∈ folded labels, '.' ∉ part := by
    intro part member dot
    obtain ⟨label, there, rfl⟩ := List.mem_map.mp member
    obtain ⟨char, inside, lowered⟩ := List.mem_map.mp dot
    rw [toLower_dot] at lowered
    exact dot_not_mem_lossy (plain label there).2 (lowered ▸ inside)
  have joined : toAsciiLowercase (Wire.dottedName labels) = ['.'].intercalate (folded labels) := by
    rw [toAsciiLowercase, Wire.dottedName, map_intercalate rfl, List.map_map]
    rfl
  rw [joined, List.splitOn_intercalate '.' apart (by simpa [folded] using some)]

theorem soughtText_plain (plain : Plain labels) (some : labels ≠ [])
    : (soughtText labels).splitOn '.' = folded labels := by
  obtain ⟨char, notDot, ends⟩ := plain_last plain some
  rw [soughtText, trimEndDots_of_last (by simpa [ends] using notDot), plain_parts plain some]

/-- Behind other labels, the parts of the text end with plain labels. -/
theorem soughtText_tail (plain : Plain labels) (some : front ≠ []) (more : labels ≠ [])
    : ∃ first, first ≠ [] ∧ (soughtText (front ++ labels)).splitOn '.'
      = first ++ folded labels := by
  obtain ⟨char, notDot, ends⟩ := plain_last plain more
  have whole : Wire.dottedName (front ++ labels)
      = Wire.dottedName front ++ '.' :: Wire.dottedName labels := by
    rw [Wire.dottedName, List.map_append,
      intercalate_append (by simpa using some) (by simpa using more)]
    rfl
  have kept : trimEndDots (Wire.dottedName (front ++ labels))
      = Wire.dottedName (front ++ labels) := by
    refine trimEndDots_of_last ?_
    rw [whole, List.getLast?_append_of_ne_nil _ (List.cons_ne_nil _ _), List.getLast?_cons, ends]
    simpa using notDot
  refine ⟨(toAsciiLowercase (Wire.dottedName front)).splitOn '.', List.splitOn_ne_nil _ _, ?_⟩
  have lowered : toAsciiLowercase (Wire.dottedName front ++ '.' :: Wire.dottedName labels)
      = toAsciiLowercase (Wire.dottedName front)
        ++ '.' :: toAsciiLowercase (Wire.dottedName labels) := by
    simp [toAsciiLowercase]
  rw [soughtText, kept, whole, lowered, List.splitOn_append_cons_self, plain_parts plain more]

end Text

-----------------------------------------------------------------------------------------
-- Names against the text
-----------------------------------------------------------------------------------------

/-- One list ends with a third one, behind something, when another one does that has the same end.
-/
theorem proper_end {Part : Type} {first second tail suffix : List Part}
    (alike : first = [] ↔ second = []) (short : suffix.length ≤ tail.length)
    (ends : ∃ front, front ≠ [] ∧ first ++ tail = front ++ suffix)
    : ∃ front, front ≠ [] ∧ second ++ tail = front ++ suffix := by
  obtain ⟨front, some, same⟩ := ends
  have inside : suffix <:+ tail := by
    refine List.suffix_of_suffix_length_le ?_ (List.suffix_append first tail) short
    exact same ▸ List.suffix_append front suffix
  obtain ⟨middle, rfl⟩ := inside
  refine ⟨second ++ middle, ?_, (List.append_assoc _ _ _).symm⟩
  intro empty
  obtain ⟨noSecond, noMiddle⟩ := List.append_eq_nil_iff.mp empty
  rw [alike.mpr noSecond, noMiddle, List.nil_append, List.nil_append] at same
  refine some ?_
  have lengths := congrArg List.length same
  rw [List.length_append] at lengths
  exact List.length_eq_zero_iff.mp (by omega)

section Names

variable {labels : List Bytes} {name suffix : Text}

/-- The labels up to the last one that has a dot in it. -/
def dottedHead (labels : List Bytes) : List Bytes := labels.rdropWhile (fun label => !dotted label)

theorem head_tail (labels : List Bytes) : dottedHead labels ++ plainTail labels = labels :=
  List.rdropWhile_append_rtakeWhile

theorem dottedHead_eq_nil : dottedHead labels = [] ↔ ∀ label ∈ labels, dotted label = false := by
  simp [dottedHead, List.rdropWhile_eq_nil_iff]

theorem plainTail_plain (filled : ∀ label ∈ labels, label ≠ []) : Plain (plainTail labels) := by
  intro label member
  have plain := List.mem_rtakeWhile_imp member
  refine ⟨filled label ?_, by simpa using plain⟩
  rw [← head_tail labels]
  exact List.mem_append_right _ member

/-- Labels without a dot that the name ends with are among those behind the last dotted one. -/
theorem length_le_plainTail {front back : List Bytes} (plain : ∀ label ∈ back, dotted label = false)
    : back.length ≤ (plainTail (front ++ back)).length := by
  have whole : plainTail (front ++ back) = plainTail front ++ back := by
    rw [plainTail, plainTail, List.rtakeWhile, List.rtakeWhile, List.reverse_append,
      List.takeWhile_append_of_pos, List.reverse_append, List.reverse_reverse]
    intro label member
    simp [plain label (List.mem_reverse.mp member)]
  rw [whole, List.length_append]
  exact Nat.le_add_left _ _

/-- The labels of a host name have no dots in them. -/
theorem plain_of_folded (parts : folded labels = name.splitOn '.')
    : ∀ label ∈ labels, dotted label = false := by
  intro label member
  by_contra isDotted
  have dot : 0x2e ∈ label := by
    refine List.contains_iff_mem.mp ?_
    simpa [dotted] using isDotted
  have inside : toAsciiLowercase (fromUtf8Lossy label) ∈ name.splitOn '.' :=
    parts ▸ List.mem_map_of_mem member
  refine (of_mem_splitOn inside).1 ?_
  refine List.mem_map.mpr ⟨'.', (fromUtf8Lossy_chunks label).dot_mem.mpr dot, by decide⟩

theorem hostName_filled (isHost : HostName name) : name ≠ [] := by
  intro empty
  rw [empty] at isHost
  exact (isHost [] (by simp)).1 rfl

/-- A query is for a host name when its text is that name and no label has a dot in it. -/
theorem sameName_sought (filled : ∀ label ∈ labels, label ≠ []) (isHost : HostName name)
    : SameName labels name ↔ soughtText labels = name ∧ ∀ label ∈ labels, dotted label = false := by
  rw [sameName_iff isHost]
  constructor
  · intro parts
    have plain := plain_of_folded parts
    have some : labels ≠ [] := by
      intro empty
      rw [empty] at parts
      exact List.splitOn_ne_nil '.' name parts.symm
    refine ⟨splitOn_injective '.' ?_, plain⟩
    rw [soughtText_plain (fun label member => ⟨filled label member, plain label member⟩) some,
      parts]
  · intro same
    obtain ⟨rfl, plain⟩ := same
    have some : labels ≠ [] := by
      intro empty
      rw [empty] at isHost
      exact hostName_filled isHost rfl
    exact (soughtText_plain (fun label member => ⟨filled label member, plain label member⟩) some).symm

/-- The parts of the text end with the labels behind the last dotted one, and with nothing else if
there is none.
-/
theorem soughtText_parts (filled : ∀ label ∈ labels, label ≠ []) (some : plainTail labels ≠ [])
    : ∃ first, (first = [] ↔ dottedHead labels = [])
        ∧ (soughtText labels).splitOn '.' = first ++ folded (plainTail labels) := by
  have plain := plainTail_plain filled
  by_cases none : dottedHead labels = []
  · refine ⟨[], by simp [none], ?_⟩
    have whole : plainTail labels = labels := by
      rw [← List.nil_append (plainTail labels), ← none, head_tail]
    rw [whole] at plain some
    rw [whole, soughtText_plain plain some, List.nil_append]
  · obtain ⟨first, filledFirst, parts⟩ := soughtText_tail plain none some
    rw [head_tail] at parts
    exact ⟨first, iff_of_false filledFirst none, parts⟩

/-- A suffix covers a query when it stands behind a dot of the text and behind the last dotted
label.
-/
theorem covers_sought (filled : ∀ label ∈ labels, label ≠ []) (isHost : HostName suffix)
    : Covers labels suffix
      ↔ Behind '.' (soughtText labels) suffix
        ∧ (suffix.splitOn '.').length ≤ (plainTail labels).length := by
  have tailParts : (folded (plainTail labels)).length = (plainTail labels).length :=
    List.length_map _
  have whole : folded labels = folded (dottedHead labels) ++ folded (plainTail labels) := by
    rw [folded, ← head_tail labels, List.map_append]
    simp only [head_tail, folded]
  have noLabels : folded (dottedHead labels) = [] ↔ dottedHead labels = [] := List.map_eq_nil_iff
  have tailSome : (suffix.splitOn '.').length ≤ (plainTail labels).length
      → plainTail labels ≠ [] := by
    intro short empty
    rw [empty] at short
    exact List.splitOn_ne_nil '.' suffix (List.length_eq_zero_iff.mp (Nat.le_zero.mp short))
  rw [covers_iff isHost, behind_iff]
  constructor
  · intro ends
    obtain ⟨front, some, parts⟩ := ends
    obtain ⟨before, back, split, _, backParts⟩ := List.map_eq_append_iff.mp parts
    have short : (suffix.splitOn '.').length ≤ (plainTail labels).length := by
      have bound := @length_le_plainTail before back (plain_of_folded backParts)
      rw [← split] at bound
      rwa [← backParts, List.length_map]
    obtain ⟨first, alike, textParts⟩ := soughtText_parts filled (tailSome short)
    refine ⟨?_, short⟩
    rw [textParts]
    exact proper_end (noLabels.trans alike.symm) (tailParts ▸ short) ⟨front, some, whole ▸ parts⟩
  · intro behind
    obtain ⟨⟨front, some, parts⟩, short⟩ := behind
    obtain ⟨first, alike, textParts⟩ := soughtText_parts filled (tailSome short)
    rw [whole]
    exact proper_end (alike.trans noLabels.symm) (tailParts ▸ short)
      ⟨front, some, textParts ▸ parts⟩

/-- A suffix behind a dot of a text without dotted labels has fewer labels. -/
theorem behind_short (filled : ∀ label ∈ labels, label ≠ [])
    (plain : ∀ label ∈ labels, dotted label = false)
    (behind : Behind '.' (soughtText labels) suffix)
    : (suffix.splitOn '.').length ≤ (plainTail labels).length := by
  have some : labels ≠ [] := by
    intro empty
    rw [empty] at behind
    exact not_behind_nil behind
  have whole : plainTail labels = labels := by
    rw [← List.nil_append (plainTail labels), ← dottedHead_eq_nil.mpr plain, head_tail]
  obtain ⟨front, _, parts⟩ := behind_iff.mp behind
  rw [soughtText_plain (fun label member => ⟨filled label member, plain label member⟩) some] at parts
  have lengths := congrArg List.length parts
  rw [folded, List.length_map, List.length_append] at lengths
  rw [whole]
  omega

end Names

end WslVpn.Dns
