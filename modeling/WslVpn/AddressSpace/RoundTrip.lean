import WslVpn.AddressSpace.Text

/-! Every written address and network reads back as itself, so different networks are written
differently.
-/

namespace AddressSpace

theorem stopsAt_nil (radix : Nat) : StopsAt radix [] := by
  simp [StopsAt]

theorem stopsAt_cons {radix : Nat} {char : Char} {rest : List Char}
    (stop : digitValue? radix char = none)
    : StopsAt radix (char :: rest) := by
  intro found member
  rwa [← Option.some.inj member]

@[simp] theorem readGiven_self (char : Char) (rest : List Char)
    : readGiven char (char :: rest) = some rest := by
  simp [readGiven]

-----------------------------------------------------------------------------------------
-- Dotted quads
-----------------------------------------------------------------------------------------

theorem readOctet_toDigits {octet : Nat} (below : octet < 256) {rest : List Char}
    (stop : StopsAt 10 rest)
    : readOctet (Nat.toDigits 10 octet ++ rest) = some (octet, rest) := by
  have short : (Nat.toDigits 10 octet).length ≤ 3 :=
    (Nat.length_toDigits_le_iff (by decide) (by decide)).mpr (by omega)
  exact readNumber_toDigits (by decide) (by decide) below short stop

theorem renderIpv4_eq (address : BitVec 32)
    : renderIpv4 address
      = Nat.toDigits 10 (address.toNat / 2 ^ 24)
        ++ '.' :: (Nat.toDigits 10 (address.toNat / 2 ^ 16 % 256)
        ++ '.' :: (Nat.toDigits 10 (address.toNat / 2 ^ 8 % 256)
        ++ '.' :: Nat.toDigits 10 (address.toNat % 256))) := by
  simp [renderIpv4, IpAddr.octets, List.intercalate, List.intersperse]

theorem readIpv4_render (address : BitVec 32) {rest : List Char} (stop : StopsAt 10 rest)
    : readIpv4 (renderIpv4 address ++ rest) = some (address, rest) := by
  have bound := address.isLt
  have dot (tail : List Char) : StopsAt 10 ('.' :: tail) := stopsAt_cons (by decide)
  have first (tail : List Char) := readOctet_toDigits
    (by omega : address.toNat / 2 ^ 24 < 256) (dot tail)
  have second (tail : List Char) := readOctet_toDigits
    (by omega : address.toNat / 2 ^ 16 % 256 < 256) (dot tail)
  have third (tail : List Char) := readOctet_toDigits
    (by omega : address.toNat / 2 ^ 8 % 256 < 256) (dot tail)
  have fourth := readOctet_toDigits (by omega : address.toNat % 256 < 256) stop
  simp only [renderIpv4_eq, List.append_assoc, List.cons_append, readIpv4, first, second, third,
    fourth, readGiven_self, Option.bind_eq_bind, Option.bind_some, IpAddr.ofOctets_octets]

theorem parseIpv4_render (address : BitVec 32)
    : parseIpv4 (renderIpv4 address) = some address := by
  have read := readIpv4_render address (stopsAt_nil 10)
  rw [List.append_nil] at read
  simp only [parseIpv4, read]

/-- No digit is one of the separators. -/
theorem digitChar_ne_separator {digit : Nat} (below : digit < 16)
    : digit.digitChar ∉ ['.', ':', '/', '+'] := by
  revert digit
  decide

theorem readNumber_rest {radix maxDigits limit number : Nat} {zeroPrefix : Bool}
    {text rest : List Char}
    (read : readNumber radix maxDigits zeroPrefix limit text = some (number, rest))
    : rest = (spanDigits radix text).2 := by
  simp only [readNumber] at read
  split at read
  · cases read
  · split at read
    · cases read
    · split at read
      · exact (Prod.mk.inj (Option.some.inj read)).2.symm
      · cases read

theorem spanDigits_suffix (radix : Nat) (text : List Char)
    : (spanDigits radix text).2 <:+ text := by
  induction text with
  | nil => exact List.suffix_rfl
  | cons char tail ih =>
      simp only [spanDigits]
      cases digitValue? radix char with
      | none => exact List.suffix_rfl
      | some digit => exact ih.trans (List.suffix_cons _ _)

/-- A character that is no digit is not consumed by the digit reader. -/
theorem spanDigits_keeps {radix : Nat} {char : Char} (noDigit : digitValue? radix char = none)
    {text : List Char} (member : char ∈ text)
    : char ∈ (spanDigits radix text).2 := by
  induction text with
  | nil => exact member
  | cons first tail ih =>
      simp only [spanDigits]
      cases value : digitValue? radix first with
      | none => exact member
      | some digit =>
          rcases List.mem_cons.mp member with same | later
          · rw [same, value] at noDigit
            cases noDigit
          · exact ih later

/-- A text without a dot holds no dotted quad. -/
theorem readIpv4_none {text : List Char} (dotless : '.' ∉ text) : readIpv4 text = none := by
  cases read : readOctet text with
  | none => simp [readIpv4, read]
  | some pair =>
      obtain ⟨octet, rest⟩ := pair
      have absent : '.' ∉ rest := by
        rw [readNumber_rest read]
        exact fun member => dotless ((spanDigits_suffix 10 text).subset member)
      have noDot : readGiven '.' rest = none := by
        cases rest with
        | nil => rfl
        | cons char tail =>
            have : char ≠ '.' := fun same => absent (by simp [same])
            simp [readGiven, this]
      simp [readIpv4, read, noDot]

-----------------------------------------------------------------------------------------
-- Groups
-----------------------------------------------------------------------------------------

theorem readGroup_toDigits {group : Nat} (below : group < 65536) {rest : List Char}
    (stop : StopsAt 16 rest)
    : readNumber 16 4 true 65536 (Nat.toDigits 16 group ++ rest) = some (group, rest) := by
  have short : (Nat.toDigits 16 group).length ≤ 4 :=
    (Nat.length_toDigits_le_iff (by decide) (by decide)).mpr (by omega)
  exact readNumber_toDigits (by decide) (by decide) below short stop

theorem renderGroups_cons (group next : Nat) (groups : List Nat)
    : renderGroups (group :: next :: groups)
      = Nat.toDigits 16 group ++ ':' :: renderGroups (next :: groups) := by
  simp [renderGroups, List.intercalate]

@[simp] theorem renderGroups_singleton (group : Nat)
    : renderGroups [group] = Nat.toDigits 16 group := by
  simp [renderGroups, List.intercalate]

@[simp] theorem renderGroups_nil : renderGroups [] = [] := rfl

theorem renderGroups_chars {groups : List Nat} {char : Char}
    (member : char ∈ renderGroups groups)
    : char = ':' ∨ ∃ digit < 16, char = digit.digitChar := by
  induction groups with
  | nil => simp at member
  | cons group groups ih =>
      cases groups with
      | nil => exact Or.inr (toDigits_chars (by decide) (by simpa using member))
      | cons next groups =>
          rw [renderGroups_cons] at member
          rcases List.mem_append.mp member with digit | later
          · exact Or.inr (toDigits_chars (by decide) digit)
          · rcases List.mem_cons.mp later with colon | later
            · exact Or.inl colon
            · exact ih later

theorem renderGroups_dotless (groups : List Nat) : '.' ∉ renderGroups groups := by
  intro member
  rcases renderGroups_chars member with colon | ⟨digit, below, same⟩
  · exact absurd colon (by decide)
  · exact digitChar_ne_separator below (by simp [← same])

/-- The places where a written list of groups may end: at the end of the text or at a double
colon, with no dotted quad to follow.
-/
structure GroupsEnd (rest : List Char) : Prop where
  stop : rest = [] ∨ ∃ tail, rest = ':' :: ':' :: tail
  dotless : '.' ∉ rest

theorem GroupsEnd.stopsAt {rest : List Char} (ends : GroupsEnd rest) : StopsAt 16 rest := by
  rcases ends.stop with rfl | ⟨tail, rfl⟩
  · exact stopsAt_nil 16
  · exact stopsAt_cons (by decide)

theorem GroupsEnd.readSeparated_none {rest : List Char} (ends : GroupsEnd rest) (first : Bool)
    : readSeparated first (readNumber 16 4 true 65536) rest = none := by
  have noGroup {text : List Char} (stop : StopsAt 16 text)
      : readNumber 16 4 true 65536 text = none := readNumber_none_of_stop stop
  have colon (tail : List Char) : StopsAt 16 (':' :: tail) := stopsAt_cons (by decide)
  rcases ends.stop with rfl | ⟨tail, rfl⟩
  · cases first with
    | true => exact noGroup (stopsAt_nil 16)
    | false => rfl
  · cases first with
    | true => exact noGroup (colon (':' :: tail))
    | false =>
        simp only [readSeparated, Bool.false_eq_true, if_false, readGiven_self, Option.bind_some]
        exact noGroup (colon tail)

theorem readSeparated_quad_none {text : List Char} (dotless : '.' ∉ text) (first : Bool)
    : readSeparated first readIpv4 text = none := by
  cases first with
  | true => exact readIpv4_none dotless
  | false =>
      simp only [readSeparated, Bool.false_eq_true, if_false]
      cases text with
      | nil => rfl
      | cons char tail =>
          by_cases colon : char = ':'
          · subst colon
            rw [readGiven_self, Option.bind_some]
            exact readIpv4_none (fun member => dotless (List.mem_cons_of_mem _ member))
          · simp [readGiven, colon]

/-- One step of the group reader on a text without dotted quads. -/
theorem readGroups_succ {first : Bool} {room : Nat} {text : List Char} (dotless : '.' ∉ text)
    : readGroups first (room + 1) text
      = match readSeparated first (readNumber 16 4 true 65536) text with
        | none => ([], false, text)
        | some (group, rest) =>
            let (groups, quad, rest) := readGroups false room rest
            (group :: groups, quad, rest) := by
  have quadFree : (if 0 < room then readSeparated first readIpv4 text else none) = none := by
    rw [readSeparated_quad_none dotless, ite_self]
  rw [readGroups]
  split
  · next found =>
      rw [quadFree] at found
      cases found
  · rfl

/-- The text of a list of groups as the reader meets it: with a colon in front unless it comes
first.
-/
def separated (first : Bool) (groups : List Nat) : List Char :=
  match first, groups with
  | _, [] => []
  | true, groups => renderGroups groups
  | false, groups => ':' :: renderGroups groups

@[simp] theorem separated_first (group : Nat) (groups : List Nat)
    : separated true (group :: groups) = renderGroups (group :: groups) := rfl

@[simp] theorem separated_later (group : Nat) (groups : List Nat)
    : separated false (group :: groups) = ':' :: renderGroups (group :: groups) := rfl

theorem separated_dotless (first : Bool) (groups : List Nat) : '.' ∉ separated first groups := by
  cases groups with
  | nil => simp [separated]
  | cons group groups =>
      have absent := renderGroups_dotless (group :: groups)
      cases first <;> simp only [separated, List.mem_cons, not_or] <;>
        first | exact absent | exact ⟨by decide, absent⟩

theorem renderGroups_eq_separated (group : Nat) (groups : List Nat)
    : renderGroups (group :: groups) = Nat.toDigits 16 group ++ separated false groups := by
  cases groups with
  | nil => simp [separated]
  | cons next groups => rw [renderGroups_cons]; rfl

/-- Written groups read back up to the place where they end, by induction on the groups. -/
theorem readGroups_separated {groups : List Nat} (small : ∀ group ∈ groups, group < 65536)
    (first : Bool) {room : Nat} (fits : groups.length ≤ room) {rest : List Char}
    (ends : GroupsEnd rest)
    : readGroups first room (separated first groups ++ rest) = (groups, false, rest) := by
  induction groups generalizing first room with
  | nil =>
      cases room with
      | zero => simp [separated, readGroups]
      | succ room =>
          simp only [separated, List.nil_append]
          rw [readGroups_succ ends.dotless, ends.readSeparated_none]
  | cons group groups ih =>
      cases room with
      | zero => simp at fits
      | succ room =>
          have tail : readGroups false room (separated false groups ++ rest)
              = (groups, false, rest) :=
            ih (fun other member => small other (List.mem_cons_of_mem _ member)) false
              (by simpa using fits)
          have follows : StopsAt 16 (separated false groups ++ rest) := by
            cases groups with
            | nil => simpa [separated] using ends.stopsAt
            | cons next groups => exact stopsAt_cons (by decide)
          have head : readSeparated first (readNumber 16 4 true 65536)
              (separated first (group :: groups) ++ rest)
              = some (group, separated false groups ++ rest) := by
            have read := readGroup_toDigits (small group List.mem_cons_self) follows
            cases first <;>
              simp only [separated_first, separated_later, readSeparated, Bool.false_eq_true,
                if_false, if_true, List.cons_append, readGiven_self, Option.bind_some,
                renderGroups_eq_separated, List.append_assoc, read]
          have dotless : '.' ∉ separated first (group :: groups) ++ rest := by
            intro member
            rcases List.mem_append.mp member with inside | behind
            · exact separated_dotless first _ inside
            · exact ends.dotless behind
          rw [readGroups_succ dotless, head]
          simp only [tail]

-----------------------------------------------------------------------------------------
-- Whole addresses
-----------------------------------------------------------------------------------------

/-- A span lies within the flags and covers set flags only. -/
def Span.Covers (span : Span) (flags : List Bool) : Prop :=
  span.start + span.len ≤ flags.length
  ∧ (flags.drop span.start).take span.len = List.replicate span.len true

/-- The chosen run is a run of set flags. There are eight flags. -/
theorem longestSpan_covers (a b c d e f g h : Bool)
    : (longestSpan ⟨0, 0⟩ ⟨0, 0⟩ 0 [a, b, c, d, e, f, g, h]).Covers [a, b, c, d, e, f, g, h] := by
  unfold Span.Covers
  revert a b c d e f g h
  decide

/-- The groups around the chosen run and the run itself make up the whole list. -/
theorem zeroSpan_split {groups : List Nat} (eight : groups.length = 8)
    : groups.take (zeroSpan groups).start ++ List.replicate (zeroSpan groups).len 0
        ++ groups.drop ((zeroSpan groups).start + (zeroSpan groups).len) = groups
      ∧ (zeroSpan groups).start + (zeroSpan groups).len ≤ 8 := by
  have covers : (zeroSpan groups).Covers (groups.map (· == 0)) := by
    match groups, eight with
    | [a, b, c, d, e, f, g, h], _ => exact longestSpan_covers _ _ _ _ _ _ _ _
  obtain ⟨within, zeros⟩ := covers
  generalize zeroSpan groups = span at *
  rw [List.length_map, eight] at within
  refine ⟨?_, within⟩
  have run : (groups.drop span.start).take span.len = List.replicate span.len 0 := by
    rw [← List.map_drop, ← List.map_take] at zeros
    apply List.eq_replicate_iff.mpr
    refine ⟨by simp [eight]; omega, fun group member => ?_⟩
    have flag : (group == 0) ∈ ((groups.drop span.start).take span.len).map (· == 0) :=
      List.mem_map_of_mem member
    rw [zeros] at flag
    simpa using (List.mem_replicate.mp flag).2
  rw [← run, List.append_assoc, ← List.drop_drop, List.take_append_drop, List.take_append_drop]

theorem segments_length (address : BitVec 128) : (segments address).length = 8 := rfl

theorem segments_small (address : BitVec 128) : ∀ group ∈ segments address, group < 65536 := by
  have bound := address.isLt
  intro group member
  simp only [segments, List.mem_cons, List.not_mem_nil, or_false] at member
  omega

/-- A group joined to the number of the groups before it. -/
theorem joined_group (number shift : Nat)
    : number / 2 ^ (shift + 16) * 65536 + number / 2 ^ shift % 65536 = number / 2 ^ shift := by
  rw [pow_add, ← Nat.div_div_eq_div_mul]
  exact Nat.div_add_mod' _ _

theorem ofSegments_segments (address : BitVec 128) : ofSegments (segments address) = address := by
  apply BitVec.eq_of_toNat_eq
  have last := joined_group address.toNat 0
  rw [pow_zero, Nat.div_one] at last
  simp only [ofSegments, segments, List.foldl_cons, List.foldl_nil, BitVec.toNat_ofNat, zero_mul,
    zero_add, joined_group address.toNat 96, joined_group address.toNat 80,
    joined_group address.toNat 64, joined_group address.toNat 48, joined_group address.toNat 32,
    joined_group address.toNat 16, last]
  exact Nat.mod_eq_of_lt address.isLt

/-- Groups written without a double colon. -/
theorem parseIpv6_groups {groups : List Nat} (eight : groups.length = 8)
    (small : ∀ group ∈ groups, group < 65536)
    : parseIpv6 (renderGroups groups) = some (ofSegments groups) := by
  have ends : GroupsEnd [] := ⟨Or.inl rfl, by simp⟩
  have read := readGroups_separated small true (le_of_eq eight) ends
  have text : separated true groups = renderGroups groups := by
    cases groups with
    | nil => rfl
    | cons => rfl
  rw [List.append_nil, text] at read
  simp [parseIpv6, read, eight]

/-- Groups written with a double colon for a run of zero groups. -/
theorem parseIpv6_compressed {head tail : List Nat} {zeros : Nat}
    (headSmall : ∀ group ∈ head, group < 65536) (tailSmall : ∀ group ∈ tail, group < 65536)
    (some_zeros : 1 ≤ zeros) (eight : head.length + zeros + tail.length = 8)
    : parseIpv6 (renderGroups head ++ [':', ':'] ++ renderGroups tail)
      = some (ofSegments (head ++ List.replicate zeros 0 ++ tail)) := by
  have text (groups : List Nat) : separated true groups = renderGroups groups := by
    cases groups with
    | nil => rfl
    | cons => rfl
  have endsHead : GroupsEnd (':' :: ':' :: renderGroups tail) := by
    refine ⟨Or.inr ⟨_, rfl⟩, ?_⟩
    have := renderGroups_dotless tail
    simp [this]
  have readHead := readGroups_separated headSmall true (by omega : head.length ≤ 8) endsHead
  have endsTail : GroupsEnd [] := ⟨Or.inl rfl, by simp⟩
  have readTail := readGroups_separated tailSmall true
    (by omega : tail.length ≤ 8 - (head.length + 1)) endsTail
  rw [text] at readHead readTail
  rw [List.append_nil] at readTail
  have short : head.length ≠ 8 := by omega
  have run : 8 - head.length - tail.length = zeros := by omega
  rw [List.append_assoc]
  simp only [List.cons_append, List.nil_append, parseIpv6, readHead, readTail, if_neg short,
    Bool.false_eq_true, if_false, run]

/-- A mapped address is read as six fixed groups and a dotted quad. -/
theorem parseIpv6_mapped (quad : BitVec 32)
    : parseIpv6 ("::ffff:".toList ++ renderIpv4 quad)
      = some (ofSegments [0, 0, 0, 0, 0, 65535, quad.toNat / 65536, quad.toNat % 65536]) := by
  have read := readIpv4_render quad (stopsAt_nil 10)
  rw [List.append_nil] at read
  have colon (tail : List Char) : StopsAt 16 (':' :: tail) := stopsAt_cons (by decide)
  have front (tail : List Char) : readGroups true 8 (':' :: tail) = ([], false, ':' :: tail) := by
    have noQuad : readIpv4 (':' :: tail) = none := by
      have : readOctet (':' :: tail) = none := readNumber_none_of_stop (stopsAt_cons (by decide))
      simp [readIpv4, this]
    have noGroup : readNumber 16 4 true 65536 (':' :: tail) = none :=
      readNumber_none_of_stop (colon tail)
    simp [readGroups, readSeparated, noQuad, noGroup]
  have behind (tail : List Char)
      : readIpv4 tail = some (quad, [])
        → readGroups true 7 ('f' :: 'f' :: 'f' :: 'f' :: ':' :: tail)
          = ([65535, quad.toNat / 65536, quad.toNat % 65536], true, []) := by
    intro quadRead
    have noQuad : readIpv4 ('f' :: 'f' :: 'f' :: 'f' :: ':' :: tail) = none := by
      have : readOctet ('f' :: 'f' :: 'f' :: 'f' :: ':' :: tail) = none :=
        readNumber_none_of_stop (stopsAt_cons (by decide))
      simp [readIpv4, this]
    have group : readNumber 16 4 true 65536 ('f' :: 'f' :: 'f' :: 'f' :: ':' :: tail)
        = some (65535, ':' :: tail) :=
      @readGroup_toDigits 65535 (by decide) _ (colon tail)
    simp [readGroups, readSeparated, noQuad, group, quadRead]
  simp [parseIpv6, front, behind _ read, List.replicate]

theorem parseIpv6_render (address : BitVec 128)
    : parseIpv6 (renderIpv6 address) = some address := by
  have whole := ofSegments_segments address
  have small := segments_small address
  have eight := segments_length address
  simp only [renderIpv6]
  split
  · rename_i mapped
    have bound := address.isLt
    rw [parseIpv6_mapped]
    simp only [segments, List.take_succ_cons, List.take_zero, List.cons.injEq, and_true] at mapped
    obtain ⟨zero, one, two, three, four, five⟩ := mapped
    have high : address.toNat / 2 ^ 48 = 0 := by omega
    have marker : address.toNat / 2 ^ 32 = 65535 := by omega
    refine congrArg some (BitVec.eq_of_toNat_eq ?_)
    simp only [ofSegments, List.foldl_cons, List.foldl_nil, BitVec.toNat_ofNat,
      BitVec.toNat_setWidth]
    clear zero one two three four five high
    omega
  · split
    · rename_i run
      obtain ⟨split, within⟩ := zeroSpan_split eight
      have lengths
          : ((segments address).take (zeroSpan (segments address)).start).length
            + (zeroSpan (segments address)).len
            + ((segments address).drop ((zeroSpan (segments address)).start
              + (zeroSpan (segments address)).len)).length = 8 := by
        simp only [List.length_take, List.length_drop, eight]
        omega
      rw [parseIpv6_compressed
        (fun group member => small group (List.mem_of_mem_take member))
        (fun group member => small group (List.mem_of_mem_drop member))
        (by omega) lengths, split, whole]
    · rw [parseIpv6_groups eight small, whole]

-----------------------------------------------------------------------------------------
-- Networks
-----------------------------------------------------------------------------------------

theorem colon_mem_renderIpv6 (address : BitVec 128) : ':' ∈ renderIpv6 address := by
  simp only [renderIpv6]
  split
  · exact List.mem_append_left _ (by decide)
  · split
    · simp
    · simp only [segments, renderGroups_cons]
      simp

/-- An octet reader stops in front of a colon, so a colon behind the text is still there. -/
theorem readIpv4_keeps_colon {text rest : List Char} {address : BitVec 32}
    (read : readIpv4 text = some (address, rest)) (colon : ':' ∈ text)
    : ':' ∈ rest := by
  have octet {text rest : List Char} {number : Nat} (read : readOctet text = some (number, rest))
      (colon : ':' ∈ text) : ':' ∈ rest := by
    rw [readNumber_rest read]
    exact spanDigits_keeps (by decide) colon
  have dot {text rest : List Char} (read : readGiven '.' text = some rest) (colon : ':' ∈ text)
      : ':' ∈ rest := by
    cases text with
    | nil => cases read
    | cons char tail =>
        simp only [readGiven] at read
        split at read
        · rename_i same
          cases read
          exact (List.mem_cons.mp colon).resolve_left (by rw [same]; decide)
        · cases read
  simp only [readIpv4, Option.bind_eq_bind, Option.bind_eq_some_iff, Option.some.injEq,
    Prod.mk.injEq, Prod.exists] at read
  obtain ⟨_, _, first, _, firstDot, _, _, second, _, secondDot, _, _, third, _, thirdDot, _, _,
    fourth, _, rfl⟩ := read
  exact octet fourth (dot thirdDot (octet third (dot secondDot (octet second (dot firstDot
    (octet first colon))))))

theorem parseIpv4_renderIpv6 (address : BitVec 128) : parseIpv4 (renderIpv6 address) = none := by
  cases read : readIpv4 (renderIpv6 address) with
  | none => simp only [parseIpv4, read]
  | some pair =>
      obtain ⟨quad, rest⟩ := pair
      have colon := readIpv4_keeps_colon read (colon_mem_renderIpv6 address)
      cases rest with
      | nil => cases colon
      | cons char tail => simp only [parseIpv4, read]

/-- A numeral holds no separator. -/
theorem separator_not_mem_toDigits {radix : Nat} (wide : 1 < radix) (small : radix ≤ 16)
    (number : Nat) {char : Char} (separator : char ∈ ['.', ':', '/', '+'])
    : char ∉ Nat.toDigits radix number := by
  intro member
  obtain ⟨digit, below, rfl⟩ := toDigits_chars wide member
  exact digitChar_ne_separator (lt_of_lt_of_le below small) separator

theorem toDigits_slashless (number : Nat) : '/' ∉ Nat.toDigits 10 number :=
  separator_not_mem_toDigits (by decide) (by decide) number (by decide)

theorem renderIpv4_slashless (address : BitVec 32) : '/' ∉ renderIpv4 address := by
  simp [renderIpv4_eq, toDigits_slashless]

theorem renderIpv6_slashless (address : BitVec 128) : '/' ∉ renderIpv6 address := by
  have groups (groups : List Nat) : '/' ∉ renderGroups groups := by
    intro member
    rcases renderGroups_chars member with colon | ⟨digit, below, same⟩
    · exact absurd colon (by decide)
    · exact digitChar_ne_separator below (by simp [← same])
  simp only [renderIpv6]
  split
  · simp [renderIpv4_slashless]
  · split
    · simp [groups]
    · exact groups _

theorem IpAddr.parse_render (address : IpAddr) : IpAddr.parse address.render = some address := by
  cases address with
  | v4 address => simp only [IpAddr.parse, IpAddr.render, parseIpv4_render]
  | v6 address =>
      simp only [IpAddr.parse, IpAddr.render, parseIpv4_renderIpv6, parseIpv6_render,
        Option.map_some]

theorem cidrParts_slash {address length : List Char} (plain : '/' ∉ address)
    (single : '/' ∉ length)
    : cidrParts (address ++ '/' :: length) = some (address, some length) := by
  have split : (address ++ '/' :: length).span (· ≠ '/') = (address, '/' :: length) := by
    rw [List.span_eq_takeWhile_dropWhile, List.takeWhile_append_of_pos,
      List.dropWhile_append_of_pos]
    · simp
    · intro char member
      simpa using fun same : char = '/' => plain (same ▸ member)
    · intro char member
      simpa using fun same : char = '/' => plain (same ▸ member)
  simp only [cidrParts, split, if_neg single]

theorem parseU8_toDigits {number : Nat} (below : number < 256)
    : parseU8 (Nat.toDigits 10 number) = some number := by
  have unsigned : stripPlus (Nat.toDigits 10 number) = Nat.toDigits 10 number := by
    have absent : '+' ∉ Nat.toDigits 10 number :=
      separator_not_mem_toDigits (by decide) (by decide) number (by decide)
    cases text : Nat.toDigits 10 number with
    | nil => rfl
    | cons char rest =>
        have other : char ≠ '+' := fun same => absent (by simp [text, same])
        unfold stripPlus
        split
        · rename_i tail same
          exact absurd (List.cons.inj same).1 other
        · rfl
  have read (room : Nat) (short : (Nat.toDigits 10 number).length ≤ room)
      : readNumber 10 room true 256 (Nat.toDigits 10 number ++ []) = some (number, []) :=
    readNumber_toDigits (by decide) (by decide) below short (stopsAt_nil 10)
  simp only [List.append_nil] at read
  simp only [parseU8, unsigned, read _ le_rfl]

/-- Every network reads back from its written form. -/
theorem IpNetwork.parse_render (network : IpNetwork)
    : IpNetwork.parse network.render = some network := by
  cases network with
  | v4 block =>
      have fits := block.length_le
      have parts :=
        cidrParts_slash (renderIpv4_slashless block.address) (toDigits_slashless block.length)
      have dotless : '.' ∉ Nat.toDigits 10 block.length :=
        separator_not_mem_toDigits (by decide) (by decide) _ (by decide)
      have noMask : parseIpv4 (Nat.toDigits 10 block.length) = none := by
        simp only [parseIpv4, readIpv4_none dotless]
      have network : parseIpv4Network (IpNetwork.v4 block).render = some (.v4 block) := by
        simp only [IpNetwork.render, IpNetwork.ip, IpNetwork.prefixLength, IpAddr.render,
          parseIpv4Network, parts, Option.bind_eq_bind, Option.bind_some, parseIpv4_render, noMask,
          parseU8_toDigits (by omega : block.length < 256), IpNetwork.new?, dif_pos fits]
      simp only [IpNetwork.parse, network]
  | v6 block =>
      have fits := block.length_le
      have parts :=
        cidrParts_slash (renderIpv6_slashless block.address) (toDigits_slashless block.length)
      have notV4 : parseIpv4Network (IpNetwork.v6 block).render = none := by
        simp only [IpNetwork.render, IpNetwork.ip, IpNetwork.prefixLength, IpAddr.render,
          parseIpv4Network, parts, Option.bind_eq_bind, Option.bind_some, parseIpv4_renderIpv6,
          Option.bind_none]
      have network : parseIpv6Network (IpNetwork.v6 block).render = some (.v6 block) := by
        simp only [IpNetwork.render, IpNetwork.ip, IpNetwork.prefixLength, IpAddr.render,
          parseIpv6Network, parts, Option.bind_eq_bind, Option.bind_some, parseIpv6_render,
          parseU8_toDigits (by omega : block.length < 256), IpNetwork.new?, dif_pos fits]
      simp only [IpNetwork.parse, notV4, network]

end AddressSpace
