import Mathlib.Data.Bool.AllAny
import Mathlib.Data.List.DropRight
import WslVpn.AddressSpace.Text

/-! Text as the resolver handles it: the list of its characters. -/

namespace WslVpn.Dns

abbrev Text := List Char

/-- `char::is_whitespace`. -/
def isWhitespace (char : Char) : Bool :=
  let code := char.toNat
  (9 ≤ code && code ≤ 13) || code == 0x20 || code == 0x85 || code == 0xa0 || code == 0x1680
    || (0x2000 ≤ code && code ≤ 0x200a) || code == 0x2028 || code == 0x2029 || code == 0x202f
    || code == 0x205f || code == 0x3000

/-- `text.trim()`. -/
def trim (text : Text) : Text := (text.dropWhile isWhitespace).rdropWhile isWhitespace

/-- `text.trim_end_matches('.')`. -/
def trimEndDots (text : Text) : Text := text.rdropWhile (· == '.')

/-- `text.split_whitespace()`. -/
def splitWhitespace (text : Text) : List Text := (text.splitOnP isWhitespace).filter (· ≠ [])

/-- A line without the carriage return that belongs to its ending. -/
def dropReturn (line : Text) : Text := if line.getLast? = some '\r' then line.dropLast else line

/-- `text.lines()`: the ending of the last line is optional. -/
def lines (text : Text) : List Text :=
  let pieces := text.splitOn '\n'
  let last := pieces.getLast?.getD []
  pieces.dropLast.map dropReturn ++ if last = [] then [] else [last]

/-- `text.to_ascii_lowercase()`. -/
def toAsciiLowercase (text : Text) : Text := text.map Char.toLower

/-- `text.strip_prefix(start)`. -/
def stripStart (start text : Text) : Option Text :=
  if start <+: text then some (text.drop start.length) else none

theorem stripStart_some {start text rest : Text} (stripped : stripStart start text = some rest)
    : text = start ++ rest := by
  unfold stripStart at stripped
  split at stripped
  · next starts =>
      cases stripped
      exact List.prefix_append_drop starts
  · cases stripped

theorem stripStart_append (start rest : Text) : stripStart start (start ++ rest) = some rest := by
  rw [stripStart, if_pos (List.prefix_append start rest), List.drop_left]

/-- A text that does not end with a dot loses none. -/
theorem trimEndDots_of_last {text : Text} (last : text.getLast? ≠ some '.')
    : trimEndDots text = text := by
  refine List.rdropWhile_eq_self_iff.mpr ?_
  intro filled isDot
  refine last ?_
  rw [List.getLast?_eq_some_getLast filled, beq_iff_eq.mp isDot]

/-- The length in bytes. -/
def byteLength (text : Text) : Nat := (String.ofList text).utf8ByteSize

-----------------------------------------------------------------------------------------
-- Decoding
-----------------------------------------------------------------------------------------

/-- What stands for a sequence of bytes that is not UTF-8. -/
def replacement : Char := '\uFFFD'

/-- The byte continues a character. -/
def continues (byte : Nat) : Bool := 0x80 ≤ byte && byte ≤ 0xbf

/-- The number of bytes of a character that begins so, if a first byte and a second byte fit. -/
def widthOf (first second : Nat) : Option Nat :=
  if 0xc2 ≤ first ∧ first ≤ 0xdf ∧ continues second then some 2
  else if first = 0xe0 ∧ 0xa0 ≤ second ∧ second ≤ 0xbf then some 3
  else if 0xe1 ≤ first ∧ first ≤ 0xec ∧ continues second then some 3
  else if first = 0xed ∧ 0x80 ≤ second ∧ second ≤ 0x9f then some 3
  else if 0xee ≤ first ∧ first ≤ 0xef ∧ continues second then some 3
  else if first = 0xf0 ∧ 0x90 ≤ second ∧ second ≤ 0xbf then some 4
  else if 0xf1 ≤ first ∧ first ≤ 0xf3 ∧ continues second then some 4
  else if first = 0xf4 ∧ 0x80 ≤ second ∧ second ≤ 0x8f then some 4
  else none

/-- `String::from_utf8_lossy`: each longest beginning of a character that breaks off is replaced. -/
def fromUtf8Lossy : List UInt8 → Text
  | [] => []
  | [first] => if first.toNat < 0x80 then [Char.ofNat first.toNat] else [replacement]
  | first :: second :: rest =>
      if first.toNat < 0x80 then Char.ofNat first.toNat :: fromUtf8Lossy (second :: rest)
      else
        match widthOf first.toNat second.toNat with
        | none => replacement :: fromUtf8Lossy (second :: rest)
        | some 2 =>
            Char.ofNat ((first.toNat - 0xc0) * 64 + (second.toNat - 0x80)) :: fromUtf8Lossy rest
        | some width =>
            match rest with
            | [] => [replacement]
            | third :: rest =>
                if !continues third.toNat then replacement :: fromUtf8Lossy (third :: rest)
                else if width = 3 then
                  Char.ofNat ((first.toNat - 0xe0) * 4096 + (second.toNat - 0x80) * 64
                    + (third.toNat - 0x80)) :: fromUtf8Lossy rest
                else
                  match rest with
                  | [] => [replacement]
                  | fourth :: rest =>
                      if !continues fourth.toNat then replacement :: fromUtf8Lossy (fourth :: rest)
                      else
                        Char.ofNat ((first.toNat - 0xf0) * 262144 + (second.toNat - 0x80) * 4096
                          + (third.toNat - 0x80) * 64 + (fourth.toNat - 0x80)) :: fromUtf8Lossy rest

section Lossy

theorem toNat_ofNat {code : Nat} (valid : code.isValidChar) : (Char.ofNat code).toNat = code := by
  rw [Char.ofNat, dif_pos valid]
  rfl

/-- The bytes that begin a character of two, three and four bytes. -/
theorem widthOf_cases {first second width : Nat} (fits : widthOf first second = some width)
    : 0x80 ≤ first ∧ 0x80 ≤ second ∧ second ≤ 0xbf
      ∧ ((width = 2 ∧ 0xc2 ≤ first ∧ first ≤ 0xdf)
        ∨ (width = 3 ∧ 0xe0 ≤ first ∧ first ≤ 0xef ∧ (first = 0xe0 → 0xa0 ≤ second)
          ∧ (first = 0xed → second ≤ 0x9f))
        ∨ (width = 4 ∧ 0xf0 ≤ first ∧ first ≤ 0xf4 ∧ (first = 0xf0 → 0x90 ≤ second)
          ∧ (first = 0xf4 → second ≤ 0x8f))) := by
  unfold widthOf at fits
  simp only [continues, Bool.and_eq_true, decide_eq_true_eq] at fits
  repeat' split at fits
  all_goals
    cases fits <;> omega

/-- A character of several bytes is not ASCII. -/
theorem wide_two {first second : Nat} (fits : widthOf first second = some 2)
    : 0x80 ≤ (Char.ofNat ((first - 0xc0) * 64 + (second - 0x80))).toNat := by
  have ranges := widthOf_cases fits
  rw [toNat_ofNat (Or.inl (by omega))]
  omega

theorem wide_three {first second third : Nat} (fits : widthOf first second = some 3)
    (follows : continues third = true)
    : 0x80 ≤ (Char.ofNat ((first - 0xe0) * 4096 + (second - 0x80) * 64 + (third - 0x80))).toNat := by
  have ranges := widthOf_cases fits
  simp only [continues, Bool.and_eq_true, decide_eq_true_eq] at follows
  rw [toNat_ofNat]
  · omega
  · by_cases low : first ≤ 0xed
    · refine Or.inl ?_
      omega
    · refine Or.inr ?_
      omega

theorem wide_four {first second third fourth : Nat} (fits : widthOf first second = some 4)
    (follows : continues third = true) (ends : continues fourth = true)
    : 0x80 ≤ (Char.ofNat ((first - 0xf0) * 262144 + (second - 0x80) * 4096 + (third - 0x80) * 64
        + (fourth - 0x80))).toNat := by
  have ranges := widthOf_cases fits
  simp only [continues, Bool.and_eq_true, decide_eq_true_eq] at follows ends
  rw [toNat_ofNat (Or.inr (by omega))]
  omega

theorem wide_replacement : 0x80 ≤ replacement.toNat := by
  decide

/-- What the decoder makes of bytes: ASCII stays, and other characters come from other bytes. -/
inductive Chunks : List UInt8 → Text → Prop where
  | nil : Chunks [] []
  | ascii {byte rest text} (low : byte.toNat < 0x80) (more : Chunks rest text)
    : Chunks (byte :: rest) (Char.ofNat byte.toNat :: text)
  | wide {first chunk rest char text} (high : ∀ byte ∈ first :: chunk, 0x80 ≤ byte.toNat)
    (notAscii : 0x80 ≤ char.toNat) (more : Chunks rest text)
    : Chunks (first :: chunk ++ rest) (char :: text)

theorem continues_high {byte : UInt8} (follows : ¬ (!continues byte.toNat) = true)
    : continues byte.toNat = true ∧ 0x80 ≤ byte.toNat := by
  simp only [Bool.not_eq_true', Bool.not_eq_false] at follows
  have range := follows
  simp only [continues, Bool.and_eq_true, decide_eq_true_eq] at range
  exact ⟨follows, range.1⟩

/-- The induction follows the decoding. -/
theorem fromUtf8Lossy_chunks (bytes : List UInt8) : Chunks bytes (fromUtf8Lossy bytes) := by
  fun_induction fromUtf8Lossy bytes with
  | case1 => exact .nil
  | case2 first low => exact .ascii low .nil
  | case3 first high =>
      exact @Chunks.wide first [] [] _ _ (by simpa using high) wide_replacement .nil
  | case4 first second rest low ih => exact .ascii low ih
  | case5 first second rest high none ih =>
      exact @Chunks.wide first [] _ _ _ (by simpa using high) wide_replacement ih
  | case6 first second rest high fits ih =>
      have ranges := widthOf_cases fits
      refine @Chunks.wide first [second] rest _ _ ?_ (wide_two fits) ih
      simp [ranges.1, ranges.2.1]
  | case7 first second high width other fits =>
      have ranges := widthOf_cases fits
      refine @Chunks.wide first [second] [] _ _ ?_ wide_replacement .nil
      simp [ranges.1, ranges.2.1]
  | case8 first second high width other fits third rest broken ih =>
      have ranges := widthOf_cases fits
      refine @Chunks.wide first [second] (third :: rest) _ _ ?_ wide_replacement ih
      simp [ranges.1, ranges.2.1]
  | case9 first second high third rest follows other fits ih =>
      have ranges := widthOf_cases fits
      obtain ⟨follows, thirdHigh⟩ := continues_high follows
      refine @Chunks.wide first [second, third] rest _ _ ?_ (wide_three fits follows) ih
      simp [ranges.1, ranges.2.1, thirdHigh]
  | case10 first second high width other fits third follows longer =>
      have ranges := widthOf_cases fits
      obtain ⟨_, thirdHigh⟩ := continues_high follows
      refine @Chunks.wide first [second, third] [] _ _ ?_ wide_replacement .nil
      simp [ranges.1, ranges.2.1, thirdHigh]
  | case11 first second high width other fits third follows longer fourth rest broken ih =>
      have ranges := widthOf_cases fits
      obtain ⟨_, thirdHigh⟩ := continues_high follows
      refine @Chunks.wide first [second, third] (fourth :: rest) _ _ ?_ wide_replacement ih
      simp [ranges.1, ranges.2.1, thirdHigh]
  | case12 first second high width other fits third follows longer fourth rest ends ih =>
      have ranges := widthOf_cases fits
      obtain ⟨follows, thirdHigh⟩ := continues_high follows
      obtain ⟨ends, fourthHigh⟩ := continues_high ends
      have notTwo : ¬ width = 2 := other
      have four : width = 4 := by omega
      rw [four] at fits
      refine @Chunks.wide first [second, third, fourth] rest _ _ ?_ (wide_four fits follows ends) ih
      simp [ranges.1, ranges.2.1, thirdHigh, fourthHigh]

/-- Text that decodes to ASCII alone is the bytes themselves, by induction on the decoding. -/
theorem Chunks.ascii_iff {bytes : List UInt8} {text : Text} (chunks : Chunks bytes text)
    : ((∀ char ∈ text, char.toNat < 0x80) ↔ ∀ byte ∈ bytes, byte.toNat < 0x80)
      ∧ ((∀ byte ∈ bytes, byte.toNat < 0x80) →
          text = bytes.map (fun byte => Char.ofNat byte.toNat)) := by
  induction chunks with
  | nil => simp
  | @ascii byte rest text low more ih =>
      have valid : byte.toNat.isValidChar := Or.inl (by omega)
      refine ⟨?_, ?_⟩
      · rw [List.forall_mem_cons, List.forall_mem_cons, ih.1, toNat_ofNat valid]
      · intro ascii
        rw [List.map_cons, ih.2 (List.forall_mem_cons.mp ascii).2]
  | @wide first chunk rest char text high notAscii more ih =>
      have outside : ¬ ∀ byte ∈ first :: chunk ++ rest, byte.toNat < 0x80 := by
        intro ascii
        have low := ascii first (by simp)
        have high := high first List.mem_cons_self
        omega
      refine ⟨iff_of_false ?_ outside, fun ascii => absurd ascii outside⟩
      intro ascii
      have low := ascii char List.mem_cons_self
      omega

/-- A dot in the text is a dot among the bytes, by induction on the decoding. -/
theorem Chunks.dot_mem {bytes : List UInt8} {text : Text} (chunks : Chunks bytes text)
    : '.' ∈ text ↔ 0x2e ∈ bytes := by
  induction chunks with
  | nil => simp
  | @ascii byte rest text low more ih =>
      have valid : byte.toNat.isValidChar := Or.inl (by omega)
      rw [List.mem_cons, List.mem_cons, ih]
      refine or_congr_left ⟨?_, ?_⟩
      · intro same
        have code := congrArg Char.toNat same
        rw [toNat_ofNat valid] at code
        exact UInt8.toNat_inj.mp code
      · intro same
        rw [← same]
        rfl
  | @wide first chunk rest char text high notAscii more ih =>
      have other : '.' ≠ char := by
        intro same
        rw [← same] at notAscii
        exact absurd notAscii (by decide)
      have outside : (0x2e : UInt8) ∉ first :: chunk := by
        intro inside
        exact absurd (high _ inside) (by decide)
      rw [List.mem_cons, List.mem_append, ih]
      simp [other, outside]

end Lossy

-----------------------------------------------------------------------------------------
-- Case
-----------------------------------------------------------------------------------------

section Case

/-- A fact about each code of ASCII is one about each of its characters. -/
theorem ascii_forall {fact : Char → Prop} (all : ∀ code < 0x80, fact (Char.ofNat code))
    {char : Char}
    (low : char.toNat < 0x80)
    : fact char := by
  rw [← Char.ofNat_toNat char]
  exact all _ low

theorem toLower_of_high {char : Char} (high : 0x80 ≤ char.toNat) : char.toLower = char := by
  refine dif_neg ?_
  intro upper
  have bound : char.toNat ≤ 90 := UInt32.le_iff_toNat_le.mp upper.2
  omega

theorem toLower_toLower (char : Char) : char.toLower.toLower = char.toLower := by
  by_cases low : char.toNat < 0x80
  · exact @ascii_forall (fun char => char.toLower.toLower = char.toLower) (by decide +kernel) char
      low
  · have same : char.toLower = char := toLower_of_high (by omega)
    rw [same, same]

theorem toLower_ascii (char : Char) : char.toLower.toNat < 0x80 ↔ char.toNat < 0x80 := by
  by_cases low : char.toNat < 0x80
  · refine iff_of_true ?_ low
    exact @ascii_forall (fun char => char.toLower.toNat < 0x80) (by decide +kernel) char low
  · rw [toLower_of_high (by omega)]

theorem toLower_dot (char : Char) : char.toLower = '.' ↔ char = '.' := by
  by_cases low : char.toNat < 0x80
  · exact @ascii_forall (fun char => char.toLower = '.' ↔ char = '.') (by decide +kernel) char low
  · rw [toLower_of_high (by omega)]

/-- The characters of host names. -/
theorem hostChar_ascii {char : Char} (host : char.isAlphanum = true ∨ char = '-' ∨ char = '_')
    : char.toNat < 0x80 := by
  by_contra high
  have above : ∀ {bound : Char}, bound.toNat < 0x80 → ¬ char.val ≤ bound.val := by
    intro bound low below
    have := UInt32.le_iff_toNat_le.mp below
    change char.toNat ≤ bound.toNat at this
    omega
  rcases host with alphanum | rfl | rfl
  · rcases Bool.or_eq_true_iff.mp alphanum with letter | digit
    · rcases Bool.or_eq_true_iff.mp letter with upper | lower
      · exact @above 'Z' (by decide) (of_decide_eq_true upper).2
      · exact @above 'z' (by decide) (of_decide_eq_true (Bool.and_eq_true_iff.mp lower).2)
    · exact @above '9' (by decide) (of_decide_eq_true (Bool.and_eq_true_iff.mp digit).2)
  · exact high (by decide)
  · exact high (by decide)

end Case

end WslVpn.Dns
