import WslVpn.Agent.Library
import WslVpn.Dns.Lines

/-! The text that an import checks and the text that it stores: each of them has been normalised, the
one that is checked a second time.
-/

namespace WslVpn.Agent

open Dns (Text trim lines dropReturn)

/-- The text whose lines are checked. -/
def examined (text : Text) : Text := normalise text

theorem validate_examined (publicKeyFromPrivate : Text → Option Text) (text name : Text)
    : validate publicKeyFromPrivate text name = (do
        let progress ← Progress.readLines publicKeyFromPrivate (.start name) 1 (lines (examined text))
        progress.finish ((lines (examined text)).length + 1)) :=
  rfl

/-- The form that a text is normalised to is the last one, and is what an import both checks and
stores.
-/
structure Settles (text : Text) : Prop where
  again : normalise (normalise text) = normalise text
  unmarked : (normalise text).head? ≠ some byteOrderMark
  unreturned : ∀ line ∈ (normalise text).splitOn '\n', line.getLast? ≠ some '\r'
  stored
    : ∀ publicKeyFromPrivate data state name profile data' state',
        importIn publicKeyFromPrivate data state text name = (.ok profile, data', state')
        → data'.read (confStem (trim name)) = some (examined (normalise text))

/-- There is no second byte order mark, and no second carriage return at the end of a line. -/
structure Single (text : Text) : Prop where
  mark : ¬ [byteOrderMark, byteOrderMark] <+: text
  ending : ¬ ['\r', '\r', '\n'] <:+: text
  last : text.getLast? ≠ some '\r'

-----------------------------------------------------------------------------------------
-- Carriage returns
-----------------------------------------------------------------------------------------

section Returns

variable {text line back : Text}

theorem dropReturn_eq_self : dropReturn line = line ↔ line.getLast? ≠ some '\r' := by
  unfold dropReturn
  split
  · next ends =>
      refine iff_of_false ?_ (not_not.mpr ends)
      intro same
      have shorter := congrArg List.length same
      rw [List.length_dropLast] at shorter
      cases line with
      | nil => cases ends
      | cons => simp at shorter
  · next plain => exact iff_of_true rfl plain

theorem dropReturn_prefix (line : Text) : dropReturn line <+: line := by
  unfold dropReturn
  split
  · exact List.dropLast_prefix line
  · exact List.prefix_rfl

theorem dropReturn_returns
    : (dropReturn line).getLast? = some '\r' ↔ ['\r', '\r'] <:+ line := by
  constructor
  · intro returns
    unfold dropReturn at returns
    split at returns
    · next ends =>
        obtain ⟨shorter, rfl⟩ := List.getLast?_eq_some_iff.mp ends
        rw [List.dropLast_concat] at returns
        obtain ⟨front, rfl⟩ := List.getLast?_eq_some_iff.mp returns
        exact ⟨front, by simp⟩
    · next plain => exact absurd returns plain
  · intro returns
    obtain ⟨front, rfl⟩ := returns
    simp [dropReturn]

/-- A line break behind two carriage returns is the first one, or comes later. -/
theorem returns_cons (unbroken : '\n' ∉ line)
    : ['\r', '\r', '\n'] <:+: line ++ '\n' :: back
      ↔ ['\r', '\r'] <:+ line ∨ ['\r', '\r', '\n'] <:+: back := by
  constructor
  · intro inside
    obtain ⟨before, after, same⟩ := inside
    have cut : (before ++ ['\r', '\r']) ++ '\n' :: after = line ++ '\n' :: back := by
      rw [← same]
      simp
    rcases List.append_eq_append_iff.mp cut with ⟨middle, longer, rest⟩ | ⟨middle, longer, rest⟩
    · cases middle with
      | nil => exact .inl ⟨before, by simpa using longer.symm⟩
      | cons char middle =>
          cases rest
          exact absurd (longer ▸ by simp) unbroken
    · cases middle with
      | nil => exact .inl ⟨before, by simpa using longer⟩
      | cons char middle =>
          obtain ⟨rfl, rfl⟩ := List.cons.inj rest
          have returns : ['\r', '\r'] <:+ middle := by
            have whole : ['\r', '\r'] <:+ line ++ '\n' :: middle := ⟨before, longer⟩
            rcases List.suffix_or_suffix_of_suffix whole (List.suffix_append line _) with inside | ends
            · exact (List.suffix_cons_iff.mp inside).resolve_left (by simp)
            · exact absurd (ends.subset List.mem_cons_self) (by simp)
          obtain ⟨front, rfl⟩ := returns
          exact .inr ⟨front, after, by simp⟩
  · intro found
    rcases found with ⟨front, rfl⟩ | ⟨before, after, rfl⟩
    · exact ⟨front, back, by simp⟩
    · exact ⟨line ++ '\n' :: before, after, by simp⟩

theorem returns_plain (unbroken : '\n' ∉ line) : ¬ ['\r', '\r', '\n'] <:+: line := by
  intro inside
  exact unbroken (inside.subset (by simp))

/-- Some line still ends in a carriage return. By induction on the lines. -/
theorem lines_return
    : (∃ line ∈ lines text, line.getLast? = some '\r')
      ↔ ['\r', '\r', '\n'] <:+: text ∨ text.getLast? = some '\r' := by
  induction text using Dns.lines_induction with
  | last line unbroken =>
      rw [Dns.lines_single unbroken, or_iff_right (returns_plain unbroken)]
      split
      · next nothing => simp [nothing]
      · simp
  | more line back unbroken ih =>
      have behind : (line ++ '\n' :: back).getLast? = some '\r' ↔ back.getLast? = some '\r' := by
        cases back <;> simp
      rw [Dns.lines_cons unbroken, List.exists_mem_cons_iff, ih, dropReturn_returns,
        returns_cons unbroken, behind, or_assoc]

end Returns

-----------------------------------------------------------------------------------------
-- The byte order mark
-----------------------------------------------------------------------------------------

section Marks

variable {text : Text}

/-- What is in front of the first line is in front of the text. -/
theorem head_lines
    : ((lines text).head?.bind List.head?) = some byteOrderMark ↔ text.head? = some byteOrderMark := by
  induction text using Dns.lines_induction with
  | last line unbroken =>
      rw [Dns.lines_single unbroken]
      split
      · next nothing => simp [nothing]
      · simp
  | more line back unbroken _ =>
      rw [Dns.lines_cons unbroken, List.head?_cons, Option.bind_some]
      cases line with
      | nil => simp [dropReturn, byteOrderMark]
      | cons char rest =>
          unfold dropReturn
          split
          · next returns =>
              cases rest with
              | nil =>
                  obtain rfl : char = '\r' := by simpa using returns
                  have other : '\r' ≠ byteOrderMark := by decide
                  simp [other]
              | cons => simp
          · simp

theorem head_dropMark
    : (dropMark text).head? = some byteOrderMark ↔ [byteOrderMark, byteOrderMark] <+: text := by
  unfold dropMark
  split
  · next marked =>
      obtain ⟨rest, rfl⟩ := List.head?_eq_some_iff.mp marked
      cases rest with
      | nil => simp
      | cons char rest => simp [eq_comm]
  · next plain =>
      refine iff_of_false plain ?_
      intro marks
      obtain ⟨rest, rfl⟩ := marks
      exact plain rfl

/-- The mark is not part of a line break, so both stay in the rest what they are in the text. -/
theorem returns_dropMark
    : ['\r', '\r', '\n'] <:+: dropMark text ∨ (dropMark text).getLast? = some '\r'
      ↔ ['\r', '\r', '\n'] <:+: text ∨ text.getLast? = some '\r' := by
  unfold dropMark
  split
  · next marked =>
      obtain ⟨rest, rfl⟩ := List.head?_eq_some_iff.mp marked
      have first : ¬ ['\r', '\r', '\n'] <+: byteOrderMark :: rest := by
        intro starts
        obtain ⟨_, same⟩ := starts
        cases same
      have last : (byteOrderMark :: rest).getLast? = some '\r' ↔ rest.getLast? = some '\r' := by
        cases rest with
        | nil => exact iff_of_false (by decide) (by decide)
        | cons => simp
      rw [List.infix_cons_iff, or_iff_right first, last]
      rfl
  · rfl

end Marks

-----------------------------------------------------------------------------------------
-- The form that is reached
-----------------------------------------------------------------------------------------

/-- The lines of a normalised text, and what they begin and end with. -/
theorem normalised_lines (text : Text)
    : ∃ first rest, Whole (first :: rest) ∧ normalise text = endLines (first :: rest)
      ∧ (first.head? = some byteOrderMark ↔ [byteOrderMark, byteOrderMark] <+: text)
      ∧ ((∃ line ∈ first :: rest, line.getLast? = some '\r')
        ↔ ['\r', '\r', '\n'] <:+: text ∨ text.getLast? = some '\r') := by
  obtain ⟨first, rest, whole, same, read⟩ := normalise_eq text
  have marks := @head_lines (dropMark text)
  have returns := @lines_return (dropMark text)
  rw [head_dropMark] at marks
  rw [returns_dropMark] at returns
  refine ⟨first, rest, whole, same, ?_, ?_⟩
  · rw [← marks]
    rcases read with lines | ⟨lines, rfl, rfl⟩
    · simp [lines]
    · simp [lines]
  · rw [← returns]
    rcases read with lines | ⟨lines, rfl, rfl⟩
    · rw [lines]
    · simp [lines]

theorem endLines_injective {left right : List Text} (wholeLeft : Whole left)
    (wholeRight : Whole right) (same : endLines left = endLines right) : left = right := by
  have parts := congrArg (List.splitOn '\n') same
  rw [splitOn_endLines wholeLeft, splitOn_endLines wholeRight] at parts
  exact List.append_cancel_right parts

/-- A text of lines is in normal form if nothing comes off its lines. -/
theorem normalise_fixed {first : Text} {rest : List Text} (whole : Whole (first :: rest))
    : normalise (endLines (first :: rest)) = endLines (first :: rest)
      ↔ first.head? ≠ some byteOrderMark
        ∧ ∀ line ∈ first :: rest, line.getLast? ≠ some '\r' := by
  obtain ⟨kept, normal⟩ := normalise_endLines whole
  rw [normal]
  constructor
  · intro same
    obtain ⟨head, tail⟩ := List.cons.inj (endLines_injective kept whole same)
    have unmarked : first.head? ≠ some byteOrderMark := by
      intro marked
      obtain ⟨line, rfl⟩ := List.head?_eq_some_iff.mp marked
      have part : byteOrderMark :: line <+: line := by
        conv_lhs => rw [← head]
        exact dropReturn_prefix line
      have longer := part.length_le
      rw [List.length_cons] at longer
      omega
    refine ⟨unmarked, ?_⟩
    intro line member
    rw [dropMark, if_neg unmarked] at head
    rcases List.mem_cons.mp member with rfl | member
    · exact dropReturn_eq_self.mp head
    · exact dropReturn_eq_self.mp (List.map_inj_left.mp (tail.trans (List.map_id rest).symm) line member)
  · intro plain
    obtain ⟨unmarked, unreturned⟩ := plain
    have fixed : (first :: rest).map dropReturn = first :: rest := by
      conv_rhs => rw [← List.map_id (first :: rest)]
      apply List.map_inj_left.mpr
      intro line member
      exact dropReturn_eq_self.mpr (unreturned line member)
    rw [dropMark, if_neg unmarked, fixed]

/-- An import checks the form that it stores, and no other, unless the text has a second byte order
mark in front or a second carriage return at the end of a line.
-/
theorem settles_iff (text : Text) : Settles text ↔ Single text := by
  obtain ⟨first, rest, whole, same, marks, returns⟩ := normalised_lines text
  have fixed := normalise_fixed whole
  rw [← same, ne_eq, marks] at fixed
  constructor
  · intro settles
    obtain ⟨unmarked, unreturned⟩ := fixed.mp settles.again
    have plain : ¬ ∃ line ∈ first :: rest, line.getLast? = some '\r' := by
      intro found
      obtain ⟨line, member, ends⟩ := found
      exact unreturned line member ends
    rw [returns, not_or] at plain
    exact ⟨unmarked, plain.1, plain.2⟩
  · intro single
    have unreturned : ∀ line ∈ first :: rest, line.getLast? ≠ some '\r' := by
      intro line member ends
      exact (returns.mp ⟨line, member, ends⟩).elim single.ending single.last
    have again := fixed.mpr ⟨single.mark, unreturned⟩
    refine ⟨again, ?_, ?_, ?_⟩
    · rw [same, endLines_cons]
      cases first with
      | nil => simp [byteOrderMark]
      | cons char line =>
          intro marked
          exact single.mark (marks.mp marked)
    · rw [same, splitOn_endLines whole]
      intro line member
      rcases List.mem_append.mp member with member | last
      · exact unreturned line member
      · simp [List.mem_singleton.mp last]
    · intro publicKeyFromPrivate data state name profile data' state' accepted
      rcases importIn_cases with ⟨message, refused⟩ | ⟨_, _, _, did, imported⟩
      · rw [refused] at accepted
        cases accepted
      · rw [accepted] at did
        cases did
        rw [imported.stored, DataDir.read_write, if_pos rfl, examined, again]

/-- The config behind two byte order marks, with one of them stored. -/
theorem second_mark_stored : ¬ Settles (byteOrderMark :: byteOrderMark :: smallConfig) := by
  intro settles
  exact settles.unmarked (by decide +kernel)

end WslVpn.Agent
