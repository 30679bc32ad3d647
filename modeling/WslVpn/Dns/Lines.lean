import WslVpn.Dns.Text
import WslVpn.Separated.Parts

/-! The lines of a text that is put together of others. -/

open Separated

namespace WslVpn.Dns

section Lines

variable {front back line middle : Text}

/-- Where a line ends the text can be cut. -/
theorem lines_append_newline
    : lines (front ++ '\n' :: back) = (front.splitOn '\n').map dropReturn ++ lines back := by
  have some : back.splitOn '\n' ≠ [] := List.splitOn_ne_nil _ _
  simp only [lines, List.splitOn_append_cons_self, List.dropLast_append_of_ne_nil some,
    List.map_append, List.getLast?_append_of_ne_nil _ some, List.append_assoc]

theorem lines_cons (unbroken : '\n' ∉ line)
    : lines (line ++ '\n' :: back) = dropReturn line :: lines back := by
  rw [lines_append_newline, List.splitOn_eq_singleton unbroken]
  rfl

/-- What holds of a text without a newline, and of a text with a line more whenever it holds of the
text, holds of every text. By induction on the newlines.
-/
theorem lines_induction {motive : Text → Prop} (last : ∀ line, '\n' ∉ line → motive line)
    (more : ∀ line back, '\n' ∉ line → motive back → motive (line ++ '\n' :: back)) (text : Text)
    : motive text := by
  by_cases unbroken : '\n' ∈ text
  · obtain ⟨line, back, first, split⟩ := List.eq_append_cons_of_mem unbroken
    have shorter : back.length < text.length := by
      rw [first, List.length_append, List.length_cons]
      omega
    rw [first]
    exact more line back split (lines_induction last more back)
  · exact last text unbroken
termination_by text.length

theorem lines_single (unbroken : '\n' ∉ line) : lines line = if line = [] then [] else [line] := by
  rw [lines, List.splitOn_eq_singleton unbroken]
  rfl

/-- A piece of text without a newline is part of one line, whatever the piece is. -/
theorem lines_around (front back : Text)
    : ∃ before after last first, ∃ close : Text → Text, (close = id ∨ close = dropReturn)
        ∧ ∀ middle, '\n' ∉ middle → middle ≠ [] →
            lines (front ++ middle ++ back)
              = before ++ close (last ++ middle ++ first) :: after := by
  obtain ⟨start, last, parts⟩ : ∃ start last, front.splitOn '\n' = start ++ [last] :=
    ⟨_, _, (List.dropLast_append_getLast (List.splitOn_ne_nil '\n' front)).symm⟩
  obtain ⟨first, rest, others⟩ := List.exists_cons_of_ne_nil (List.splitOn_ne_nil '\n' back)
  have pieces (middle : Text) (unbroken : '\n' ∉ middle)
      : (front ++ middle ++ back).splitOn '\n' = start ++ (last ++ middle ++ first) :: rest := by
    obtain ⟨left, inner, head, tail, before, single, joined⟩ := splitOn_append '\n' front middle
    rw [List.splitOn_eq_singleton unbroken] at single
    obtain ⟨rfl, rfl⟩ := List.cons.inj single
    obtain ⟨rfl, same⟩ := List.append_inj' (before.symm.trans parts) rfl
    obtain rfl := List.singleton_inj.mp same
    obtain ⟨left', inner', head', tail', before', same', joined'⟩ :=
      splitOn_append '\n' (front ++ middle) back
    obtain ⟨rfl, ends⟩ := List.append_inj' (before'.symm.trans joined) rfl
    obtain rfl := List.singleton_inj.mp ends
    obtain ⟨rfl, rfl⟩ := List.cons.inj (same'.symm.trans others)
    exact joined'
  cases rest with
  | nil =>
      refine ⟨start.map dropReturn, [], last, first, id, .inl rfl, ?_⟩
      intro middle unbroken filled
      rw [lines, pieces middle unbroken]
      simp [filled]
  | cons next rest =>
      refine ⟨start.map dropReturn,
        ((next :: rest).dropLast.map dropReturn
          ++ if (next :: rest).getLast?.getD [] = [] then [] else [(next :: rest).getLast?.getD []]),
        last, first, dropReturn, .inr rfl, ?_⟩
      intro middle unbroken _
      simp only [lines, pieces middle unbroken]
      rw [List.dropLast_append_of_ne_nil (List.cons_ne_nil _ _), List.dropLast_cons_of_ne_nil
        (List.cons_ne_nil _ _), List.getLast?_append_of_ne_nil _ (List.cons_ne_nil _ _),
        List.getLast?_cons_cons]
      simp

end Lines

end WslVpn.Dns
