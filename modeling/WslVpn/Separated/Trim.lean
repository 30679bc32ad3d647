import Mathlib.Data.List.DropRight
import Mathlib.Data.List.TakeWhile

/-! Lists without the blank symbols at their two ends. -/

namespace Separated

variable {Symbol : Type} {blank outer : Symbol → Bool} {text front back : List Symbol}

/-- The list between its blanks. -/
def trimBy (blank : Symbol → Bool) (text : List Symbol) : List Symbol :=
  (text.dropWhile blank).rdropWhile blank

/-- No blank is at an end. -/
structure Trimmed (blank : Symbol → Bool) (text : List Symbol) : Prop where
  head : ∀ symbol ∈ text.head?, blank symbol = false
  last : ∀ symbol ∈ text.getLast?, blank symbol = false

theorem rdropWhile_append (blanks : ∀ symbol ∈ back, blank symbol = true)
    : (text ++ back).rdropWhile blank = text.rdropWhile blank := by
  rw [List.rdropWhile, List.reverse_append, List.dropWhile_append_of_pos (by simpa using blanks)]
  rfl

/-- Blanks are all that is missing. -/
theorem trimBy_split (blank : Symbol → Bool) (text : List Symbol)
    : ∃ front back, (∀ symbol ∈ front, blank symbol = true) ∧ (∀ symbol ∈ back, blank symbol = true)
      ∧ text = front ++ (trimBy blank text ++ back) := by
  refine ⟨text.takeWhile blank, (text.dropWhile blank).rtakeWhile blank, ?_, ?_, ?_⟩
  · exact fun symbol member => List.mem_takeWhile_imp member
  · exact fun symbol member => List.mem_rtakeWhile_imp member
  · rw [trimBy, List.rdropWhile_append_rtakeWhile, List.takeWhile_append_dropWhile]

/-- Blanks at the ends do not count. -/
theorem trimBy_pad (before : ∀ symbol ∈ front, blank symbol = true)
    (behind : ∀ symbol ∈ back, blank symbol = true)
    : trimBy blank (front ++ (text ++ back)) = trimBy blank text := by
  rw [trimBy, List.dropWhile_append_of_pos before, List.dropWhile_append]
  split
  · next nothing =>
      have blanks : text.dropWhile blank = [] := List.isEmpty_iff.mp nothing
      have all : back.dropWhile blank = [] := List.dropWhile_eq_nil_iff.mpr behind
      rw [all, trimBy, blanks]
  · rw [rdropWhile_append behind, trimBy]

/-- A narrower trim comes first without a difference. -/
theorem trimBy_trimBy (wider : ∀ symbol, blank symbol = true → outer symbol = true)
    : trimBy outer (trimBy blank text) = trimBy outer text := by
  obtain ⟨front, back, before, behind, split⟩ := trimBy_split blank text
  conv_rhs => rw [split]
  exact (trimBy_pad (fun symbol member => wider symbol (before symbol member))
    (fun symbol member => wider symbol (behind symbol member))).symm

theorem trimBy_of_trimmed (trimmed : Trimmed blank text) : trimBy blank text = text := by
  have kept : text.dropWhile blank = text := by
    cases text with
    | nil => rfl
    | cons first rest => exact List.dropWhile_cons_of_neg (by simp [trimmed.head first rfl])
  rw [trimBy, kept, List.rdropWhile_eq_self_iff]
  intro some
  simp [trimmed.last _ (List.getLast?_eq_getLast_of_ne_nil some)]

theorem trimmed_trimBy : Trimmed blank (trimBy blank text) where
  head := by
    intro symbol member
    have kept : trimBy blank text <+: text.dropWhile blank := List.rdropWhile_prefix _ _
    obtain ⟨rest, whole⟩ := kept
    cases trimmed : trimBy blank text with
    | nil =>
        rw [trimmed] at member
        cases member
    | cons first others =>
        rw [trimmed] at member whole
        cases member
        have some : text.dropWhile blank ≠ [] := by simp [← whole]
        have head := List.head_dropWhile_not blank some
        simpa [← whole] using head
  last := by
    intro symbol member
    have some : trimBy blank text ≠ [] := by
      intro nothing
      rw [nothing] at member
      cases member
    have last := List.rdropWhile_last_not blank (text.dropWhile blank) some
    rw [List.getLast?_eq_getLast_of_ne_nil some] at member
    cases member
    simpa [trimBy] using last

theorem trimBy_idem : trimBy blank (trimBy blank text) = trimBy blank text :=
  trimBy_of_trimmed trimmed_trimBy

/-- What the trim leaves was there. -/
theorem mem_of_mem_trimBy {symbol : Symbol} (member : symbol ∈ trimBy blank text)
    : symbol ∈ text := by
  obtain ⟨front, back, _, _, split⟩ := trimBy_split blank text
  rw [split]
  simp [member]

theorem mem_trimBy {symbol : Symbol} (visible : blank symbol = false)
    : symbol ∈ trimBy blank text ↔ symbol ∈ text := by
  refine ⟨mem_of_mem_trimBy, ?_⟩
  intro member
  obtain ⟨front, back, before, behind, split⟩ := trimBy_split blank text
  rw [split] at member
  rcases List.mem_append.mp member with there | member
  · simp [before symbol there] at visible
  · rcases List.mem_append.mp member with kept | there
    · exact kept
    · simp [behind symbol there] at visible

/-- A list that stops the search is searched alone. -/
theorem takeWhile_append_of_mem {keep : Symbol → Bool} {symbol : Symbol} (member : symbol ∈ text)
    (stops : keep symbol = false)
    : (text ++ back).takeWhile keep = text.takeWhile keep := by
  rw [List.takeWhile_append, if_neg]
  intro same
  have all : text.takeWhile keep = text :=
    (List.takeWhile_prefix keep).eq_of_length same
  rw [← all] at member
  rw [List.mem_takeWhile_imp member] at stops
  cases stops

/-- Symbols that the search passes may be left out before it. -/
theorem takeWhile_filter_of_passed {keep searched : Symbol → Bool}
    (passed : ∀ symbol, keep symbol = false → searched symbol = true)
    : (text.filter keep).takeWhile searched = (text.takeWhile searched).filter keep := by
  have same : (fun symbol => !keep symbol || searched symbol) = searched := by
    funext symbol
    cases kept : keep symbol with
    | true => simp
    | false => simp [passed symbol kept]
  rw [List.takeWhile_filter, same]

end Separated
