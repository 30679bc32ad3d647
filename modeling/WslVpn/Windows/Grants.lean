import Mathlib.Algebra.Order.Group.Nat
import Mathlib.Data.List.Count

/-! Grants counted in windows that never overlap. Each window has a budget, and the next one starts
when the last has run out at the earliest; an interval no longer than a window then meets two of them.
-/

namespace Windows

/-- The times of grants, the latest first, with the start of the last window and what it has
granted.
-/
inductive Grants (width budget : Nat) : List Nat → Nat → Nat → Prop where
  | opened (start : Nat) : Grants width budget [] start 0
  | granted {times : List Nat} {start count now : Nat} (earlier : Grants width budget times start count)
      (left : count < budget) (started : start ≤ now) (inside : now < start + width)
      : Grants width budget (now :: times) start (count + 1)
  | reopened {times : List Nat} {start count now : Nat}
      (earlier : Grants width budget times start count) (past : start + width ≤ now)
      : Grants width budget times now 0

/-- How many of the times are in the closed interval. -/
def within (first last : Nat) (times : List Nat) : Nat :=
  times.countP (fun time => first ≤ time ∧ time ≤ last)

namespace Grants

variable {width budget : Nat} {times : List Nat} {start count : Nat}

/-- No more is granted in a window than its budget. -/
theorem count_le (grants : Grants width budget times start count)
    : count ≤ budget := by
  induction grants with
  | opened start => exact Nat.zero_le budget
  | granted earlier left started inside ih => exact left
  | reopened earlier past ih => exact Nat.zero_le budget

/-- No grant is later than the last window. -/
theorem lt_end (grants : Grants width budget times start count)
    : ∀ time ∈ times, time < start + width := by
  induction grants with
  | opened start => simp
  | granted earlier left started inside ih => simpa using ⟨inside, ih⟩
  | reopened earlier past ih =>
      intro time member
      have before := ih time member
      omega

/-- The last window has what was granted since its start. -/
theorem count_since (grants : Grants width budget times start count)
    : times.countP (fun time => start ≤ time) = count := by
  induction grants with
  | opened start => rfl
  | granted earlier left started inside ih =>
      rw [List.countP_cons_of_pos (by simpa using started), ih]
  | @reopened times start count now earlier past ih =>
      apply List.countP_eq_zero.mpr
      intro time member
      have before := earlier.lt_end time member
      simp only [decide_eq_true_eq]
      omega

/-- What was granted shortly before the last window was granted by one window. -/
theorem count_shortly_before (grants : Grants width budget times start count) (first : Nat)
    (close : start ≤ first + width)
    : times.countP (fun time => first ≤ time ∧ time < start) ≤ budget := by
  induction grants with
  | opened start => exact Nat.zero_le budget
  | @granted times start count now earlier left started inside ih =>
      rw [List.countP_cons_of_neg (by simp; omega)]
      exact ih close
  | @reopened times start count now earlier past ih =>
      have fewer : times.countP (fun time => first ≤ time ∧ time < now)
          ≤ times.countP (fun time => start ≤ time) := by
        apply List.countP_mono_left
        intro time member inside
        simp only [decide_eq_true_eq] at inside ⊢
        omega
      have all := earlier.count_since
      have bound := earlier.count_le
      omega

/-- A grant that is not before the last window comes on top of that window and one before it. -/
theorem within_le_of_reaches (grants : Grants width budget times start count) {first last : Nat}
    (short : last ≤ first + width) (reaches : start ≤ last)
    : within first last times ≤ budget + count := by
  have split : within first last times
      ≤ times.countP (fun time => first ≤ time ∧ time < start)
        + times.countP (fun time => start ≤ time) := by
    clear short reaches grants
    induction times with
    | nil => simp [within]
    | cons time rest ih =>
        simp only [within, List.countP_cons, decide_eq_true_eq] at ih ⊢
        split_ifs <;> omega
  have before := grants.count_shortly_before first (reaches.trans short)
  have since := grants.count_since
  omega

/-- An interval no longer than a window has at most two budgets. -/
theorem within_le (grants : Grants width budget times start count) {first last : Nat}
    (short : last ≤ first + width)
    : within first last times ≤ 2 * budget := by
  induction grants with
  | opened start => exact Nat.zero_le _
  | @granted times start count now earlier left started inside ih =>
      by_cases member : first ≤ now ∧ now ≤ last
      · have rest := earlier.within_le_of_reaches short (started.trans member.2)
        rw [within, List.countP_cons_of_pos (by simpa using member)]
        simp only [within] at rest
        omega
      · rw [within, List.countP_cons_of_neg (by simpa using member)]
        exact ih
  | reopened earlier past ih => exact ih

end Grants

end Windows
