import Mathlib.Data.List.Basic

/-! Tables over time: rows are added behind the others, and those that were there change in a way
that is allowed, or go where they may.
-/

namespace Records

variable {Row : Type}

/-- What may have become of the rows of a table. -/
inductive Later (follows : Row → Row → Prop) (mayGo : Row → Prop) : List Row → List Row → Prop
  | added (rows : List Row) : Later follows mayGo [] rows
  | stays {old new : Row} {olds news : List Row} (follow : follows old new)
    (rest : Later follows mayGo olds news)
    : Later follows mayGo (old :: olds) (new :: news)
  | goes {old : Row} {olds news : List Row} (may : mayGo old)
    (rest : Later follows mayGo olds news)
    : Later follows mayGo (old :: olds) news

namespace Later

variable {follows : Row → Row → Prop} {mayGo : Row → Prop} {old middle new : List Row}

/-- No time has passed, by induction on the rows. -/
theorem refl (self : ∀ row, follows row row) (rows : List Row)
    : Later follows mayGo rows rows := by
  induction rows with
  | nil => exact .added []
  | cons row rest ih => exact .stays (self row) ih

/-- More time passes, by induction on what became of the rows first. -/
theorem trans (onward : ∀ {first second third}, follows first second → follows second third
      → follows first third)
    (back : ∀ {first second}, follows first second → mayGo second → mayGo first)
    (before : Later follows mayGo old middle) (after : Later follows mayGo middle new)
    : Later follows mayGo old new := by
  induction before generalizing new with
  | added rows => exact .added new
  | stays follow rest ih =>
      cases after with
      | stays follow' rest' => exact .stays (onward follow follow') (ih rest')
      | goes may rest' => exact .goes (back follow may) (ih rest')
  | goes may rest ih => exact .goes may (ih after)

/-- Rows are added, by induction on those that were there. -/
theorem append (self : ∀ row, follows row row) (rows more : List Row)
    : Later follows mayGo rows (rows ++ more) := by
  induction rows with
  | nil => exact .added more
  | cons row rest ih => exact .stays (self row) ih

/-- Rows are changed, by induction on the rows. -/
theorem map {change : Row → Row} (allowed : ∀ row, follows row (change row)) (rows : List Row)
    : Later follows mayGo rows (rows.map change) := by
  induction rows with
  | nil => exact .added []
  | cons row rest ih => exact .stays (allowed row) ih

/-- Rows go, by induction on the rows. -/
theorem filter {keeps : Row → Bool} (self : ∀ row, follows row row)
    (allowed : ∀ row, keeps row = false → mayGo row) (rows : List Row)
    : Later follows mayGo rows (rows.filter keeps) := by
  induction rows with
  | nil => exact .added []
  | cons row rest ih =>
      cases kept : keeps row with
      | true =>
          rw [List.filter_cons_of_pos kept]
          exact .stays (self row) ih
      | false =>
          rw [List.filter_cons_of_neg (by simp [kept])]
          exact .goes (allowed row kept) ih

end Later

end Records
