import Mathlib.Data.List.Nodup

/-! Lists of rows in which a column takes each value at most once, as behind a unique index. -/

namespace Records

variable {Row Key : Type} (key : Row → Key)

/-- No two rows have one key. -/
def Unique (rows : List Row) : Prop := (rows.map key).Nodup

variable {key} {rows : List Row} {row : Row}

/-- A key names one row. -/
theorem Unique.same (unique : Unique key rows) {left right : Row} (leftThere : left ∈ rows)
    (rightThere : right ∈ rows) (same : key left = key right)
    : left = right :=
  List.inj_on_of_nodup_map unique leftThere rightThere same

/-- A search finds the one row that it is for. -/
theorem find?_only {sought : Row → Bool} (there : row ∈ rows) (holds : sought row = true)
    (only : ∀ other ∈ rows, sought other = true → other = row)
    : rows.find? sought = some row := by
  cases found : rows.find? sought with
  | none => exact absurd holds (List.find?_eq_none.mp found row there)
  | some other => rw [only other (List.mem_of_find?_eq_some found) (List.find?_some found)]

/-- The search by a key finds the row that has it. -/
theorem Unique.find? [DecidableEq Key] (unique : Unique key rows) (there : row ∈ rows)
    : rows.find? (key · == key row) = some row := by
  cases found : rows.find? (key · == key row) with
  | none =>
      have other := List.find?_eq_none.mp found row there
      simp at other
  | some other =>
      have named : key other = key row := by simpa using List.find?_some found
      rw [unique.same (List.mem_of_find?_eq_some found) there named]

/-- A row with a new key goes behind the others. -/
theorem Unique.concat (unique : Unique key rows) (fresh : ∀ other ∈ rows, key other ≠ key row)
    : Unique key (rows ++ [row]) := by
  rw [Unique, List.map_append, List.map_singleton]
  refine List.Nodup.append unique (List.nodup_singleton _) ?_
  intro value there new
  obtain ⟨other, member, rfl⟩ := List.mem_map.mp there
  exact fresh other member (List.mem_singleton.mp new)

/-- Fewer rows. -/
theorem Unique.filter (unique : Unique key rows) (keeps : Row → Bool)
    : Unique key (rows.filter keeps) :=
  unique.sublist (List.filter_sublist.map key)

/-- Changed rows that keep their keys. -/
theorem Unique.map (unique : Unique key rows) {change : Row → Row}
    (untouched : ∀ row, key (change row) = key row)
    : Unique key (rows.map change) := by
  have same : (rows.map change).map key = rows.map key := by
    rw [List.map_map]
    exact List.map_congr_left (fun row _ => untouched row)
  rw [Unique, same]
  exact unique

end Records
