import Mathlib.Data.List.AList

/-! Finite maps: what is left of one when some of its entries are dropped. -/

namespace Records

/-- A finite map. -/
abbrev Map (Key Value : Type) := AList (fun _ : Key => Value)

namespace Map

variable {Key Value : Type} [DecidableEq Key]

/-- Drop the entries that the test fails on. -/
def retain (keeps : Key → Value → Bool) (map : Map Key Value) : Map Key Value :=
  ⟨map.entries.filter (fun entry => keeps entry.1 entry.2),
    map.nodupKeys.sublist List.filter_sublist⟩

/-- An entry is still there if the test holds of it. -/
theorem lookup_retain (keeps : Key → Value → Bool) (map : Map Key Value) (key : Key)
    : (map.retain keeps).lookup key = (map.lookup key).filter (keeps key) := by
  apply Option.ext
  intro value
  rw [Option.filter_eq_some_iff, ← Option.mem_def, ← Option.mem_def, AList.mem_lookup_iff,
    AList.mem_lookup_iff]
  simp [retain]

end Map

end Records
