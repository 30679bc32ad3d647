import Mathlib.Data.List.Basic

/-! Paths as texts, and the components that they go through. -/

namespace Paths

/-- The components of a path. Empty ones and single dots stay where they are. -/
def components (path : List Char) : List (List Char) :=
  (path.splitOn '/').filter (fun component => component ≠ [] ∧ component ≠ ['.'])

/-- A path behind another one, unless it begins at the root. -/
def join (path name : List Char) : List Char :=
  if name.head? = some '/' then name
  else if path = [] ∨ path.getLast? = some '/' then path ++ name
  else path ++ '/' :: name

/-- The name of something in a directory. -/
structure Component (name : List Char) : Prop where
  filled : name ≠ []
  whole : '/' ∉ name
  notHere : name ≠ ['.']
  notAbove : name ≠ ['.', '.']

variable {path name front back : List Char}

theorem components_slash
    : components (front ++ '/' :: back) = components front ++ components back := by
  rw [components, List.splitOn_append_cons_self, List.filter_append, components, components]

theorem Component.alone (component : Component name) : components name = [name] := by
  rw [components, List.splitOn_eq_singleton component.whole]
  simp [component.filled, component.notHere]

/-- A component is found directly inside the directory that it is joined to. -/
theorem Component.inside (component : Component name) (path : List Char)
    : components (join path name) = components path ++ [name] := by
  have relative : name.head? ≠ some '/' :=
    fun first => component.whole (List.mem_of_head? first)
  rw [join, if_neg relative]
  split
  · next ended =>
      rcases ended with nothing | slash
      · rw [nothing, List.nil_append, component.alone]
        rfl
      · obtain ⟨front, rfl⟩ := List.getLast?_eq_some_iff.mp slash
        have root : components (front ++ ['/']) = components front := by
          rw [components_slash]
          simp [components]
        rw [List.append_assoc, List.singleton_append, components_slash, component.alone, root]
  · rw [components_slash, component.alone]

end Paths
