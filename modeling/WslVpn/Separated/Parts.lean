import Mathlib.Algebra.GroupWithZero.Nat
import Mathlib.Data.List.Basic
import Mathlib.Logic.Function.Basic

/-! Lists read as sequences of parts that a separator keeps apart, and the search for the longest part
of such a list, behind a separator, that something is known of.
-/

namespace Separated

variable {Symbol Value : Type} [DecidableEq Symbol] (sep : Symbol)

theorem splitOn_injective : Function.Injective (List.splitOn sep) := by
  intro first second same
  rw [← @List.intercalate_splitOn _ first, same, List.intercalate_splitOn]

variable {sep} {text part suffix : List Symbol}

/-- A part is made of the symbols of the list other than the separator, by induction on the list. -/
theorem of_mem_splitOn (member : part ∈ text.splitOn sep)
    : sep ∉ part ∧ ∀ symbol ∈ part, symbol ∈ text := by
  induction text generalizing part with
  | nil =>
      rw [List.splitOn_nil, List.mem_singleton] at member
      rw [member]
      exact ⟨List.not_mem_nil, fun _ inside => inside⟩
  | cons first rest ih =>
      have later : ∀ {part}, part ∈ rest.splitOn sep →
          sep ∉ part ∧ ∀ symbol ∈ part, symbol ∈ first :: rest := by
        intro part member
        exact ⟨(ih member).1, fun symbol inside => List.mem_cons_of_mem _ ((ih member).2 symbol inside)⟩
      rw [List.splitOn_cons_eq_if_modifyHead] at member
      split at member
      · rcases List.mem_cons.mp member with rfl | member
        · exact ⟨List.not_mem_nil, fun _ inside => absurd inside List.not_mem_nil⟩
        · exact later member
      · next other =>
          cases parts : rest.splitOn sep with
          | nil => exact absurd parts (List.splitOn_ne_nil sep rest)
          | cons head tail =>
              rw [parts, List.modifyHead_cons] at member
              rcases List.mem_cons.mp member with rfl | member
              · obtain ⟨apart, inside⟩ := @ih head (parts ▸ List.mem_cons_self)
                refine ⟨?_, ?_⟩
                · intro there
                  rcases List.mem_cons.mp there with rfl | there
                  · exact other (beq_self_eq_true _)
                  · exact apart there
                · intro symbol there
                  rcases List.mem_cons.mp there with rfl | there
                  · exact List.mem_cons_self
                  · exact List.mem_cons_of_mem _ (inside symbol there)
              · exact later (parts ▸ List.mem_cons_of_mem _ member)

/-- The parts of two lists, of which the last one of the first and the first one of the second grow
together. By induction on the first list.
-/
theorem splitOn_append (sep : Symbol) (left right : List Symbol)
    : ∃ start last first rest, left.splitOn sep = start ++ [last]
        ∧ right.splitOn sep = first :: rest
        ∧ (left ++ right).splitOn sep = start ++ (last ++ first) :: rest := by
  obtain ⟨first, rest, parts⟩ := List.exists_cons_of_ne_nil (List.splitOn_ne_nil sep right)
  induction left with
  | nil => exact ⟨[], [], first, rest, rfl, parts, parts⟩
  | cons symbol left ih =>
      obtain ⟨start, last, other, others, before, same, joined⟩ := ih
      obtain ⟨rfl, rfl⟩ := List.cons.inj (parts.symm.trans same)
      by_cases ends : symbol = sep
      · refine ⟨[] :: start, last, first, rest, ?_, parts, ?_⟩
        · simp [List.splitOn_cons_eq_if_modifyHead, ends, before]
        · simp [List.splitOn_cons_eq_if_modifyHead, ends, joined]
      · cases start with
        | nil =>
            refine ⟨[], symbol :: last, first, rest, ?_, parts, ?_⟩
            · simp [List.splitOn_cons_eq_if_modifyHead, ends, before]
            · simp [List.splitOn_cons_eq_if_modifyHead, ends, joined]
        | cons head start =>
            refine ⟨(symbol :: head) :: start, last, first, rest, ?_, parts, ?_⟩
            · simp [List.splitOn_cons_eq_if_modifyHead, ends, before]
            · simp [List.splitOn_cons_eq_if_modifyHead, ends, joined]

/-- Each part comes with a separator, but one of them, by induction on the list. -/
theorem sum_splitOn (sep : Symbol) (text : List Symbol)
    : ((text.splitOn sep).map (·.length + 1)).sum = text.length + 1 := by
  induction text with
  | nil => rfl
  | cons symbol rest ih =>
      obtain ⟨head, tail, parts⟩ := List.exists_cons_of_ne_nil (List.splitOn_ne_nil sep rest)
      rw [parts, List.map_cons, List.sum_cons] at ih
      rw [List.splitOn_cons_eq_if_modifyHead, List.length_cons]
      split
      · rw [parts]
        simp only [List.map_cons, List.sum_cons, List.length_nil]
        omega
      · rw [parts, List.modifyHead_cons]
        simp only [List.map_cons, List.sum_cons, List.length_cons]
        omega

/-- The list ends with the suffix, and a separator stands before that. -/
def Behind (sep : Symbol) (text suffix : List Symbol)
    : Prop := ∃ front, text = front ++ sep :: suffix

/-- Such a suffix consists of the last parts, of which there are fewer. -/
theorem behind_iff
    : Behind sep text suffix
      ↔ ∃ front, front ≠ [] ∧ text.splitOn sep = front ++ suffix.splitOn sep := by
  constructor
  · intro behind
    obtain ⟨front, rfl⟩ := behind
    exact ⟨_, List.splitOn_ne_nil sep front, List.splitOn_append_cons_self front suffix⟩
  · intro parts
    obtain ⟨front, some, parts⟩ := parts
    refine ⟨[sep].intercalate front, splitOn_injective sep ?_⟩
    have whole : ∀ part ∈ front, sep ∉ part := by
      intro part member
      have inText : part ∈ text.splitOn sep := by
        rw [parts]
        exact List.mem_append_left _ member
      exact (of_mem_splitOn inText).1
    rw [parts, List.splitOn_append_cons_self, List.splitOn_intercalate sep whole some]

omit [DecidableEq Symbol] in
/-- Two sequences of parts are joined by a separator, by induction on the first one. -/
theorem intercalate_append {first second : List (List Symbol)} (some : first ≠ [])
    (more : second ≠ [])
    : [sep].intercalate (first ++ second)
      = [sep].intercalate first ++ sep :: [sep].intercalate second := by
  induction first with
  | nil => exact absurd rfl some
  | cons part rest ih =>
      cases rest with
      | nil =>
          rw [List.singleton_append, List.intercalate_cons_of_ne_nil more]
          simp
      | cons next rest =>
          have filled : next :: rest ≠ [] := List.cons_ne_nil _ _
          have longer : next :: rest ++ second ≠ [] := by simp
          rw [List.cons_append, List.intercalate_cons_of_ne_nil longer, ih filled,
            List.intercalate_cons_of_ne_nil filled]
          simp

omit [DecidableEq Symbol] in
/-- A symbol of joined parts is one of a part, or the separator, by induction on the parts. -/
theorem of_mem_intercalate {parts : List (List Symbol)} {symbol : Symbol}
    (member : symbol ∈ [sep].intercalate parts)
    : symbol = sep ∨ ∃ part ∈ parts, symbol ∈ part := by
  induction parts with
  | nil => cases member
  | cons part rest ih =>
      cases rest with
      | nil => exact Or.inr ⟨part, List.mem_cons_self, by simpa using member⟩
      | cons next rest =>
          rw [List.intercalate_cons_of_ne_nil (List.cons_ne_nil _ _)] at member
          rcases List.mem_append.mp member with front | later
          · rcases List.mem_append.mp front with inside | between
            · exact Or.inr ⟨part, List.mem_cons_self, inside⟩
            · exact Or.inl (List.mem_singleton.mp between)
          · rcases ih later with same | ⟨other, there, inside⟩
            · exact Or.inl same
            · exact Or.inr ⟨other, List.mem_cons_of_mem _ there, inside⟩

omit [DecidableEq Symbol] in
/-- Parts are joined before or after each symbol is changed, as long as the separator stays. -/
theorem map_intercalate {change : Symbol → Symbol} (stays : change sep = sep)
    (parts : List (List Symbol))
    : ([sep].intercalate parts).map change = [sep].intercalate (parts.map (·.map change)) := by
  induction parts with
  | nil => rfl
  | cons part rest ih =>
      cases rest with
      | nil => simp
      | cons next rest =>
          have filled : next :: rest ≠ [] := List.cons_ne_nil _ _
          have mapped : (next :: rest).map (·.map change) ≠ [] := by simp
          rw [List.intercalate_cons_of_ne_nil filled, List.map_cons,
            List.intercalate_cons_of_ne_nil mapped, ← ih]
          simp [stays]

omit [DecidableEq Symbol] in
/-- Joined parts end with a symbol of one of them, by induction on the parts. -/
theorem getLast?_intercalate {parts : List (List Symbol)} (filled : ∀ part ∈ parts, part ≠ [])
    (some : parts ≠ [])
    : ∃ part ∈ parts, ∃ symbol ∈ part, ([sep].intercalate parts).getLast? = .some symbol := by
  induction parts with
  | nil => exact absurd rfl some
  | cons part rest ih =>
      obtain ⟨here, filled⟩ := List.forall_mem_cons.mp filled
      cases rest with
      | nil =>
          refine ⟨part, List.mem_cons_self, part.getLast here, List.getLast_mem here, ?_⟩
          rw [← List.getLast?_eq_some_getLast here]
          simp
      | cons next rest =>
          have more : next :: rest ≠ [] := List.cons_ne_nil _ _
          obtain ⟨last, member, symbol, inside, ends⟩ := ih filled more
          refine ⟨last, List.mem_cons_of_mem _ member, symbol, inside, ?_⟩
          rw [List.intercalate_cons_of_ne_nil more, List.getLast?_append, List.getLast?_append,
            ends]
          rfl

-----------------------------------------------------------------------------------------
-- The first suffix that something is known of
-----------------------------------------------------------------------------------------

/-- Of the suffixes behind a separator, the first one that `known` has a value for. -/
def firstBehind (sep : Symbol) (known : List Symbol → Option Value)
    : List Symbol → Option (List Symbol × Value)
  | [] => none
  | symbol :: rest =>
      if symbol = sep then
        match known rest with
        | some value => some (rest, value)
        | none => firstBehind sep known rest
      else firstBehind sep known rest

variable {known : List Symbol → Option Value} {value : Value}

omit [DecidableEq Symbol] in
theorem not_behind_nil : ¬ Behind sep [] suffix := by
  intro behind
  obtain ⟨front, same⟩ := behind
  cases front <;> cases same

omit [DecidableEq Symbol] in
theorem behind_cons {symbol : Symbol} {rest : List Symbol}
    : Behind sep (symbol :: rest) suffix
      ↔ (symbol = sep ∧ rest = suffix) ∨ Behind sep rest suffix := by
  constructor
  · intro behind
    obtain ⟨front, same⟩ := behind
    cases front with
    | nil =>
        cases same
        exact Or.inl ⟨rfl, rfl⟩
    | cons first front =>
        cases same
        exact Or.inr ⟨front, rfl⟩
  · intro behind
    rcases behind with ⟨rfl, rfl⟩ | ⟨front, rfl⟩
    · exact ⟨[], rfl⟩
    · exact ⟨symbol :: front, rfl⟩

/-- Nothing is found exactly when nothing is known of any suffix, by induction on the list. -/
theorem firstBehind_eq_none
    : firstBehind sep known text = none
      ↔ ∀ suffix, Behind sep text suffix → known suffix = none := by
  induction text with
  | nil => exact iff_of_true rfl (fun _ behind => absurd behind not_behind_nil)
  | cons symbol rest ih =>
      have down : (∀ suffix, Behind sep (symbol :: rest) suffix → known suffix = none)
          → ∀ suffix, Behind sep rest suffix → known suffix = none :=
        fun all suffix behind => all suffix (behind_cons.mpr (Or.inr behind))
      rw [firstBehind]
      split
      · next same =>
          cases here : known rest with
          | some value =>
              refine iff_of_false (by simp) ?_
              intro none
              rw [none rest (behind_cons.mpr (Or.inl ⟨same, rfl⟩))] at here
              cases here
          | none =>
              refine ih.trans ⟨?_, down⟩
              intro all suffix behind
              rcases behind_cons.mp behind with ⟨_, rfl⟩ | behind
              · exact here
              · exact all suffix behind
      · next other =>
          refine ih.trans ⟨?_, down⟩
          intro all suffix behind
          rcases behind_cons.mp behind with ⟨same, _⟩ | behind
          · exact absurd same other
          · exact all suffix behind

/-- What is found stands behind a separator and is known, and nothing with more parts is, by induction
on the list.
-/
theorem firstBehind_eq_some (found : firstBehind sep known text = some (suffix, value))
    : Behind sep text suffix ∧ known suffix = some value
      ∧ ∀ longer, Behind sep text longer → known longer ≠ none
          → (longer.splitOn sep).length ≤ (suffix.splitOn sep).length := by
  induction text with
  | nil => cases found
  | cons symbol rest ih =>
      rw [firstBehind] at found
      split at found
      · next same =>
          cases here : known rest with
          | some stored =>
              rw [here] at found
              cases found
              refine ⟨behind_cons.mpr (Or.inl ⟨same, rfl⟩), here, ?_⟩
              intro longer behind _
              rcases behind_cons.mp behind with ⟨_, rfl⟩ | behind
              · exact Nat.le_refl _
              · obtain ⟨front, _, parts⟩ := behind_iff.mp behind
                rw [parts, List.length_append]
                exact Nat.le_add_left _ _
          | none =>
              rw [here] at found
              obtain ⟨behind, stored, most⟩ := ih found
              refine ⟨behind_cons.mpr (Or.inr behind), stored, ?_⟩
              intro longer behind some
              rcases behind_cons.mp behind with ⟨_, rfl⟩ | behind
              · exact absurd here some
              · exact most longer behind some
      · next other =>
          obtain ⟨behind, stored, most⟩ := ih found
          refine ⟨behind_cons.mpr (Or.inr behind), stored, ?_⟩
          intro longer behind some
          rcases behind_cons.mp behind with ⟨same, _⟩ | behind
          · exact absurd same other
          · exact most longer behind some

/-- Of two suffixes behind a separator, one with as many parts as the other is the other. -/
theorem behind_unique {other : List Symbol} (behind : Behind sep text suffix)
    (behindOther : Behind sep text other)
    (same : (suffix.splitOn sep).length = (other.splitOn sep).length)
    : suffix = other := by
  obtain ⟨front, _, parts⟩ := behind_iff.mp behind
  obtain ⟨front', _, parts'⟩ := behind_iff.mp behindOther
  refine splitOn_injective sep ?_
  exact (List.append_inj' (parts.symm.trans parts') same).2

-----------------------------------------------------------------------------------------
-- From one suffix to the next
-----------------------------------------------------------------------------------------

/-- What stands behind the first separator. -/
def behindFirst (sep : Symbol) : List Symbol → Option (List Symbol)
  | [] => none
  | symbol :: rest => if symbol = sep then some rest else behindFirst sep rest

/-- By induction on the list. -/
theorem behindFirst_shorter (found : behindFirst sep text = some suffix)
    : suffix.length < text.length := by
  induction text with
  | nil => cases found
  | cons symbol rest ih =>
      rw [behindFirst] at found
      split at found
      · cases found
        exact Nat.lt_succ_self _
      · exact Nat.lt_succ_of_lt (ih found)

/-- The loop that cuts off one part after the other until something is known of the rest. -/
def climb (sep : Symbol) (known : List Symbol → Option Value) (text : List Symbol)
    : Option (List Symbol × Value) :=
  match _found : behindFirst sep text with
  | none => none
  | some parent => ((known parent).map (fun value => (parent, value))).or (climb sep known parent)
termination_by text.length
decreasing_by exact behindFirst_shorter _found

/-- Up to its first separator a list has no suffix to be found, by induction on the list. -/
theorem firstBehind_behindFirst
    : firstBehind sep known text
      = (behindFirst sep text).bind (fun parent =>
          ((known parent).map (fun value => (parent, value))).or (firstBehind sep known parent)) := by
  induction text with
  | nil => rfl
  | cons symbol rest ih =>
      rw [firstBehind, behindFirst]
      split
      · cases here : known rest <;> simp [here]
      · exact ih

/-- The loop finds the first suffix that something is known of, by induction on its rounds. -/
theorem climb_eq_firstBehind : climb sep known text = firstBehind sep known text := by
  induction text using climb.induct sep with
  | case1 text last => rw [climb, firstBehind_behindFirst, last, Option.bind_none]
  | case2 text parent found ih =>
      rw [climb, firstBehind_behindFirst, found, Option.bind_some, ← ih]

end Separated
