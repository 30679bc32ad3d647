import Mathlib.Data.List.Basic
import Mathlib.Data.Nat.Find

/-! Texts with references in them, each between an opening and a closing sign, and their reading from left
to right in one pass.
-/

namespace Templates

variable {Symbol : Type}

inductive Piece (Symbol : Type) where
  | literal (text : List Symbol)
  | reference (name : List Symbol)

/-- How the last reference of a text ends. -/
inductive Ending where
  | closed
  | unterminated
  deriving DecidableEq

/-- The first place at which the text goes on with the opening sign. -/
def FirstAt (opening text : List Symbol) (place : Nat) : Prop :=
  opening <+: text.drop place ∧ ∀ earlier < place, ¬ opening <+: text.drop earlier

/-- The text consists of the pieces. A reference goes from an opening sign up to the next closing sign, and
the reading goes on behind that.
-/
inductive Scans (opening : List Symbol) (closing : Symbol)
    : List Symbol → List (Piece Symbol) → Ending → Prop where
  | plain {text} (never : ∀ place, ¬ FirstAt opening text place)
    : Scans opening closing text [.literal text] .closed
  | broken {text place} (first : FirstAt opening text place)
    (never : closing ∉ text.drop (place + opening.length))
    : Scans opening closing text [.literal (text.take place)] .unterminated
  | reference {text place name back pieces ending} (first : FirstAt opening text place)
    (split : text.drop (place + opening.length) = name ++ closing :: back)
    (whole : closing ∉ name) (rest : Scans opening closing back pieces ending)
    : Scans opening closing text (.literal (text.take place) :: .reference name :: pieces) ending

/-- What stands for a piece. -/
def Piece.value (values : List Symbol → Option (List Symbol)) : Piece Symbol → Option (List Symbol)
  | literal text => some text
  | reference name => values name

section Scans

variable {opening : List Symbol} {closing : Symbol} {text back : List Symbol}
  {pieces other : List (Piece Symbol)} {ending ending' : Ending} {place place' : Nat}

theorem FirstAt.unique (first : FirstAt opening text place) (first' : FirstAt opening text place')
    : place = place' := by
  rcases Nat.lt_trichotomy place place' with before | same | behind
  · exact absurd first.1 (first'.2 place before)
  · exact same
  · exact absurd first'.1 (first.2 place' behind)

/-- A sign that occurs has a first place. -/
theorem exists_firstAt (inside : opening <:+: text) : ∃ place, FirstAt opening text place := by
  classical
  obtain ⟨before, after, rfl⟩ := inside
  have starts : ∃ place, opening <+: (before ++ opening ++ after).drop place :=
    ⟨before.length, by simp⟩
  exact ⟨Nat.find starts, Nat.find_spec starts, fun _ earlier => Nat.find_min starts earlier⟩

/-- What comes behind does not matter to the first place. -/
theorem FirstAt.append (first : FirstAt opening text place) (more : List Symbol)
    : FirstAt opening (text ++ more) place := by
  have size := first.1.length_le
  rw [List.length_drop] at size
  refine ⟨?_, ?_⟩
  · refine first.1.trans ?_
    rw [List.drop_append]
    exact List.prefix_append _ _
  · intro earlier before starts
    refine first.2 earlier before ?_
    rw [List.drop_append] at starts
    refine List.prefix_of_prefix_length_le starts (List.prefix_append _ _) ?_
    rw [List.length_drop]
    omega

/-- A name is told from what follows the closing sign, by induction on the name. -/
theorem closing_unique {name name' back' : List Symbol} (whole : closing ∉ name)
    (whole' : closing ∉ name') (same : name ++ closing :: back = name' ++ closing :: back')
    : name = name' ∧ back = back' := by
  induction name generalizing name' with
  | nil =>
      cases name' with
      | nil => exact ⟨rfl, (List.cons.inj same).2⟩
      | cons symbol name' =>
          obtain ⟨rfl, _⟩ := List.cons.inj same
          exact absurd List.mem_cons_self whole'
  | cons symbol name ih =>
      cases name' with
      | nil =>
          obtain ⟨rfl, _⟩ := List.cons.inj same
          exact absurd List.mem_cons_self whole
      | cons symbol' name' =>
          obtain ⟨rfl, rest⟩ := List.cons.inj same
          obtain ⟨rfl, behind⟩ := ih (fun member => whole (List.mem_cons_of_mem _ member))
            (fun member => whole' (List.mem_cons_of_mem _ member)) rest
          exact ⟨rfl, behind⟩

/-- There is one way to read a text, by induction on the reading. -/
theorem Scans.unique (one : Scans opening closing text pieces ending)
    (two : Scans opening closing text other ending') : pieces = other ∧ ending = ending' := by
  induction one generalizing other ending' with
  | plain never =>
      cases two with
      | plain => exact ⟨rfl, rfl⟩
      | broken first => exact absurd first (never _)
      | reference first => exact absurd first (never _)
  | broken first never =>
      cases two with
      | plain never' => exact absurd first (never' _)
      | broken first' =>
          obtain rfl := first.unique first'
          exact ⟨rfl, rfl⟩
      | reference first' split =>
          obtain rfl := first.unique first'
          exact absurd (split ▸ List.mem_append_right _ List.mem_cons_self) never
  | reference first split whole _ ih =>
      cases two with
      | plain never' => exact absurd first (never' _)
      | broken first' never' =>
          obtain rfl := first.unique first'
          exact absurd (split ▸ List.mem_append_right _ List.mem_cons_self) never'
      | reference first' split' whole' rest' =>
          obtain rfl := first.unique first'
          obtain ⟨rfl, rfl⟩ := closing_unique whole whole' (split.symm.trans split')
          obtain ⟨rfl, rfl⟩ := ih rest'
          exact ⟨rfl, rfl⟩

end Scans

-----------------------------------------------------------------------------------------
-- Finding the signs
-----------------------------------------------------------------------------------------

section Finding

variable [DecidableEq Symbol] {opening text : List Symbol} {place : Nat}

/-- The first place of the opening sign. -/
def find (opening text : List Symbol) : Option Nat :=
  (List.range (text.length + 1)).find? (fun place => decide (opening <+: text.drop place))

theorem find_some (found : find opening text = some place)
    : FirstAt opening text place ∧ place ≤ text.length := by
  obtain ⟨here, inside, earlier⟩ := List.find?_range_eq_some.mp found
  refine ⟨⟨of_decide_eq_true here, ?_⟩, Nat.lt_succ_iff.mp (List.mem_range.mp inside)⟩
  intro other before starts
  have not := earlier other before
  simp [starts] at not

theorem find_none (missing : find opening text = none) : ∀ place, ¬ FirstAt opening text place := by
  intro place first
  have absent := List.find?_eq_none.mp missing
  rcases Nat.lt_or_ge text.length place with outside | inside
  · refine first.2 text.length outside ?_
    have start := first.1
    rwa [List.drop_eq_nil_of_le (Nat.le_of_lt outside), ← List.drop_length] at start
  · exact absent place (List.mem_range.mpr (Nat.lt_succ_of_le inside)) (decide_eq_true first.1)

/-- What stands before the first closing sign, and behind it. -/
theorem split_closing {closing : Symbol} (closes : closing ∈ text)
    : text = text.takeWhile (· ≠ closing)
        ++ closing :: text.drop ((text.takeWhile (· ≠ closing)).length + 1)
      ∧ closing ∉ text.takeWhile (· ≠ closing) := by
  obtain ⟨name, back, split, whole⟩ := List.eq_append_cons_of_mem closes
  subst split
  have inside : ∀ symbol ∈ name, decide (symbol ≠ closing) = true := by
    intro symbol member
    exact decide_eq_true (fun same => whole (same ▸ member))
  have before : (name ++ closing :: back).takeWhile (· ≠ closing) = name := by
    rw [List.takeWhile_append_of_pos inside, List.takeWhile_cons_of_neg (by simp), List.append_nil]
  rw [before]
  exact ⟨by simp [← List.drop_drop], whole⟩

/-- Every text can be read, by induction on its length. -/
theorem scans_exists (opening : List Symbol) (closing : Symbol) (text : List Symbol)
    : ∃ pieces ending, Scans opening closing text pieces ending := by
  cases found : find opening text with
  | none => exact ⟨_, _, .plain (find_none found)⟩
  | some place =>
      obtain ⟨first, _⟩ := find_some found
      by_cases closes : closing ∈ text.drop (place + opening.length)
      · obtain ⟨name, back, split, whole⟩ := List.eq_append_cons_of_mem closes
        have shorter : back.length < text.length := by
          have size := congrArg List.length split
          simp only [List.length_drop, List.length_append, List.length_cons] at size
          omega
        obtain ⟨pieces, ending, rest⟩ := scans_exists opening closing back
        exact ⟨_, _, .reference first split whole rest⟩
      · exact ⟨_, _, .broken first closes⟩
termination_by text.length

end Finding

end Templates
