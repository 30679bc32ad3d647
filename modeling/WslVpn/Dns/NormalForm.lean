import WslVpn.Separated.Trim
import WslVpn.Dns.Hosts

/-! The names that are entered: what `normalise` returns, which is what it leaves as it is. -/

open Separated

namespace WslVpn.Dns

/-- A host name as it is entered, in lower case and within the limits of DNS. -/
structure HostText (host : Text) : Prop where
  filled : host ≠ []
  short : byteLength host ≤ 253
  labels : ∀ label ∈ host.splitOn '.', validLabel label = true
  lower : ∀ char ∈ host, char.toLower = char

/-- A name in normal form: a host name, or a wildcard over one of two labels at least. -/
inductive Normal : Text → Prop where
  | host {name} (host : HostText name) : Normal name
  | wildcard {suffix} (host : HostText suffix) (two : '.' ∈ suffix)
    : Normal (wildcardStart ++ suffix)

/-- The character is read as itself in a hosts file. -/
structure PlainChar (char : Char) : Prop where
  ascii : char.toNat < 0x80
  visible : isWhitespace char = false
  uncommented : char ≠ '#'

-----------------------------------------------------------------------------------------
-- Characters
-----------------------------------------------------------------------------------------

section Characters

variable {host name label : Text} {char : Char}

theorem validLabel_filled (valid : validLabel label = true) : label ≠ [] := by
  intro nothing
  rw [nothing] at valid
  cases valid

/-- The characters of host names are none of those that end a field, a line or a path component. -/
theorem hostChar_plain (kind : char.isAlphanum = true ∨ char = '-' ∨ char = '_' ∨ char = '.')
    : PlainChar char ∧ char ≠ '*' ∧ char ≠ '/' := by
  have ascii : char.toNat < 0x80 := by
    rcases kind with alphanum | rfl | rfl | rfl
    · exact hostChar_ascii (Or.inl alphanum)
    · decide
    · decide
    · decide
  have all := @ascii_forall
    (fun char => (char.isAlphanum = true ∨ char = '-' ∨ char = '_' ∨ char = '.') →
      isWhitespace char = false ∧ char ≠ '#' ∧ char ≠ '*' ∧ char ≠ '/')
    (by decide +kernel) char ascii kind
  exact ⟨⟨ascii, all.1, all.2.1⟩, all.2.2⟩

theorem HostText.kind (host : HostText name) (member : char ∈ name)
    : char.isAlphanum = true ∨ char = '-' ∨ char = '_' ∨ char = '.' := by
  rw [← @List.intercalate_splitOn _ name _ _ '.'] at member
  rcases of_mem_intercalate member with dot | ⟨label, there, inside⟩
  · exact Or.inr (Or.inr (Or.inr dot))
  · have valid := host.labels label there
    simp only [validLabel, Bool.and_eq_true, List.all_eq_true, Bool.or_eq_true, beq_iff_eq] at valid
    rcases valid.2 char inside with (alphanum | hyphen) | underscore
    · exact Or.inl alphanum
    · exact Or.inr (Or.inl hyphen)
    · exact Or.inr (Or.inr (Or.inl underscore))

theorem HostText.plain (host : HostText name) (member : char ∈ name) : PlainChar char :=
  (hostChar_plain (host.kind member)).1

/-- A host name does not begin as a wildcard does. -/
theorem HostText.strip (host : HostText name) : stripStart wildcardStart name = none := by
  cases stripped : stripStart wildcardStart name with
  | none => rfl
  | some rest =>
      have star : '*' ∈ name := by
        rw [stripStart_some stripped]
        exact List.mem_cons_self
      exact absurd rfl (hostChar_plain (host.kind star)).2.1

theorem HostText.last (host : HostText name) : name.getLast? ≠ some '.' := by
  have filled : ∀ label ∈ name.splitOn '.', label ≠ [] :=
    fun label member => validLabel_filled (host.labels label member)
  obtain ⟨label, member, char, inside, ends⟩ :=
    @getLast?_intercalate _ '.' _ filled (List.splitOn_ne_nil '.' name)
  rw [List.intercalate_splitOn] at ends
  rw [ends]
  intro dot
  cases dot
  exact (of_mem_splitOn member).1 inside

theorem Normal.plain (normal : Normal name) : ∀ char ∈ name, PlainChar char := by
  intro char member
  cases normal with
  | host host => exact host.plain member
  | wildcard host two =>
      rcases List.mem_append.mp member with start | member
      · have all : ∀ char ∈ wildcardStart, PlainChar char := by
          intro char start
          simp only [wildcardStart, List.mem_cons, List.not_mem_nil, or_false] at start
          rcases start with rfl | rfl
          · exact ⟨by decide, by decide, by decide⟩
          · exact ⟨by decide, by decide, by decide⟩
        exact all char start
      · exact host.plain member

theorem Normal.filled (normal : Normal name) : name ≠ [] := by
  cases normal with
  | host host => exact host.filled
  | wildcard host two => simp [wildcardStart]

theorem Normal.lower (normal : Normal name) : toAsciiLowercase name = name := by
  have same {text : Text} (lower : ∀ char ∈ text, char.toLower = char)
      : toAsciiLowercase text = text :=
    (List.map_congr_left lower).trans (List.map_id text)
  cases normal with
  | host host => exact same host.lower
  | @wildcard suffix host two =>
      have both : toAsciiLowercase (wildcardStart ++ suffix)
          = toAsciiLowercase wildcardStart ++ toAsciiLowercase suffix :=
        List.map_append
      rw [both, same host.lower]
      rfl

theorem Normal.last (normal : Normal name) : name.getLast? ≠ some '.' := by
  cases normal with
  | host host => exact host.last
  | wildcard host two =>
      rw [List.getLast?_append_of_ne_nil _ host.filled]
      exact host.last

end Characters

-----------------------------------------------------------------------------------------
-- What is accepted
-----------------------------------------------------------------------------------------

section Accepted

variable {name result : Text}

/-- Text of visible characters alone is not trimmed. -/
theorem trim_visible (visible : ∀ char ∈ name, isWhitespace char = false) : trim name = name := by
  refine trimBy_of_trimmed ⟨?_, ?_⟩
  · exact fun char first => visible char (List.mem_of_head? first)
  · exact fun char last => visible char (List.mem_of_getLast? last)

/-- The checks of a host, after those of lower case, are those of a host name. -/
theorem hostText_iff {host : Text} (lower : ∀ char ∈ host, char.toLower = char)
    : HostText host
      ↔ ¬ (host = [] ∨ 253 < byteLength host)
        ∧ ¬ (!(host.splitOn '.').all validLabel) = true := by
  simp only [Bool.not_eq_true', Bool.not_eq_false, List.all_eq_true, not_or, Nat.not_lt]
  constructor
  · intro host
    exact ⟨⟨host.filled, host.short⟩, host.labels⟩
  · intro checks
    exact ⟨checks.1.1, checks.1.2, checks.2, lower⟩

/-- What is left of a name between its white space and its dots, in lower case, is what is returned,
and it has to be in normal form.
-/
theorem normalise_iff
    : normalise name = .ok result
      ↔ toAsciiLowercase (trimEndDots (trim name)) = result ∧ Normal result := by
  have folded : ∀ char ∈ toAsciiLowercase (trimEndDots (trim name)), char.toLower = char := by
    intro char member
    obtain ⟨before, _, rfl⟩ := List.mem_map.mp member
    exact toLower_toLower before
  unfold normalise
  generalize toAsciiLowercase (trimEndDots (trim name)) = lowered at folded
  dsimp only
  cases stripped : stripStart wildcardStart lowered with
  | none =>
      have judged := hostText_iff folded
      dsimp only
      constructor
      · intro accepted
        split at accepted
        · cases accepted
        · next sized =>
            split at accepted
            · cases accepted
            · next valid =>
                split at accepted
                · cases accepted
                · cases accepted
                  exact ⟨rfl, .host (judged.mpr ⟨sized, valid⟩)⟩
      · intro accepted
        obtain ⟨rfl, normal⟩ := accepted
        cases normal with
        | host host =>
            rw [if_neg (judged.mp host).1, if_neg (judged.mp host).2, if_neg (by simp)]
            rfl
        | wildcard host two =>
            rw [stripStart_append] at stripped
            cases stripped
  | some suffix =>
      obtain rfl := stripStart_some stripped
      have judged := hostText_iff (fun char member => folded char (List.mem_append_right _ member))
      dsimp only
      constructor
      · intro accepted
        split at accepted
        · cases accepted
        · next sized =>
            split at accepted
            · cases accepted
            · next valid =>
                split at accepted
                · cases accepted
                · next two =>
                    cases accepted
                    refine ⟨rfl, .wildcard (judged.mpr ⟨sized, valid⟩) ?_⟩
                    by_contra single
                    exact two ⟨rfl, single⟩
      · intro accepted
        obtain ⟨rfl, normal⟩ := accepted
        generalize whole : wildcardStart ++ suffix = text at normal
        cases normal with
        | host host =>
            rw [← whole] at host
            have plain := host.strip
            rw [stripStart_append] at plain
            cases plain
        | wildcard host two =>
            obtain rfl := List.append_cancel_left whole
            rw [if_neg (judged.mp host).1, if_neg (judged.mp host).2, if_neg (by simp [two])]
            rfl

/-- A name in normal form is returned as it is. -/
theorem Normal.normalise (normal : Normal name) : normalise name = .ok name := by
  refine normalise_iff.mpr ⟨?_, normal⟩
  rw [trim_visible (fun char member => (normal.plain char member).visible),
    trimEndDots_of_last normal.last, normal.lower]

theorem normal_of_normalise (accepted : Dns.normalise name = .ok result) : Normal result :=
  (normalise_iff.mp accepted).2

theorem HostText.hostName (host : HostText name) : HostName name := by
  intro label member
  refine hostLabel_of_valid (host.labels label member) ?_
  exact fun char inside => host.lower char ((of_mem_splitOn member).2 char inside)

/-- What is accepted is a host name, behind the start of a wildcard if it has one. -/
theorem normalise_host (accepted : Dns.normalise name = .ok result)
    : HostName (entryName result) := by
  cases normal_of_normalise accepted with
  | host host =>
      rw [entryName, host.strip]
      exact host.hostName
  | wildcard host two =>
      rw [entryName, stripStart_append]
      exact host.hostName

end Accepted

end WslVpn.Dns
