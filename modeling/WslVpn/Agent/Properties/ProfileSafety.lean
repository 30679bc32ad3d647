import WslVpn.Separated.Parts
import WslVpn.Agent.Library
import WslVpn.Agent.WgQuick

/-! What wg-quick reads in the config that an import stored: settings that the import allows where they
stand, and no command.
-/

open Separated

namespace WslVpn.Agent

open Dns (Text trim lines dropReturn isWhitespace toAsciiLowercase)

/-- The settings that a section may have. -/
def Section.keys : Section → List Text
  | .none => []
  | .interface => interfaceKeys
  | .peer => peerKeys

-----------------------------------------------------------------------------------------
-- What the check accepts
-----------------------------------------------------------------------------------------

section Accepted

variable {publicKeyFromPrivate : Text → Option Text} {progress next : Progress} {lineNo : Nat}
  {raw line : Text}

/-- Each line of an accepted text was accepted where the lines before it had led. -/
theorem readLines_at {read : List Text} {index : Nat}
    (accepted : Progress.readLines publicKeyFromPrivate progress lineNo read = .ok next)
    (there : read[index]? = some line)
    : ∃ before after,
        Progress.readLines publicKeyFromPrivate progress lineNo (read.take index) = .ok before
        ∧ before.readLine publicKeyFromPrivate (lineNo + index) line = .ok after := by
  induction read generalizing progress lineNo index with
  | nil => simp at there
  | cons first rest ih =>
      cases one : progress.readLine publicKeyFromPrivate lineNo first with
      | error message =>
          rw [Progress.readLines, one] at accepted
          cases accepted
      | ok after =>
          rw [Progress.readLines, one] at accepted
          cases index with
          | zero =>
              cases there
              exact ⟨progress, after, rfl, one⟩
          | succ index =>
              obtain ⟨before, later, led, read⟩ := ih accepted there
              refine ⟨before, later, ?_, ?_⟩
              · rw [List.take_succ_cons, Progress.readLines, one]
                exact led
              · rw [Nat.add_right_comm, Nat.add_assoc] at read
                exact read

theorem header_cases (accepted : progress.header lineNo line = .ok next)
    : toAsciiLowercase line = "[interface]".toList ∨ toAsciiLowercase line = "[peer]".toList := by
  obtain ⟨_, _, opened⟩ := of_bind_ok accepted
  by_cases interface : toAsciiLowercase line = "[interface]".toList
  · exact Or.inl interface
  · by_cases peer : toAsciiLowercase line = "[peer]".toList
    · exact Or.inr peer
    · simp only [Progress.openSection, if_neg interface, if_neg peer] at opened
      cases opened

/-- A section header has no equals sign. -/
theorem header_plain (accepted : progress.header lineNo line = .ok next) : '=' ∉ line := by
  intro member
  have lowered : '=' ∈ toAsciiLowercase line := List.mem_map.mpr ⟨'=', member, rfl⟩
  rcases header_cases accepted with same | same
  · rw [same] at lowered
    exact absurd lowered (by decide)
  · rw [same] at lowered
    exact absurd lowered (by decide)

theorem setting_allowed {key value : Text}
    (accepted : progress.setting publicKeyFromPrivate lineNo raw key value = .ok next)
    : key ∈ progress.inSection.keys ∧ key ∉ hookKeys := by
  rw [Progress.setting] at accepted
  split at accepted
  · cases accepted
  · next plain =>
      refine ⟨?_, plain⟩
      cases inside : progress.inSection with
      | none =>
          rw [inside] at accepted
          cases accepted
      | interface =>
          rw [inside] at accepted
          simp only [Progress.interfaceSetting] at accepted
          split at accepted
          · cases accepted
          · next known => exact not_not.mp known
      | peer =>
          rw [inside] at accepted
          simp only [Progress.peerSetting] at accepted
          split at accepted
          · cases accepted
          · next known => exact not_not.mp known

/-- Blanks in front of the text are in front of its beginning. -/
theorem trim_takeWhile {text : Text} (signed : '=' ∈ text)
    : trim ((trim text).takeWhile (· ≠ '=')) = trim (text.takeWhile (· ≠ '=')) := by
  obtain ⟨front, back, before, _, split⟩ := trimBy_split isWhitespace text
  have inside : '=' ∈ trimBy isWhitespace text := (mem_trimBy rfl).mpr signed
  have passed : ∀ char ∈ front, (decide (char ≠ '=')) = true := by
    intro char member
    have white := before char member
    rw [decide_eq_true_eq]
    intro same
    subst same
    cases white
  have cut : text.takeWhile (· ≠ '=') = front ++ ((trim text).takeWhile (· ≠ '=') ++ []) := by
    conv_lhs => rw [split]
    rw [List.takeWhile_append_of_pos passed, takeWhile_append_of_mem inside (by simp),
      List.append_nil]
    rfl
  rw [cut]
  exact (trimBy_pad before (by simp)).symm

/-- The key of an accepted line is allowed in the section that the line is in. -/
theorem readLine_key (accepted : progress.readLine publicKeyFromPrivate lineNo raw = .ok next)
    (signed : '=' ∈ raw.takeWhile (· ≠ '#'))
    : let key := toAsciiLowercase (trim ((raw.takeWhile (· ≠ '#')).takeWhile (· ≠ '=')))
      key ∈ progress.inSection.keys ∧ key ∉ hookKeys := by
  have inside : '=' ∈ trim (raw.takeWhile (· ≠ '#')) := (mem_trimBy rfl).mpr signed
  have some : trim (raw.takeWhile (· ≠ '#')) ≠ [] := List.ne_nil_of_mem inside
  rw [Progress.readLine] at accepted
  simp only [if_neg some] at accepted
  split at accepted
  · exact absurd inside (header_plain accepted)
  · rw [splitOnce, if_pos inside] at accepted
    have allowed := setting_allowed accepted
    rw [trim_takeWhile signed] at allowed
    exact allowed

end Accepted

-----------------------------------------------------------------------------------------
-- What wg-quick reads
-----------------------------------------------------------------------------------------

section Read

variable {line mark returns : Text} {blank : Char → Bool}

theorem bare_around (plain : '#' ∉ line)
    : (line ++ returns).takeWhile (· ≠ '#') = line ++ returns.takeWhile (· ≠ '#')
      ∧ line.takeWhile (· ≠ '#') = line := by
  have all : ∀ char ∈ line, decide (char ≠ '#') = true := by
    intro char member
    rw [decide_eq_true_eq]
    intro same
    exact plain (same ▸ member)
  exact ⟨List.takeWhile_append_of_pos all, List.takeWhile_eq_self_iff.mpr all⟩

/-- What is around a line has no equals sign, and nothing that hides one. -/
theorem signed_of_around (before : ∀ char ∈ mark, char ≠ '=' ∧ char ≠ '#') (behind : '=' ∉ returns)
    (signed : '=' ∈ ((mark ++ (line ++ returns)).filter (· ≠ '\x00')).takeWhile (· ≠ '#'))
    : '=' ∈ line.takeWhile (· ≠ '#') := by
  have passed : ∀ char ∈ mark, decide (char ≠ '#') = true :=
    fun char member => decide_eq_true (before char member).2
  rw [takeWhile_filter_of_passed (by simp), List.takeWhile_append_of_pos passed] at signed
  have inside : '=' ∈ (line ++ returns).takeWhile (· ≠ '#') := by
    rcases List.mem_append.mp (List.mem_of_mem_filter signed) with front | rest
    · exact absurd rfl (before '=' front).1
    · exact rest
  by_cases comment : '#' ∈ line
  · rw [takeWhile_append_of_mem comment (by simp)] at inside
    exact inside
  · obtain ⟨_, bare⟩ := @bare_around line returns comment
    rw [bare]
    rcases List.mem_append.mp ((List.takeWhile_prefix _).subset inside) with there | after
    · exact there
    · exact absurd after behind

/-- The key that wg-quick reads of a line is the one that was checked. -/
theorem keyOf_around (signed : '=' ∈ line.takeWhile (· ≠ '#'))
    (readable : '\x00' ∉ (line.takeWhile (· ≠ '#')).takeWhile (· ≠ '=')) {key : Text}
    (found : WgQuick.keyOf blank ((line ++ returns).filter (· ≠ '\x00')) = some key)
    : key = trimBy blank ((line.takeWhile (· ≠ '#')).takeWhile (· ≠ '=')) := by
  have cut : ((line ++ returns).takeWhile (· ≠ '#')).takeWhile (· ≠ '=')
      = (line.takeWhile (· ≠ '#')).takeWhile (· ≠ '=') := by
    by_cases comment : '#' ∈ line
    · rw [takeWhile_append_of_mem comment (by simp)]
    · obtain ⟨whole, bare⟩ := @bare_around line returns comment
      rw [bare] at signed
      rw [whole, bare, takeWhile_append_of_mem signed (by simp)]
  have kept : ((line.takeWhile (· ≠ '#')).takeWhile (· ≠ '=')).filter (· ≠ '\x00')
      = (line.takeWhile (· ≠ '#')).takeWhile (· ≠ '=') := by
    rw [List.filter_eq_self]
    intro char member
    rw [decide_eq_true_eq]
    intro same
    exact readable (same ▸ member)
  rw [WgQuick.keyOf] at found
  split at found
  · cases found
    rw [takeWhile_filter_of_passed (by simp), takeWhile_filter_of_passed (by simp), cut, kept]
  · cases found

end Read

-----------------------------------------------------------------------------------------
-- The stored file
-----------------------------------------------------------------------------------------

section Stored

variable {publicKeyFromPrivate : Text → Option Text} {text name : Text} {profile : DirectProfile}
  {blank : Char → Bool}

/-- What the check removes from the end of a line. -/
theorem dropReturn_split (line : Text)
    : ∃ returns, line = dropReturn line ++ returns ∧ '=' ∉ returns := by
  unfold dropReturn
  split
  · next last =>
      exact ⟨['\r'], (List.dropLast_append_getLast? _ last).symm, by decide⟩
  · exact ⟨[], (List.append_nil line).symm, by simp⟩

theorem dropReturns_split (line : Text)
    : ∃ returns, line = dropReturn (dropReturn line) ++ returns ∧ '=' ∉ returns := by
  obtain ⟨outer, split, behind⟩ := dropReturn_split line
  obtain ⟨inner, again, within⟩ := dropReturn_split (dropReturn line)
  refine ⟨inner ++ outer, ?_, by simp [behind, within]⟩
  rw [← List.append_assoc, ← again]
  exact split

theorem dropMark_split (line : Text)
    : ∃ mark, line = mark ++ dropMark line ∧ ∀ char ∈ mark, char ≠ '=' ∧ char ≠ '#' := by
  unfold dropMark
  split
  · next first =>
      cases line with
      | nil => cases first
      | cons char rest =>
          cases first
          exact ⟨[byteOrderMark], rfl, by simp [byteOrderMark]⟩
  · exact ⟨[], rfl, by simp⟩

/-- An allowed key has no NUL and is no command. -/
theorem keys_plain {inSection : Section} {key : Text} (allowed : key ∈ inSection.keys)
    : '\x00' ∉ key := by
  cases inSection with
  | none => cases allowed
  | interface => exact (by decide +kernel : ∀ key ∈ interfaceKeys, '\x00' ∉ key) key allowed
  | peer => exact (by decide +kernel : ∀ key ∈ peerKeys, '\x00' ∉ key) key allowed

theorem hookKeys_visible : ∀ key ∈ hookKeys, ∀ char ∈ key, isWhitespace char = false := by
  have all : hookKeys.all (fun key => key.all (fun char => !isWhitespace char)) = true := by
    decide +kernel
  intro key hook char inside
  exact Bool.not_eq_true' _ |>.mp (List.all_eq_true.mp (List.all_eq_true.mp all key hook) char inside)

theorem toLower_of_white {char : Char} (white : isWhitespace char = true)
    : char.toLower = char := by
  by_cases low : char.toNat < 0x80
  · exact @Dns.ascii_forall (fun char => isWhitespace char = true → char.toLower = char)
      (by decide +kernel) char low white
  · exact Dns.toLower_of_high (by omega)

/-- A name of a command has no blanks around it. -/
theorem hook_trimmed {key : Text} (hook : toAsciiLowercase key ∈ hookKeys) : trim key = key := by
  have visible : ∀ char ∈ key, isWhitespace char = false := by
    intro char member
    cases white : isWhitespace char with
    | false => rfl
    | true =>
        have lowered := hookKeys_visible _ hook char.toLower (List.mem_map_of_mem member)
        rw [toLower_of_white white, white] at lowered
        cases lowered
  exact trimBy_of_trimmed ⟨fun char first => visible char (List.mem_of_head? first),
    fun char last => visible char (List.mem_of_getLast? last)⟩

/-- A line that was checked, with what normalising it took away around it. -/
theorem allowed_of_checked {progress next : Progress} {lineNo : Nat} {line mark returns key : Text}
    (before : ∀ char ∈ mark, char ≠ '=' ∧ char ≠ '#') (behind : '=' ∉ returns)
    (white : ∀ char, blank char = true → isWhitespace char = true)
    (checked : progress.readLine publicKeyFromPrivate lineNo line = .ok next)
    (unmarked : progress.inSection ≠ .none → mark = [])
    (found : WgQuick.keyOf blank ((mark ++ (line ++ returns)).filter (· ≠ '\x00')) = some key)
    : toAsciiLowercase (trim key) ∈ progress.inSection.keys ∧ toAsciiLowercase key ∉ hookKeys := by
  have signed : '=' ∈ line.takeWhile (· ≠ '#') := by
    refine signed_of_around before behind ?_
    by_contra unsigned
    rw [WgQuick.keyOf, if_neg unsigned] at found
    cases found
  obtain ⟨allowed, harmless⟩ := readLine_key checked signed
  have inside : progress.inSection ≠ .none := by
    intro outside
    rw [outside] at allowed
    cases allowed
  rw [unmarked inside, List.nil_append] at found
  have readable : '\x00' ∉ (line.takeWhile (· ≠ '#')).takeWhile (· ≠ '=') := by
    intro member
    have visible : isWhitespace '\x00' = false := by decide
    have kept := (mem_trimBy visible).mpr member
    exact keys_plain allowed (List.mem_map.mpr ⟨'\x00', kept, rfl⟩)
  rw [keyOf_around signed readable found]
  have same : trim (trimBy blank ((line.takeWhile (· ≠ '#')).takeWhile (· ≠ '=')))
      = trim ((line.takeWhile (· ≠ '#')).takeWhile (· ≠ '=')) :=
    trimBy_trimBy white
  refine ⟨by rw [same]; exact allowed, ?_⟩
  intro hook
  rw [← hook_trimmed hook, same] at hook
  exact harmless hook

/-- Where the check is in a text when it has read some lines of it. -/
def checkedUpTo (publicKeyFromPrivate : Text → Option Text) (text name : Text) (count : Nat)
    : Except Text Progress :=
  Progress.readLines publicKeyFromPrivate (.start name) 1 ((lines (normalise text)).take count)

theorem read_of_validate (valid : validate publicKeyFromPrivate text name = .ok profile)
    : ∃ progress, Progress.readLines publicKeyFromPrivate (.start name) 1 (lines (normalise text))
        = .ok progress := by
  rw [validate] at valid
  cases read : Progress.readLines publicKeyFromPrivate (.start name) 1 (lines (normalise text)) with
  | error message =>
      simp only [read] at valid
      cases valid
  | ok progress => exact ⟨progress, rfl⟩

/-- Each key in the lines of a normalised text that passes the check is allowed where it stands. -/
theorem stored_keys_allowed (white : ∀ char, blank char = true → isWhitespace char = true)
    (valid : validate publicKeyFromPrivate (normalise text) name = .ok profile) {index : Nat}
    {line key : Text} (there : (WgQuick.linesOf (normalise text))[index]? = some line)
    (found : WgQuick.keyOf blank line = some key)
    : ∃ progress, checkedUpTo publicKeyFromPrivate (normalise text) name index = .ok progress
        ∧ toAsciiLowercase (trim key) ∈ progress.inSection.keys
        ∧ toAsciiLowercase key ∉ hookKeys := by
  obtain ⟨first, rest, whole, same, _⟩ := normalise_eq text
  obtain ⟨done, accepted⟩ := read_of_validate valid
  unfold checkedUpTo
  rw [same] at there accepted ⊢
  rw [WgQuick.linesOf, splitOn_endLines whole, List.getElem?_map] at there
  rw [lines_normalise whole] at accepted ⊢
  obtain ⟨raw, stands, rfl⟩ := Option.map_eq_some_iff.mp there
  cases index with
  | zero =>
      cases stands
      obtain ⟨mark, marked, before⟩ := dropMark_split first
      obtain ⟨returns, ended, behind⟩ := dropReturns_split (dropMark first)
      obtain ⟨progress, next, led, checked⟩ := @readLines_at _ _ _ _ _ _ 0 accepted rfl
      refine ⟨progress, led, allowed_of_checked before behind white checked ?_ ?_⟩
      · intro inside
        cases led
        exact absurd rfl inside
      · rw [← ended, ← marked]
        exact found
  | succ index =>
      rw [List.cons_append, List.getElem?_cons_succ] at stands
      rcases Nat.lt_or_ge index rest.length with early | late
      · rw [List.getElem?_append_left early] at stands
        obtain ⟨returns, ended, behind⟩ := dropReturns_split raw
        have reads : ((dropMark first :: rest).map (fun line => dropReturn (dropReturn line)))[index + 1]?
            = some (dropReturn (dropReturn raw)) := by
          rw [List.getElem?_map, List.getElem?_cons_succ, stands]
          rfl
        obtain ⟨progress, next, led, checked⟩ := readLines_at accepted reads
        refine ⟨progress, led, @allowed_of_checked _ _ _ _ _ _ [] returns _ (by simp) behind white checked
          (fun _ => rfl) ?_⟩
        rw [← ended]
        exact found
      · rw [List.getElem?_append_right late, List.getElem?_singleton] at stands
        split at stands
        · cases stands
          simp [WgQuick.keyOf] at found
        · cases stands

end Stored

/-- In the file that an import stores, wg-quick sees only settings that the import allows in the section
that they stand in, and no command. This holds whatever blanks wg-quick trims off a key; if it trims all
of them, the key itself is a setting.
-/
theorem imported_keys_allowed (publicKeyFromPrivate : Text → Option Text) (data : DataDir)
    (state : AgentState) (text name : Text) (profile : DirectProfile) (data' : DataDir)
    (state' : AgentState)
    (accepted : importIn publicKeyFromPrivate data state text name = (.ok profile, data', state'))
    (blank : Char → Bool) (white : ∀ char, blank char = true → isWhitespace char = true)
    : ∃ stored, data'.read (confStem (trim name)) = some stored
        ∧ ∀ (index : Nat) line key, (WgQuick.linesOf stored)[index]? = some line
          → WgQuick.keyOf blank line = some key
          → ∃ progress, checkedUpTo publicKeyFromPrivate stored (trim name) index = .ok progress
              ∧ toAsciiLowercase (trim key) ∈ progress.inSection.keys
              ∧ toAsciiLowercase key ∉ hookKeys
              ∧ ((∀ char, isWhitespace char = true → blank char = true)
                → toAsciiLowercase key ∈ progress.inSection.keys) := by
  rcases importIn_cases with ⟨message, refused⟩ | ⟨_, _, _, did, imported⟩
  · rw [accepted] at refused
    cases refused
  · rw [accepted] at did
    cases did
    refine ⟨normalise text, ?_, ?_⟩
    · rw [imported.stored, DataDir.read_write, if_pos rfl]
    · intro index line key there found
      obtain ⟨progress, led, allowed, harmless⟩ :=
        stored_keys_allowed white imported.valid there found
      refine ⟨progress, led, allowed, harmless, ?_⟩
      intro wide
      have trimmed : trim key = key := by
        rw [WgQuick.keyOf] at found
        split at found
        · cases found
          have same : blank = isWhitespace :=
            funext (fun char => Bool.eq_iff_iff.mpr ⟨white char, wide char⟩)
          rw [same]
          exact trimBy_idem
        · cases found
      rwa [trimmed] at allowed

/-- The first key of a small config, imported into an empty library. -/
theorem imported_keys_allowed_small
    : ∃ stored, (importIn quickStartPair (.empty true) .default smallConfig ['x']).2.1.read
          (confStem ['x']) = some stored
        ∧ ∀ (index : Nat) line key, (WgQuick.linesOf stored)[index]? = some line
          → WgQuick.keyOf isWhitespace line = some key → toAsciiLowercase key ∉ hookKeys := by
  have accepted : importIn quickStartPair (.empty true) .default smallConfig ['x']
      = (.ok (smallProfile ['x']), (importIn quickStartPair (.empty true) .default smallConfig ['x']).2) :=
    rfl
  obtain ⟨stored, kept, allowed⟩ := imported_keys_allowed quickStartPair (.empty true) .default
    smallConfig ['x'] _ _ _ accepted isWhitespace (fun _ white => white)
  refine ⟨stored, kept, ?_⟩
  intro index line key there found
  obtain ⟨_, _, _, harmless, _⟩ := allowed index line key there found
  exact harmless

end WslVpn.Agent
