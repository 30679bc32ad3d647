import WslVpn.Agent.WindowsPlan
import WslVpn.Agent.Properties.PowerShellQuoting

/-! The script of the steps reaches the elevated PowerShell as it is, whether that is the first one or
one that is started by it.
-/

namespace WslVpn.Agent

open Dns (Text)
open Reading PowerShell TunnelWindows

variable {word rest : Text} {words : List Text}

/-- Nothing in the word means anything to PowerShell's strings, to its lists or to a command line.
-/
def Inert (word : Text) : Prop :=
  ∀ char ∈ word, isSingleQuote char = false ∧ char ≠ ' ' ∧ char ≠ '\t' ∧ char ≠ '"'

instance (word : Text) : Decidable (Inert word) :=
  decidable_of_iff _ List.all_iff_forall_prop

/-- The characters of base64 mean nothing. -/
theorem inert_encode (script : Text) : Inert (encode script) := by
  refine Base64.Coding.forall_mem_encode ?_
  decide +kernel

theorem decodeCommand_encode (script : Text) : decodeCommand (encode script) = some script := by
  rw [decodeCommand, encode, Base64.Coding.decode_encode, Option.bind_some,
    Utf16.fromLittleEndian_bytes, Option.bind_some, Utf16.decode_units]

-----------------------------------------------------------------------------------------
-- The list of arguments
-----------------------------------------------------------------------------------------

/-- A string without quotes ends at the first one, by induction on the string. -/
theorem readString_inert {next : Char} (inert : Inert word) (plain : isSingleQuote next = false)
    : readString (word ++ '\x27' :: next :: rest) = some (word, next :: rest) := by
  induction word with
  | nil => exact readString_closes rfl plain
  | cons char word ih =>
      obtain ⟨here, others⟩ := List.forall_mem_cons.mp inert
      rw [List.cons_append, readString_plain here.1, ih others]
      rfl

theorem readItem_quoted {next : Char} (inert : Inert word) (plain : isSingleQuote next = false)
    : readItem (quoted word ++ next :: rest) = some (word, next :: rest) := by
  have text : quoted word ++ next :: rest = '\x27' :: (word ++ '\x27' :: next :: rest) := by
    simp [quoted]
  rw [text, readItem, if_pos (show isSingleQuote '\x27' = true from rfl),
    readString_inert inert plain]

theorem readNext_quoted {next : Char} (inert : Inert word) (plain : isSingleQuote next = false)
    : readNext (',' :: (quoted word ++ next :: rest)) = some (word, next :: rest) := by
  rw [readNext, show ',' :: (quoted word ++ next :: rest) = [','] ++ (quoted word ++ next :: rest)
    from rfl, Dns.stripStart_append, Option.bind_some, readItem_quoted inert plain]

/-- Further strings of a list, each behind its comma. -/
def further (words : List Text) : Text := words.flatMap (fun word => ',' :: quoted word)

/-- Behind a string of the list stands a comma or the blank that ends the list. -/
theorem further_opens (words : List Text)
    : ∃ next rest, further words ++ andWait = next :: rest ∧ isSingleQuote next = false := by
  cases words with
  | nil => exact ⟨' ', _, rfl, rfl⟩
  | cons word words => exact ⟨',', _, rfl, rfl⟩

/-- The strings of a list are read back, by induction on them. -/
theorem further_written (inert : ∀ word ∈ words, Inert word)
    : Written readNext listEnds words (further words ++ andWait) andWait := by
  induction words with
  | nil => exact .stop rfl
  | cons word words ih =>
      obtain ⟨here, others⟩ := List.forall_mem_cons.mp inert
      obtain ⟨next, rest, opens, plain⟩ := further_opens words
      have text : further (word :: words) ++ andWait = ',' :: (quoted word ++ next :: rest) := by
        simp [further, ← opens]
      rw [text]
      refine .next rfl (readNext_quoted here plain) ?_
      rw [← opens]
      exact ih others

theorem readString_of_next {text : Text} (read : readNext text = some (word, rest))
    : ∃ quote body, text = ',' :: quote :: body ∧ readString body = some (word, rest) := by
  obtain ⟨inner, opened, item⟩ := Option.bind_eq_some_iff.mp read
  rw [Dns.stripStart_some opened]
  cases inner with
  | nil => cases item
  | cons quote body =>
      rw [readItem] at item
      split at item
      · exact ⟨quote, body, rfl, item⟩
      · cases item

theorem readNext_shrinks : Shrinks readNext := by
  intro text value rest read
  obtain ⟨quote, body, rfl, string⟩ := readString_of_next read
  have shorter := readString_shrinks _ _ _ string
  simp only [List.length_cons]
  omega

/-- The arguments in the command are the ones that were put there. -/
theorem startedWith_command (inert : ∀ other ∈ word :: words, Inert other)
    : startedWith (startProcess ++ join [','] ((word :: words).map quoted) ++ andWait)
      = some (word :: words) := by
  obtain ⟨here, others⟩ := List.forall_mem_cons.mp inert
  obtain ⟨next, rest, opens, plain⟩ := further_opens words
  have list : join [','] ((word :: words).map quoted) = quoted word ++ further words := by
    rw [List.map_cons, join_eq_flatMap, List.flatMap_map]
    rfl
  have text : startProcess ++ join [','] ((word :: words).map quoted) ++ andWait
      = startProcess ++ (quoted word ++ next :: rest) := by
    rw [list, List.append_assoc, List.append_assoc, opens]
  have later : many readNext listEnds (next :: rest) = some (words, andWait) := by
    rw [← opens]
    exact (many_eq_some readNext_shrinks).mpr (further_written others)
  rw [text]
  simp only [startedWith, Dns.stripStart_append, Option.bind_eq_bind, Option.bind_some,
    readItem_quoted here plain, later, if_true]

-----------------------------------------------------------------------------------------
-- The command line
-----------------------------------------------------------------------------------------

/-- What ends a word of a command line. -/
def isBlankChar (char : Char) : Bool := char = ' ' || char = '\t'

theorem Inert.not_blank (inert : Inert word) : ∀ char ∈ word, isBlankChar char = false := by
  intro char member
  obtain ⟨_, space, tab, _⟩ := inert char member
  simp [isBlankChar, space, tab]

/-- Words that blanks keep apart are found again, by induction on them. -/
theorem splitOnP_join (some : words ≠ []) (inert : ∀ other ∈ words, Inert other)
    : (join [' '] words).splitOnP isBlankChar = words := by
  induction words with
  | nil => exact absurd rfl some
  | cons word words ih =>
      obtain ⟨here, others⟩ := List.forall_mem_cons.mp inert
      cases words with
      | nil =>
          have alone : join [' '] [word] = word := by simp [join, List.intercalate]
          rw [alone, List.splitOnP_eq_singleton here.not_blank]
      | cons next words =>
          have opens : join [' '] (word :: next :: words)
              = word ++ ' ' :: join [' '] (next :: words) := by
            rw [join_cons (List.cons_ne_nil _ _), List.append_assoc]
            rfl
          rw [opens, List.splitOnP_append_cons_of_forall_mem here.not_blank ' ' rfl,
            ih (List.cons_ne_nil _ _) others]

theorem argvOf_join (more : words ≠ []) (inert : ∀ other ∈ words, Inert other)
    (some : ∀ other ∈ words, other ≠ [])
    : argvOf (join [' '] words) = .some words := by
  have unquoted : '"' ∉ join [' '] words := by
    intro inside
    rcases mem_join inside with between | ⟨part, member, there⟩
    · simp at between
    · exact (inert part member '"' there).2.2.2 rfl
  have parts := splitOnP_join more inert
  have whole : words.filter (· ≠ []) = words := by
    refine List.filter_eq_self.mpr ?_
    intro other member
    exact decide_eq_true (some other member)
  rw [argvOf, if_neg unquoted]
  change Option.some (((join [' '] words).splitOnP isBlankChar).filter (· ≠ [])) = _
  rw [parts, whole]

-----------------------------------------------------------------------------------------
-- The plan
-----------------------------------------------------------------------------------------

/-- The arguments of the PowerShell that runs the script. -/
def scriptArgs (script : Text) : List Text := base ++ ["-EncodedCommand".toList, encode script]

theorem source_scriptArgs (script : Text) : source (scriptArgs script) = some script :=
  (rfl : source (scriptArgs script) = decodeCommand (encode script)).trans (decodeCommand_encode script)

theorem source_command (command : Text)
    : source (base ++ ["-Command".toList, command]) = some command := by
  have joined : join [' '] [command] = command := by simp [join, List.intercalate]
  exact (rfl : source (base ++ ["-Command".toList, command]) = some (join [' '] [command])).trans
    (congrArg some joined)

/-- The command of a process that is not elevated has the arguments of the one that is. -/
theorem plan_false (steps : List Step)
    : (TunnelWindows.plan steps false).2
      = base ++ ["-Command".toList,
        startProcess ++ join [','] ((scriptArgs (script steps)).map quoted) ++ andWait] := by
  simp only [TunnelWindows.plan, Bool.false_eq_true, if_false, scriptArgs, List.map_append,
    List.map_cons, List.map_nil]

theorem inert_scriptArgs (script : Text)
    : ∀ other ∈ scriptArgs script, Inert other := by
  have fixed : ∀ other ∈ base ++ ["-EncodedCommand".toList], Inert other := by
    decide +kernel
  intro other member
  rw [scriptArgs, List.append_cons] at member
  rcases List.mem_append.mp member with known | code
  · exact fixed other known
  · rw [List.mem_singleton.mp code]
    exact inert_encode script

theorem encode_ne_nil {script : Text} (some : script ≠ []) : encode script ≠ [] := by
  intro none
  have decoded := decodeCommand_encode script
  rw [none] at decoded
  exact some (Option.some.inj decoded).symm

theorem script_ne_nil (steps : List Step) : script steps ≠ [] := by
  rw [script, List.append_assoc, List.singleton_append, join_eq_flatMap]
  exact List.append_ne_nil_of_left_ne_nil (by decide +kernel) _

theorem scriptArgs_ne_nil (steps : List Step)
    : ∀ other ∈ scriptArgs (script steps), other ≠ [] := by
  have fixed : ∀ other ∈ base ++ ["-EncodedCommand".toList], other ≠ [] := by decide +kernel
  intro other member
  rw [scriptArgs, List.append_cons] at member
  rcases List.mem_append.mp member with known | code
  · exact fixed other known
  · rw [List.mem_singleton.mp code]
    exact encode_ne_nil (script_ne_nil steps)

/-- The arguments come through the command line. -/
theorem argvOf_scriptArgs (steps : List Step)
    : argvOf (join [' '] (scriptArgs (script steps))) = some (scriptArgs (script steps)) := by
  have more : scriptArgs (script steps) ≠ [] :=
    List.append_ne_nil_of_left_ne_nil (by decide) _
  exact argvOf_join more (inert_scriptArgs _) (scriptArgs_ne_nil steps)

/-- Whether or not this process is elevated, what runs elevated is the script of the steps, to the
character.
-/
theorem runElevated_plan (steps : List Step) (elevated : Bool)
    : (TunnelWindows.plan steps elevated).1 = powershell
      ∧ runElevated elevated (TunnelWindows.plan steps elevated).2 = some (script steps) := by
  refine ⟨by cases elevated <;> rfl, ?_⟩
  have reads := source_scriptArgs (script steps)
  cases elevated with
  | true =>
      change (source (scriptArgs (script steps))).bind some = _
      rw [reads]
      rfl
  | false =>
      have inner : startedWith (startProcess ++ join [','] ((scriptArgs (script steps)).map quoted)
          ++ andWait) = some (scriptArgs (script steps)) :=
        startedWith_command (inert_scriptArgs _)
      rw [runElevated, plan_false, source_command]
      simp only [Option.bind_eq_bind, Option.bind_some, Bool.false_eq_true, if_false, inner,
        argvOf_scriptArgs, reads]

end WslVpn.Agent
