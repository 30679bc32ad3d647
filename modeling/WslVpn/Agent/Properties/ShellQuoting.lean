import WslVpn.Agent.Shell

/-! The command line that runs steps with privilege, as the shell reads it in the end: the words that were
meant, whatever characters they are made of.
-/

namespace WslVpn.Agent

open Dns (Text stripStart)
open Reading Shell

/-- The runs of the steps in their order, up to the first that fails. -/
def performed (succeeds : List Run → Bool) (path : Text) : List Run → List Step → List Run
  | done, [] => done
  | done, step :: steps =>
      let done := done ++ [⟨some path, step.argv⟩]
      if succeeds done then performed succeeds path done steps else done

/-- Behind the word the line ends, or something stands that ends a word. -/
def Closes (follow : Text) : Prop :=
  follow = [] ∨ ∃ char rest, follow = char :: rest ∧ (isBlank char || char = '&') = true

/-- The shell reads the text as the word. -/
structure Encodes (word text : Text) : Prop where
  opens : ∃ char rest, text = char :: rest ∧ isBlank char = false ∧ char ≠ '&'
  read : ∀ follow, Closes follow → readRest false (text ++ follow) = some (word, follow)

-----------------------------------------------------------------------------------------
-- One word
-----------------------------------------------------------------------------------------

section Word

variable {word text follow : Text}

theorem readRest_opens : readRest false ('\x27' :: follow) = readRest true follow := by
  rw [readRest.eq_def]
  rfl

/-- Characters that need no quotes, by induction on them. -/
theorem readRest_plain {plain : Text}
    (alone : ∀ char ∈ plain, (isPlain char && !(isBlank char || char = '&' || char = '\x27'))
      = true)
    : readRest false (plain ++ follow)
      = (readRest false follow).map (fun (rest, left) => (plain ++ rest, left)) := by
  induction plain with
  | nil => simp
  | cons char plain ih =>
      have first := alone char List.mem_cons_self
      simp only [Bool.and_eq_true, Bool.not_eq_true', Bool.or_eq_false_iff, decide_eq_false_iff_not]
        at first
      rw [List.cons_append, readRest.eq_def]
      simp [first, ih (fun other member => alone other (List.mem_cons_of_mem _ member)),
        Function.comp_def]

theorem readRest_closes (closes : Closes follow) : readRest false follow = some ([], follow) := by
  rcases closes with rfl | ⟨char, rest, rfl, ends⟩
  · rfl
  · have other : char ≠ '\x27' := by
      intro same
      subst same
      cases ends
    rw [readRest.eq_def]
    simp only [other, if_false, ends, if_true]

/-- The text of a word between its quotes, and what comes behind it. -/
def shellTail (word follow : Text) : Text := replace '\x27' word "'\\''".toList ++ '\x27' :: follow

/-- An apostrophe is spliced in: out of the quotes, an escaped one, and in again. -/
theorem shellTail_quote
    : shellTail ('\x27' :: word) follow
      = '\x27' :: '\\' :: '\x27' :: '\x27' :: shellTail word follow :=
  rfl

theorem shellTail_other {char : Char} (other : char ≠ '\x27')
    : shellTail (char :: word) follow = char :: shellTail word follow := by
  simp [shellTail, replace, other]

theorem readRest_spliced
    : readRest true ('\x27' :: '\\' :: '\x27' :: '\x27' :: follow)
      = (readRest true follow).map (fun (rest, left) => ('\x27' :: rest, left)) := by
  rw [readRest, if_pos rfl, readRest]
  simp [isBlank, isPlain, readRest_opens]

theorem readRest_literal {char : Char} (other : char ≠ '\x27')
    : readRest true (char :: follow)
      = (readRest true follow).map (fun (rest, left) => (char :: rest, left)) := by
  simp [readRest, other]

/-- Inside the quotes the word is taken literally, by induction on it. -/
theorem readRest_shellTail
    : readRest true (shellTail word follow)
      = (readRest false follow).map (fun (rest, left) => (word ++ rest, left)) := by
  induction word with
  | nil => simp [shellTail, replace, readRest]
  | cons char word ih =>
      by_cases quote : char = '\x27'
      · subst quote
        rw [shellTail_quote, readRest_spliced, ih, Option.map_map]
        rfl
      · rw [shellTail_other quote, readRest_literal quote, ih, Option.map_map]
        rfl

theorem readRest_shellQuote
    : readRest false (shellQuote word ++ follow)
      = (readRest false follow).map (fun (rest, left) => (word ++ rest, left)) := by
  have text : shellQuote word ++ follow = '\x27' :: shellTail word follow := by
    simp [shellQuote, shellTail]
  rw [text, readRest_opens, readRest_shellTail]

theorem encodes_shellQuote : Encodes word (shellQuote word) where
  opens := ⟨'\x27', _, rfl, rfl, by decide⟩
  read := by
    intro follow closes
    rw [readRest_shellQuote, readRest_closes closes]
    simp

/-- The word that is exported. -/
theorem encodes_path : Encodes ("PATH=".toList ++ word) ("PATH=".toList ++ shellQuote word) where
  opens := ⟨'P', _, rfl, rfl, by decide⟩
  read := by
    intro follow closes
    rw [List.append_assoc, readRest_plain (List.all_eq_true.mp (by decide)), encodes_shellQuote.read follow closes]
    rfl

theorem encodes_export : Encodes "export".toList "export".toList where
  opens := ⟨'e', _, rfl, rfl, by decide⟩
  read := by
    intro follow closes
    rw [readRest_plain (List.all_eq_true.mp (by decide)), readRest_closes closes]
    rfl

/-- Behind blanks the word begins. -/
theorem opens_behind {blanks : Text} (skipped : ∀ char ∈ blanks, isBlank char = true)
    (encodes : Encodes word text)
    : ∃ char rest, (blanks ++ (text ++ follow)).dropWhile isBlank = char :: rest ∧ char ≠ '&'
      ∧ char :: rest = text ++ follow := by
  obtain ⟨char, rest, rfl, visible, other⟩ := encodes.opens
  refine ⟨char, rest ++ follow, ?_, other, rfl⟩
  rw [List.dropWhile_append_of_pos skipped, List.cons_append, List.dropWhile_cons_of_neg]
  simp [visible]

theorem readWord_encoded {blanks : Text} (skipped : ∀ char ∈ blanks, isBlank char = true)
    (encodes : Encodes word text) (closes : Closes follow)
    : readWord (blanks ++ (text ++ follow)) = some (word, follow) := by
  obtain ⟨char, rest, opens, other, same⟩ := @opens_behind _ _ follow _ skipped encodes
  rw [readWord, opens]
  simp only [other, if_false]
  rw [same, encodes.read follow closes]

theorem not_commandEnds {blanks : Text} (skipped : ∀ char ∈ blanks, isBlank char = true)
    (encodes : Encodes word text)
    : commandEnds (blanks ++ (text ++ follow)) = false := by
  obtain ⟨char, rest, opens, other, _⟩ := @opens_behind _ _ follow _ skipped encodes
  rw [commandEnds, opens]
  simp [List.isPrefixOf, Ne.symm other]

/-- The rest of a word takes something, unless the word has ended. -/
theorem readRest_takes {inside : Bool} {rest : Text}
    (read : readRest inside text = some (word, rest))
    : rest.length < text.length ∨ (rest = text ∧ Closes text) := by
  have longer {more left : Text} (later : left.length < more.length ∨ (left = more ∧ Closes more))
      : left.length < more.length + 1 := by
    rcases later with shorter | ⟨rfl, _⟩ <;> omega
  fun_induction readRest inside text generalizing word
  case case1 => cases read
  case case2 more ih => exact Or.inl (longer (ih read))
  case case3 more _ ih =>
    obtain ⟨_, found, _⟩ := of_map_eq_some read
    exact Or.inl (longer (ih found))
  case case4 =>
    cases read
    exact Or.inr ⟨rfl, Or.inl rfl⟩
  case case5 more ih => exact Or.inl (longer (ih read))
  case case6 char more _ ends =>
    cases read
    exact Or.inr ⟨rfl, Or.inr ⟨char, more, rfl, ends⟩⟩
  case case7 more _ _ _ ih =>
    obtain ⟨_, found, _⟩ := of_map_eq_some read
    exact Or.inl (longer (ih found))
  case case8 => cases read
  case case9 => cases read
  case case10 more _ _ _ _ ih =>
    obtain ⟨_, found, _⟩ := of_map_eq_some read
    have shorter := longer (ih found)
    simp only [List.length_cons]
    omega
  case case11 => cases read

theorem shellWord_shrinks : Shrinks Shell.readWord := by
  intro text value rest read
  have fewer := (List.dropWhile_sublist (l := text) isBlank).length_le
  rw [Shell.readWord] at read
  cases opens : text.dropWhile isBlank with
  | nil => simp [opens] at read
  | cons char more =>
      rw [opens] at fewer
      by_cases ends : char = '&'
      · simp [opens, ends] at read
      · simp only [opens, ends, if_false] at read
        have visible := List.head_dropWhile_not isBlank (l := text) (by simp [opens])
        simp only [opens, List.head_cons] at visible
        rcases readRest_takes read with shorter | ⟨_, closes⟩
        · omega
        · rcases closes with nothing | ⟨other, _, same, stops⟩
          · cases nothing
          · cases same
            simp [visible, ends] at stops

end Word

-----------------------------------------------------------------------------------------
-- Commands
-----------------------------------------------------------------------------------------

section Commands

variable {blanks rest : Text}

/-- A command, as words with their texts. -/
abbrev Encoded := List (Text × Text)

/-- The words of a command are read, by induction on them. -/
theorem words_written {first : Text × Text} {others : Encoded}
    (skipped : ∀ char ∈ blanks, isBlank char = true)
    (encodes : ∀ word ∈ first :: others, Encodes word.1 word.2)
    (ends : commandEnds rest = true) (closes : Closes rest)
    : Written Shell.readWord commandEnds ((first :: others).map Prod.fst)
        (blanks ++ (join [' '] ((first :: others).map Prod.snd) ++ rest)) rest := by
  induction others generalizing first blanks with
  | nil =>
      have one := encodes first List.mem_cons_self
      have text : join [' '] ([first].map Prod.snd) = first.2 := by simp [join]
      rw [text]
      exact .next (not_commandEnds skipped one) (readWord_encoded skipped one closes) (.stop ends)
  | cons second others ih =>
      have one := encodes first List.mem_cons_self
      have text : join [' '] ((first :: second :: others).map Prod.snd) ++ rest
          = first.2 ++ ([' '] ++ (join [' '] ((second :: others).map Prod.snd) ++ rest)) := by
        rw [List.map_cons, join_cons (by simp)]
        simp
      rw [text, List.map_cons]
      refine .next (not_commandEnds skipped one)
        (readWord_encoded skipped one (Or.inr ⟨' ', _, rfl, rfl⟩)) ?_
      exact ih (by simp [isBlank]) (fun word member => encodes word (List.mem_cons_of_mem _ member))

/-- What can stand behind a command, and what is left of it for the next one. -/
def Follows (rest more : Text) : Prop :=
  (rest = [] ∧ more = [])
    ∨ ∃ word text follow, rest = " && ".toList ++ (text ++ follow) ∧ Encodes word text
      ∧ more = ' ' :: (text ++ follow)

theorem readCommand_encoded {first : Text × Text} {others : Encoded} {more : Text}
    (skipped : ∀ char ∈ blanks, isBlank char = true)
    (encodes : ∀ word ∈ first :: others, Encodes word.1 word.2) (follows : Follows rest more)
    : readCommand (blanks ++ (join [' '] ((first :: others).map Prod.snd) ++ rest))
      = some ((first :: others).map Prod.fst, more) := by
  have written {rest : Text} (ends : commandEnds rest = true) (closes : Closes rest) :=
    (many_eq_some shellWord_shrinks).mpr (words_written skipped encodes ends closes)
  rcases follows with ⟨rfl, rfl⟩ | ⟨word, text, follow, rfl, next, rfl⟩
  · rw [readCommand, written rfl (Or.inl rfl)]
    rfl
  · have found := @written (" && ".toList ++ (text ++ follow)) rfl (Or.inr ⟨' ', _, rfl, rfl⟩)
    obtain ⟨char, left, opens, _, _⟩ := @opens_behind _ _ follow [' '] (by simp [isBlank]) next
    have more : (" && ".toList ++ (text ++ follow)).dropWhile isBlank
        = "&&".toList ++ ([' '] ++ (text ++ follow)) := rfl
    rw [readCommand, found]
    simp only [Option.bind_eq_bind, Option.bind_some, more, Dns.stripStart_append, opens]
    simp

/-- The text of a command. -/
def commandText (command : Encoded) : Text := join [' '] (command.map Prod.snd)

/-- The command has words, and the shell reads their texts as them. -/
def Readable (command : Encoded) : Prop := command ≠ [] ∧ ∀ word ∈ command, Encodes word.1 word.2

theorem Readable.opens {command : Encoded} (readable : Readable command)
    : ∃ word text follow, Encodes word text ∧ commandText command = text ++ follow := by
  obtain ⟨first, others, rfl⟩ := List.exists_cons_of_ne_nil readable.1
  exact ⟨first.1, first.2, _, readable.2 first List.mem_cons_self, join_eq_flatMap⟩

theorem Readable.filled {command : Encoded} (readable : Readable command)
    : (blanks ++ (commandText command ++ rest)).isEmpty = false := by
  obtain ⟨word, text, follow, encodes, opens⟩ := readable.opens
  obtain ⟨char, more, rfl, _⟩ := encodes.opens
  simp [opens]

theorem readCommand_shrinks : Shrinks readCommand := by
  intro text value more read
  simp only [readCommand, Option.bind_eq_bind, Option.bind_eq_some_iff] at read
  obtain ⟨⟨words, rest⟩, found, taken⟩ := read
  have fewer := (written_of_upTo found).length_le shellWord_shrinks
  have behind := (List.dropWhile_sublist (l := rest) isBlank).length_le
  by_cases nothing : words = []
  · simp [nothing] at taken
  · have some := List.length_pos_of_ne_nil nothing
    simp only [nothing, if_false] at taken
    split_ifs at taken with ended
    · cases taken
      rw [List.length_nil]
      omega
    · obtain ⟨left, stripped, kept⟩ := Option.bind_eq_some_iff.mp taken
      rw [Dns.stripStart_some stripped, List.length_append] at behind
      split_ifs at kept
      cases kept
      omega

/-- The commands of a list are read, by induction on them. -/
theorem commands_written {first : Encoded} {others : List Encoded}
    (skipped : ∀ char ∈ blanks, isBlank char = true)
    (readable : ∀ command ∈ first :: others, Readable command)
    : Written readCommand List.isEmpty ((first :: others).map (·.map Prod.fst))
        (blanks ++ join " && ".toList ((first :: others).map commandText)) [] := by
  induction others generalizing first blanks with
  | nil =>
      have one := readable first List.mem_cons_self
      have text : join " && ".toList ([first].map commandText) = commandText first ++ [] := by
        simp [join]
      rw [text]
      obtain ⟨word, more, rfl⟩ := List.exists_cons_of_ne_nil one.1
      exact .next one.filled (readCommand_encoded skipped one.2 (Or.inl ⟨rfl, rfl⟩)) (.stop rfl)
  | cons second others ih =>
      have one := readable first List.mem_cons_self
      have later := @ih [' '] second (by simp [isBlank])
        (fun command member => readable command (List.mem_cons_of_mem _ member))
      have text : join " && ".toList ((first :: second :: others).map commandText)
          = commandText first
            ++ (" && ".toList ++ join " && ".toList ((second :: others).map commandText)) := by
        rw [List.map_cons, join_cons (by simp), List.append_assoc]
      rw [text, List.map_cons]
      obtain ⟨word, next, follow, encodes, opens⟩ := (readable second (by simp)).opens
      have behind : join " && ".toList ((second :: others).map commandText)
          = next ++ (follow ++ (others.map commandText).flatMap (" && ".toList ++ ·)) := by
        rw [List.map_cons, join_eq_flatMap, opens, List.append_assoc]
      rw [behind] at later ⊢
      obtain ⟨head, more, rfl⟩ := List.exists_cons_of_ne_nil one.1
      exact .next one.filled (readCommand_encoded skipped one.2
        (Or.inr ⟨word, next, _, rfl, encodes, rfl⟩)) later

/-- The shell reads the commands that were meant. -/
theorem readList_planScript (steps : List Step) (path : Text)
    : readList (planScript steps path)
      = some (["export".toList, "PATH=".toList ++ path] :: steps.map Step.argv) := by
  let exported : Encoded := [("export".toList, "export".toList),
    ("PATH=".toList ++ path, "PATH=".toList ++ shellQuote path)]
  let quoted (step : Step) : Encoded := step.argv.map (fun word => (word, shellQuote word))
  have readable : ∀ command ∈ exported :: steps.map quoted, Readable command := by
    intro command member
    rcases List.mem_cons.mp member with rfl | member
    · refine ⟨by simp [exported], ?_⟩
      intro word there
      rcases List.mem_pair.mp there with rfl | rfl
      · exact encodes_export
      · exact encodes_path
    · obtain ⟨step, _, rfl⟩ := List.mem_map.mp member
      refine ⟨by simp [quoted, Step.argv], ?_⟩
      intro word there
      obtain ⟨meant, _, rfl⟩ := List.mem_map.mp there
      exact encodes_shellQuote
  have text : planScript steps path
      = join " && ".toList ((exported :: steps.map quoted).map commandText) := by
    have shell (step : Step) : commandText (quoted step) = step.shell := by
      simp [commandText, quoted, Step.shell, Function.comp_def]
    have first : commandText exported = "export PATH=".toList ++ shellQuote path := by
      simp [commandText, exported, join]
    rw [planScript, List.map_cons, first, List.map_map]
    simp only [Function.comp_def, shell]
  have words : (exported :: steps.map quoted).map (·.map Prod.fst)
      = ["export".toList, "PATH=".toList ++ path] :: steps.map Step.argv := by
    simp [exported, quoted, Function.comp_def]
  have written := @commands_written [] _ _ (by simp) readable
  rw [List.nil_append] at written
  rw [readList, text, (many_eq_some readCommand_shrinks).mpr written, words]
  rfl

theorem runList_steps {succeeds : List Run → Bool} {steps : List Step} {path : Text}
    {done : List Run}
    (absolute : ∀ step ∈ steps, step.program.head? = some '/')
    : runList succeeds (some path) done (steps.map Step.argv)
      = some (performed succeeds path done steps) := by
  induction steps generalizing done with
  | nil => rfl
  | cons step steps ih =>
      have later {done : List Run} :=
        @ih done (fun other member => absolute other (List.mem_cons_of_mem _ member))
      have first : runList succeeds (some path) done (step.argv :: steps.map Step.argv)
          = if succeeds (done ++ [⟨some path, step.argv⟩]) then
              runList succeeds (some path) (done ++ [⟨some path, step.argv⟩]) (steps.map Step.argv)
            else some (done ++ [⟨some path, step.argv⟩]) := by
        rw [Step.argv, runList.eq_def]
        exact if_pos (absolute step List.mem_cons_self)
      rw [List.map_cons, first, performed]
      by_cases succeeded : succeeds (done ++ [⟨some path, step.argv⟩]) = true
      · rw [if_pos succeeded, later, if_pos succeeded]
      · rw [if_neg succeeded, if_neg succeeded]

end Commands

-----------------------------------------------------------------------------------------
-- Delivery
-----------------------------------------------------------------------------------------

section Delivery

variable {text follow : Text}

theorem applescriptQuote_cons (char : Char)
    : applescriptQuote (char :: text)
      = (if char = '\\' then ['\\', '\\'] else if char = '\x22' then ['\\', '\x22'] else [char])
        ++ applescriptQuote text := by
  by_cases backslash : char = '\\'
  · subst backslash
    rfl
  · by_cases quote : char = '\x22'
    · subst quote
      rfl
    · simp [applescriptQuote, replace, backslash, quote]

theorem readLiteral_escaped {char : Char} (escaped : char = '\\' ∨ char = '\x22')
    : readLiteral ('\\' :: char :: follow)
      = (readLiteral follow).map (fun (text, left) => (char :: text, left)) := by
  rw [readLiteral.eq_def]
  simp [escaped]

theorem readLiteral_other {char : Char} (backslash : char ≠ '\\') (quote : char ≠ '\x22')
    : readLiteral (char :: follow)
      = (readLiteral follow).map (fun (text, left) => (char :: text, left)) := by
  rw [readLiteral.eq_def]
  simp [backslash, quote]

/-- The literal is read as the text that was escaped, by induction on it. -/
theorem readLiteral_applescriptQuote
    : readLiteral (applescriptQuote text ++ '\x22' :: follow) = some (text, follow) := by
  induction text with
  | nil =>
      rw [readLiteral.eq_def]
      rfl
  | cons char text ih =>
      rw [applescriptQuote_cons]
      by_cases backslash : char = '\\'
      · rw [if_pos backslash, backslash]
        change readLiteral ('\\' :: '\\' :: (applescriptQuote text ++ '\x22' :: follow)) = _
        rw [readLiteral_escaped (Or.inl rfl), ih]
        rfl
      · by_cases quote : char = '\x22'
        · rw [if_neg backslash, if_pos quote, quote]
          change readLiteral ('\\' :: '\x22' :: (applescriptQuote text ++ '\x22' :: follow)) = _
          rw [readLiteral_escaped (Or.inr rfl), ih]
          rfl
        · rw [if_neg backslash, if_neg quote]
          change readLiteral (char :: (applescriptQuote text ++ '\x22' :: follow)) = _
          rw [readLiteral_other backslash quote, ih]
          rfl

/-- The escaped script is what the shell is given. -/
theorem doShellScript_quoted
    : doShellScript ("do shell script \x22".toList ++ applescriptQuote text
        ++ "\x22 with administrator privileges".toList) = some text := by
  have source : "do shell script \x22".toList ++ applescriptQuote text
        ++ "\x22 with administrator privileges".toList
      = "do shell script \x22".toList
        ++ (applescriptQuote text ++ '\x22' :: " with administrator privileges".toList) := by
    simp
  rw [source, doShellScript, Dns.stripStart_append, Option.bind_eq_bind, Option.bind_some,
    readLiteral_applescriptQuote, Option.bind_eq_bind, Option.bind_some]
  exact if_pos rfl

/-- No character comes in with the quoting but those of the quotes. -/
theorem mem_replace {char other : Char} {replacement : Text}
    (member : other ∈ replace char text replacement)
    : other ∈ text ∨ other ∈ replacement := by
  obtain ⟨from_, there, made⟩ := List.mem_flatMap.mp member
  split_ifs at made with same
  · exact Or.inr made
  · rw [List.mem_singleton] at made
    exact Or.inl (made ▸ there)

theorem nul_shellQuote (absent : '\x00' ∉ text) : '\x00' ∉ shellQuote text := by
  intro member
  have inside : '\x00' ∈ replace '\x27' text "'\\''".toList := by
    simpa [shellQuote] using member
  rcases mem_replace inside with there | new
  · exact absent there
  · exact absurd new (by decide)

theorem nul_applescriptQuote (absent : '\x00' ∉ text) : '\x00' ∉ applescriptQuote text := by
  intro member
  rcases mem_replace member with inside | new
  · rcases mem_replace inside with there | new
    · exact absent there
    · exact absurd new (by decide)
  · exact absurd new (by decide)

theorem nul_planScript {steps : List Step} {path : Text} (pathPassable : '\x00' ∉ path)
    (stepsPassable : ∀ step ∈ steps, ∀ word ∈ step.argv, '\x00' ∉ word)
    : '\x00' ∉ planScript steps path := by
  intro member
  rcases mem_join member with new | ⟨part, there, inside⟩
  · exact absurd new (by decide)
  · rcases List.mem_cons.mp there with rfl | there
    · rcases List.mem_append.mp inside with new | quoted
      · exact absurd new (by decide)
      · exact nul_shellQuote pathPassable quoted
    · obtain ⟨step, known, rfl⟩ := List.mem_map.mp there
      rcases mem_join inside with new | ⟨word, there, inside⟩
      · exact absurd new (by decide)
      · obtain ⟨meant, used, rfl⟩ := List.mem_map.mp there
        exact nul_shellQuote (stepsPassable step known meant used) inside

end Delivery

/-- Whatever the words are made of, and however the command line is escalated, the shell exports the path
and runs the steps as they are, up to the first that fails.
-/
theorem plan_runs_steps (steps : List Step) (path : Text) (privilege : Privilege) (hint : Text)
    (absolute : ∀ step ∈ steps, step.program.head? = some '/') (pathPassable : '\x00' ∉ path)
    (stepsPassable : ∀ step ∈ steps, ∀ word ∈ step.argv, '\x00' ∉ word)
    : match plan steps path privilege hint with
      | .error _ => privilege = .unavailable
      | .ok (program, args) =>
          programOf privilege = some program
          ∧ ∃ script, delivered privilege args = some script
            ∧ ∀ succeeds, sh succeeds script = some (performed succeeds path [] steps) := by
  have runs (succeeds : List Run → Bool)
      : sh succeeds (planScript steps path) = some (performed succeeds path [] steps) := by
    have export_ : "export".toList.head? ≠ some '/' := by decide
    rw [sh, readList_planScript, Option.bind_eq_bind, Option.bind_some, runList]
    simp only [export_, if_false, if_true, Dns.stripStart_append]
    exact runList_steps absolute
  have absent := nul_planScript pathPassable stepsPassable
  have shell : passable ["-c".toList, planScript steps path] = true := by
    rw [passable, List.all_eq_true]
    simp only [List.forall_mem_cons, decide_eq_true_eq]
    exact ⟨by decide, absent, by simp⟩
  have escalated : passable ["/bin/sh".toList, "-c".toList, planScript steps path] = true := by
    rw [passable, List.all_cons, ← passable, shell]
    rfl
  cases privilege with
  | direct =>
      refine ⟨rfl, planScript steps path, ?_, runs⟩
      change delivered .direct ["-c".toList, planScript steps path] = _
      rw [delivered, if_neg (by rw [shell]; decide)]
      exact if_pos rfl
  | viaSudo =>
      refine ⟨rfl, planScript steps path, ?_, runs⟩
      rw [delivered, if_neg (by rw [escalated]; decide)]
      exact if_pos ⟨rfl, rfl⟩
  | graphical escalator =>
      rw [plan]
      by_cases apple : fileName escalator = some "osascript".toList
      · simp only [apple, if_true]
        refine ⟨rfl, planScript steps path, ?_, runs⟩
        have source : '\x00' ∉ "do shell script \x22".toList ++ applescriptQuote
            (planScript steps path)
            ++ "\x22 with administrator privileges".toList := by
          rw [List.mem_append, List.mem_append, not_or, not_or]
          exact ⟨⟨by decide, nul_applescriptQuote absent⟩, by decide⟩
        have passes : passable ["-e".toList, "do shell script \x22".toList
            ++ applescriptQuote (planScript steps path)
            ++ "\x22 with administrator privileges".toList] = true := by
          rw [passable, List.all_eq_true]
          simp only [List.forall_mem_cons, decide_eq_true_eq]
          exact ⟨by decide, source, by simp⟩
        rw [delivered, if_neg (by rw [passes]; decide)]
        exact (if_pos ⟨apple, rfl⟩).trans doShellScript_quoted
      · simp only [apple, if_false]
        refine ⟨rfl, planScript steps path, ?_, runs⟩
        rw [delivered, if_neg (by rw [escalated]; decide)]
        exact if_pos ⟨apple, rfl, rfl⟩
  | unavailable => rfl

/-- A tunnel is restarted through the prompt of macOS. The config's path has a blank, both kinds of quotes
and a dollar sign.
-/
theorem plan_runs_steps_prompted
    : let conf := "/Jane O'Neil/\"$HOME\"/wsl.conf".toList
      let down : Step := ⟨"/usr/bin/wg-quick".toList, ["down".toList, conf]⟩
      let up : Step := ⟨"/usr/bin/wg-quick".toList, ["up".toList, conf]⟩
      let osascript : Privilege := .graphical "/usr/bin/osascript".toList
      ∃ args script,
        plan [down, up] "/usr/bin".toList osascript [] = .ok ("/usr/bin/osascript".toList, args)
        ∧ delivered osascript args = some script
        ∧ sh (fun _ => true) script
          = some [⟨some "/usr/bin".toList, down.argv⟩, ⟨some "/usr/bin".toList, up.argv⟩] := by
  intro conf down up osascript
  have planned : ∃ args, plan [down, up] "/usr/bin".toList osascript []
      = .ok ("/usr/bin/osascript".toList, args) := ⟨_, rfl⟩
  obtain ⟨args, planned⟩ := planned
  have ran := plan_runs_steps [down, up] "/usr/bin".toList osascript [] (by decide) (by decide)
    (by decide)
  rw [planned] at ran
  obtain ⟨_, script, sent, runs⟩ := ran
  exact ⟨args, script, planned, sent, runs (fun _ => true)⟩

end WslVpn.Agent
