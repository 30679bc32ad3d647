import WslVpn.Agent.TunnelWindows
import WslVpn.Agent.PowerShell

/-! The script for the elevated PowerShell, as PowerShell reads it: word for word what was meant, unless
a word has a typographic single quote.
-/

namespace WslVpn.Agent

open Dns (Text stripStart)
open Reading PowerShell TunnelWindows

/-- A single quote that the quoting does not double. -/
def isSmartQuote (char : Char) : Bool := isSingleQuote char && char ≠ '\x27'

/-- No typographic single quote is in the word. -/
def Unsmart (word : Text) : Prop := ∀ char ∈ word, isSmartQuote char = false

/-- No typographic single quote is in the program or an argument of the step. -/
def Step.Unsmart (step : Step) : Prop := ∀ word ∈ step.argv, Agent.Unsmart word

/-- The text of a word between its quotes, and what comes behind it. -/
def quotedTail (word follow : Text) : Text := replace '\x27' word "''".toList ++ '\x27' :: follow

/-- Behind the word stands what may delimit it. -/
def Delimited (follow : Text) : Prop := ∃ char rest, follow = char :: rest ∧ delimits char = true

-----------------------------------------------------------------------------------------
-- One word
-----------------------------------------------------------------------------------------

section Word

variable {char : Char} {word follow rest : Text}

theorem quotedTail_nil : quotedTail [] follow = '\x27' :: follow := rfl

theorem quotedTail_quote
    : quotedTail ('\x27' :: word) follow = '\x27' :: '\x27' :: quotedTail word follow :=
  rfl

theorem quotedTail_other (other : char ≠ '\x27')
    : quotedTail (char :: word) follow = char :: quotedTail word follow := by
  simp [quotedTail, replace, other]

theorem isSingleQuote_cases
    : isSingleQuote char = false ∨ char = '\x27' ∨ isSmartQuote char = true := by
  by_cases plain : char = '\x27'
  · exact Or.inr (Or.inl plain)
  · cases kind : isSingleQuote char with
    | false => exact Or.inl rfl
    | true => exact Or.inr (Or.inr (by simp [isSmartQuote, kind, plain]))

theorem ne_of_plain (plain : isSingleQuote char = false) : char ≠ '\x27' := by
  intro same
  subst same
  cases plain

theorem single_of_smart (smart : isSmartQuote char = true) : isSingleQuote char = true :=
  (Bool.and_eq_true_iff.mp smart).1

theorem ne_of_smart (smart : isSmartQuote char = true) : char ≠ '\x27' :=
  of_decide_eq_true (Bool.and_eq_true_iff.mp smart).2

theorem delimits_not_quote (delimiter : delimits char = true) : isSingleQuote char = false := by
  simp only [delimits, Bool.or_eq_true, decide_eq_true_eq] at delimiter
  rcases delimiter with rfl | rfl <;> rfl

/-- The string ends at its last quote. -/
theorem readString_end (delimited : Delimited follow)
    : readString ('\x27' :: follow) = some ([], follow) := by
  obtain ⟨char, rest, rfl, delimiter⟩ := delimited
  simp [readString, delimits_not_quote delimiter, show isSingleQuote '\x27' = true from rfl]

/-- A doubled quote is one. -/
theorem readString_double {next : Char} (quote : isSingleQuote char = true)
    (second : isSingleQuote next = true)
    : readString (char :: next :: follow)
      = (readString follow).map (fun (string, left) => (next :: string, left)) := by
  simp [readString, quote, second]

theorem readString_plain (plain : isSingleQuote char = false)
    : readString (char :: follow)
      = (readString follow).map (fun (string, left) => (char :: string, left)) := by
  cases follow <;> simp [readString, plain]

theorem readString_closes {next : Char} (quote : isSingleQuote char = true)
    (plain : isSingleQuote next = false)
    : readString (char :: next :: follow) = some ([], next :: follow) := by
  simp [readString, quote, plain]

/-- Without typographic quotes the word is read back, by induction on it. -/
theorem readString_unsmart (unsmart : Unsmart word) (delimited : Delimited follow)
    : readString (quotedTail word follow) = some (word, follow) := by
  induction word with
  | nil => exact readString_end delimited
  | cons char word ih =>
      have rest := ih (fun other member => unsmart other (List.mem_cons_of_mem _ member))
      rcases @isSingleQuote_cases char with plain | rfl | smart
      · rw [quotedTail_other (ne_of_plain plain), readString_plain plain, rest]
        rfl
      · rw [quotedTail_quote, readString_double rfl rfl, rest]
        rfl
      · rw [unsmart char List.mem_cons_self] at smart
        cases smart

/-- A string with a known beginning was read with it. -/
theorem of_map_cons {read : Option (Text × Text)} {first : Char} {string left : Text}
    (same : read.map (fun (string, left) => (char :: string, left)) = some (first :: string, left))
    : char = first ∧ read = some (string, left) := by
  obtain ⟨inner, found, whole⟩ := of_map_eq_some same
  cases whole
  exact ⟨rfl, found⟩

/-- Something else is read before a pending quote. -/
theorem map_cons_ne {read : Option (Text × Text)} {first : Char} {string : Text}
    (other : isSmartQuote char = false) (smart : isSmartQuote first = true)
    : read.map (fun (string, left) => (char :: string, left)) ≠ some (first :: string, rest) := by
  intro same
  rw [(of_map_cons same).1, smart] at other
  cases other

/-- The typographic quotes that stand doubled are read as half of them. While some are pending, each
step of the reader leaves others pending or goes wrong, by induction on what follows two at a time.
-/
theorem readString_pending {pending : Text} (some : pending ≠ [])
    (smart : ∀ char ∈ pending, isSmartQuote char = true) (delimited : Delimited follow)
    : readString (quotedTail word follow) ≠ .some (pending ++ word, rest) := by
  induction word using List.twoStepInduction generalizing pending with
  | nil =>
      rw [quotedTail_nil, readString_end delimited, List.append_nil]
      intro same
      cases same
      exact some rfl
  | singleton char =>
      obtain ⟨first, others, rfl⟩ := List.exists_cons_of_ne_nil some
      have firstSmart := smart first List.mem_cons_self
      rcases @isSingleQuote_cases char with plain | rfl | here
      · rw [quotedTail_other (ne_of_plain plain), readString_plain plain]
        exact map_cons_ne (by simp [isSmartQuote, plain]) firstSmart
      · rw [quotedTail_quote, readString_double rfl rfl]
        exact map_cons_ne rfl firstSmart
      · rw [quotedTail_other (ne_of_smart here), quotedTail_nil,
          readString_double (single_of_smart here) rfl]
        exact map_cons_ne rfl firstSmart
  | cons_cons char next word ih _ =>
      obtain ⟨first, others, rfl⟩ := List.exists_cons_of_ne_nil some
      have firstSmart := smart first List.mem_cons_self
      rcases @isSingleQuote_cases char with plain | rfl | here
      · rw [quotedTail_other (ne_of_plain plain), readString_plain plain]
        exact map_cons_ne (by simp [isSmartQuote, plain]) firstSmart
      · rw [quotedTail_quote, readString_double rfl rfl]
        exact map_cons_ne rfl firstSmart
      · rw [quotedTail_other (ne_of_smart here)]
        have quote := single_of_smart here
        rcases @isSingleQuote_cases next with plain | rfl | after
        · rw [quotedTail_other (ne_of_plain plain), readString_closes quote plain]
          simp
        · rw [quotedTail_quote, readString_double quote rfl]
          exact map_cons_ne rfl firstSmart
        · rw [quotedTail_other (ne_of_smart after), readString_double quote (single_of_smart after)]
          intro same
          have left := (of_map_cons same).2
          -- two more of them have been passed, and one was read
          refine @ih (others ++ [char, next]) (by simp) ?_ (by simpa using left)
          intro other member
          rcases List.mem_append.mp member with old | new
          · exact smart other (List.mem_cons_of_mem _ old)
          · rcases List.mem_pair.mp new with rfl | rfl
            · exact here
            · exact after

/-- A word that is read back has no typographic quote. -/
theorem unsmart_of_read (delimited : Delimited follow)
    (read : readString (quotedTail word follow) = some (word, rest))
    : Unsmart word ∧ rest = follow := by
  induction word with
  | nil =>
      rw [quotedTail_nil, readString_end delimited] at read
      cases read
      exact ⟨fun _ member => absurd member List.not_mem_nil, rfl⟩
  | cons char word ih =>
      rcases @isSingleQuote_cases char with plain | rfl | smart
      · rw [quotedTail_other (ne_of_plain plain), readString_plain plain] at read
        obtain ⟨unsmart, same⟩ := ih (of_map_cons read).2
        refine ⟨?_, same⟩
        intro other member
        rcases List.mem_cons.mp member with rfl | member
        · simp [isSmartQuote, plain]
        · exact unsmart other member
      · rw [quotedTail_quote, readString_double rfl rfl] at read
        obtain ⟨unsmart, same⟩ := ih (of_map_cons read).2
        refine ⟨?_, same⟩
        intro other member
        rcases List.mem_cons.mp member with rfl | member
        · rfl
        · exact unsmart other member
      · have quote := single_of_smart smart
        rw [quotedTail_other (ne_of_smart smart)] at read
        cases word with
        | nil =>
            rw [quotedTail_nil, readString_double quote rfl] at read
            exact absurd read (map_cons_ne rfl smart)
        | cons next word =>
            rcases @isSingleQuote_cases next with plain | rfl | after
            · rw [quotedTail_other (ne_of_plain plain), readString_closes quote plain] at read
              cases read
            · rw [quotedTail_quote, readString_double quote rfl] at read
              exact absurd read (map_cons_ne rfl smart)
            · rw [quotedTail_other (ne_of_smart after),
                readString_double quote (single_of_smart after)]
                at read
              refine absurd (of_map_cons read).2 (@readString_pending _ _ _ [next] ?_ ?_ delimited)
              · simp
              · simpa using after

theorem read_iff (delimited : Delimited follow)
    : readString (quotedTail word follow) = some (word, rest) ↔ Unsmart word ∧ rest = follow := by
  constructor
  · exact unsmart_of_read delimited
  · intro both
    rw [both.2, readString_unsmart both.1 delimited]

/-- A word of a call is a string that something delimits. -/
theorem readWord_eq_some {text body : Text} (opens : text.dropWhile (· = ' ') = char :: body)
    (quote : isSingleQuote char = true)
    : readWord text = some (word, rest) ↔ readString body = some (word, rest) ∧ Delimited rest := by
  rw [readWord, opens]
  simp only [quote, if_true]
  cases read : readString body with
  | none => simp
  | some found =>
      obtain ⟨string, left⟩ := found
      cases left with
      | nil =>
          simp only [reduceCtorEq, false_iff]
          intro given
          obtain ⟨same, char, more, rfl, behind⟩ := given
          cases same
      | cons next left =>
          by_cases delimiter : delimits next = true
          · simp only [delimiter, if_true, iff_self_and]
            intro same
            cases same
            exact ⟨next, left, rfl, delimiter⟩
          · simp only [delimiter, Bool.false_eq_true, if_false, reduceCtorEq, false_iff]
            intro given
            obtain ⟨same, char, more, rfl, behind⟩ := given
            cases same
            exact delimiter behind

theorem readWord_iff (delimited : Delimited follow)
    : readWord (' ' :: (psQuote word ++ follow)) = some (word, rest)
      ↔ Unsmart word ∧ rest = follow := by
  have opens : (' ' :: (psQuote word ++ follow)).dropWhile (· = ' ')
      = '\x27' :: quotedTail word follow := by
    simp [psQuote, quotedTail]
  rw [readWord_eq_some opens rfl, read_iff delimited]
  constructor
  · exact And.left
  · intro given
    obtain ⟨unsmart, rfl⟩ := given
    exact ⟨⟨unsmart, rfl⟩, delimited⟩

theorem readString_shrinks : Shrinks readString := by
  intro text
  induction text using List.twoStepInduction with
  | nil => simp [readString]
  | singleton char =>
      intro value rest read
      rcases Bool.eq_false_or_eq_true (isSingleQuote char) with quote | plain
      · simp only [readString, quote, if_true] at read
        cases read
        simp
      · rw [readString_plain plain] at read
        simp [readString] at read
  | cons_cons char next text ih ihNext =>
      intro value rest read
      rcases Bool.eq_false_or_eq_true (isSingleQuote char) with quote | plain
      · rcases Bool.eq_false_or_eq_true (isSingleQuote next) with second | other
        · rw [readString_double quote second] at read
          obtain ⟨string, found, _⟩ := of_map_eq_some read
          have shorter := ih _ _ found
          simp only [List.length_cons]
          omega
        · rw [readString_closes quote other] at read
          cases read
          simp
      · rw [readString_plain plain] at read
        obtain ⟨string, found, _⟩ := of_map_eq_some read
        have shorter := ihNext next _ _ found
        simp only [List.length_cons] at shorter ⊢
        omega

theorem readWord_shrinks : Shrinks readWord := by
  intro text value rest read
  have fewer := (List.dropWhile_sublist (l := text) (· = ' ')).length_le
  cases opens : text.dropWhile (· = ' ') with
  | nil => simp [readWord, opens] at read
  | cons char body =>
      have longer : body.length < text.length := by
        rw [opens] at fewer
        exact fewer
      cases quote : isSingleQuote char with
      | true =>
          have shorter := readString_shrinks _ _ _ ((readWord_eq_some opens quote).mp read).1
          omega
      | false => simp [readWord, opens, quote] at read

end Word

-----------------------------------------------------------------------------------------
-- Calls
-----------------------------------------------------------------------------------------

section Calls

variable {words : List Text} {step : Step} {steps : List Step} {follow rest : Text}

/-- Quoted words, each behind a blank. -/
def quotedWords (words : List Text) : Text := words.flatMap (fun word => ' ' :: psQuote word)

/-- What stands behind the last word of a call. -/
def callTail (step : Step) : Text :=
  (if step.args = [] then [' '] else []) ++ "; if ($LASTEXITCODE -ne 0) \x7b exit $LASTEXITCODE \x7d".toList

theorem callLine_eq : callLine step = '&' :: (quotedWords step.argv ++ callTail step) := by
  cases args : step.args with
  | nil => simp [callLine, quotedWords, callTail, Step.argv, args, join, List.intercalate]
  | cons first others =>
      have line : join [' '] (step.args.map psQuote)
          = psQuote first ++ others.flatMap (fun word => ' ' :: psQuote word) := by
        rw [args, List.map_cons, join_eq_flatMap, List.flatMap_map]
        rfl
      rw [callLine, line]
      simp [quotedWords, callTail, Step.argv, args]

theorem delimited_words (delimited : Delimited follow)
    : Delimited (quotedWords words ++ follow) := by
  cases words with
  | nil => exact delimited
  | cons word words => exact ⟨' ', _, rfl, rfl⟩

/-- The words of a call are read back if none has a typographic quote, by induction on them. -/
theorem words_written_iff (delimited : Delimited follow) (ends : callEnds follow = true)
    : Written readWord callEnds words (quotedWords words ++ follow) rest
      ↔ (∀ word ∈ words, Unsmart word) ∧ rest = follow := by
  induction words with
  | nil =>
      constructor
      · intro written
        cases written
        exact ⟨by simp, rfl⟩
      · intro given
        obtain ⟨_, rfl⟩ := given
        exact .stop ends
  | cons word words ih =>
      have text : quotedWords (word :: words) ++ follow
          = ' ' :: (psQuote word ++ (quotedWords words ++ follow)) := by
        simp [quotedWords]
      have goesOn : callEnds (' ' :: (psQuote word ++ (quotedWords words ++ follow))) = false := by
        simp [callEnds, psQuote]
      have one := @readWord_iff word (quotedWords words ++ follow)
      rw [text]
      constructor
      · intro written
        cases written with
        | next _ first others =>
            obtain ⟨unsmart, rfl⟩ := (one (delimited_words delimited)).mp first
            obtain ⟨more, same⟩ := ih.mp others
            exact ⟨List.forall_mem_cons.mpr ⟨unsmart, more⟩, same⟩
      · intro given
        obtain ⟨unsmart, same⟩ := given
        obtain ⟨here, more⟩ := List.forall_mem_cons.mp unsmart
        exact .next goesOn ((one (delimited_words delimited)).mpr ⟨here, rfl⟩) (ih.mpr ⟨more, same⟩)

theorem callTail_delimited : Delimited (callTail step ++ follow) := by
  cases args : step.args with
  | nil => exact ⟨' ', _, by rw [callTail, if_pos args]; rfl, rfl⟩
  | cons first others => exact ⟨';', _, by rw [callTail, if_neg (by simp [args])]; rfl, rfl⟩

theorem callTail_opens
    : (callTail step ++ '\n' :: follow).dropWhile (· = ' ')
      = "; if ($LASTEXITCODE -ne 0) \x7b exit $LASTEXITCODE \x7d\n".toList ++ follow := by
  cases args : step.args with
  | nil => rw [callTail, if_pos args]; rfl
  | cons first others => rw [callTail, if_neg (by simp [args])]; rfl

theorem callTail_ends : callEnds (callTail step ++ '\n' :: follow) = true := by
  rw [callEnds, callTail_opens]
  rfl

theorem readCall_shrinks : Shrinks readCall := by
  intro text value rest read
  simp only [readCall, Option.bind_eq_bind, Option.bind_eq_some_iff] at read
  obtain ⟨body, opened, ⟨words, left⟩, found, after, closed, made⟩ := read
  have fewer := many_length_le readWord_shrinks found
  have behind := (List.dropWhile_sublist (l := left) (· = ' ')).length_le
  rw [Dns.stripStart_some opened, List.length_append]
  rw [Dns.stripStart_some closed, List.length_append] at behind
  cases words with
  | nil => cases made
  | cons program args =>
      cases made
      have one : "&".toList.length = 1 := rfl
      omega

/-- A call is read back if no word of it has a typographic quote. -/
theorem readCall_iff
    : readCall (callLine step ++ '\n' :: follow) = some (step, rest)
      ↔ step.Unsmart ∧ rest = follow := by
  have delimited := @callTail_delimited step ('\n' :: follow)
  have words := @words_written_iff step.argv (callTail step ++ '\n' :: follow)
  have text : callLine step ++ '\n' :: follow
      = "&".toList ++ (quotedWords step.argv ++ (callTail step ++ '\n' :: follow)) := by
    rw [callLine_eq]
    simp
  simp only [readCall, text, Dns.stripStart_append, Option.bind_eq_bind, Option.bind_some,
    Option.bind_eq_some_iff]
  constructor
  · intro given
    obtain ⟨⟨argv, left⟩, found, after, closed, made⟩ := given
    cases argv with
    | nil => cases made
    | cons program args =>
        cases made
        obtain ⟨unsmart, rfl⟩ :=
          (words delimited callTail_ends).mp ((many_eq_some readWord_shrinks).mp found)
        rw [callTail_opens, Dns.stripStart_append] at closed
        cases closed
        exact ⟨unsmart, rfl⟩
  · intro given
    obtain ⟨unsmart, rfl⟩ := given
    have found := (many_eq_some readWord_shrinks).mpr
      ((words delimited callTail_ends).mpr ⟨unsmart, rfl⟩)
    refine ⟨(step.argv, _), found, _, ?_, rfl⟩
    rw [callTail_opens, Dns.stripStart_append]

/-- The lines of the calls, and the last one. -/
def callLines (steps : List Step) : Text :=
  steps.flatMap (fun step => callLine step ++ ['\n']) ++ "exit 0".toList

theorem script_eq : script steps = "$ErrorActionPreference = 'Stop'\n".toList ++ callLines steps := by
  rw [script, join_concat, callLines, List.flatMap_append, List.flatMap_map]
  rfl

/-- The calls are read back if none has a typographic quote, by induction on them. -/
theorem calls_written_iff
    : Written readCall exits steps (callLines steps) rest
      ↔ (∀ step ∈ steps, step.Unsmart) ∧ rest = "exit 0".toList := by
  induction steps with
  | nil =>
      constructor
      · intro written
        cases written
        exact ⟨by simp, rfl⟩
      · intro given
        obtain ⟨_, rfl⟩ := given
        exact .stop rfl
  | cons step steps ih =>
      have text : callLines (step :: steps) = callLine step ++ '\n' :: callLines steps := by
        simp [callLines]
      have goesOn : exits (callLine step ++ '\n' :: callLines steps) = false := by
        rw [callLine_eq]
        simp [exits]
      rw [text]
      constructor
      · intro written
        cases written with
        | next _ first others =>
            obtain ⟨unsmart, rfl⟩ := readCall_iff.mp first
            obtain ⟨more, same⟩ := ih.mp others
            exact ⟨List.forall_mem_cons.mpr ⟨unsmart, more⟩, same⟩
      · intro given
        obtain ⟨unsmart, same⟩ := given
        obtain ⟨here, more⟩ := List.forall_mem_cons.mp unsmart
        exact .next goesOn (readCall_iff.mpr ⟨here, rfl⟩) (ih.mpr ⟨more, same⟩)

end Calls

/-- PowerShell reads the script as the calls that it was made from exactly if no program and no argument
has a typographic single quote.
-/
theorem powerShell_calls_iff (steps : List Step)
    : calls (script steps) = some steps ↔ ∀ step ∈ steps, step.Unsmart := by
  simp only [calls, script_eq, Dns.stripStart_append, Option.bind_eq_bind, Option.bind_some,
    Option.bind_eq_some_iff, Option.some.injEq]
  constructor
  · intro given
    obtain ⟨⟨read, rest⟩, found, rfl⟩ := given
    exact (calls_written_iff.mp ((many_eq_some readCall_shrinks).mp found)).1
  · intro unsmart
    exact ⟨(steps, _), (many_eq_some readCall_shrinks).mpr (calls_written_iff.mpr ⟨unsmart, rfl⟩),
      rfl⟩

/-- A typographic apostrophe in the name of a user ends the word in the middle. -/
theorem smart_apostrophe_misread
    : let up := step "C:\\Program Files\\WireGuard\\wireguard.exe".toList .up
        "C:\\Users\\Jane O\u2019Neil\\wsl.conf".toList
      calls (script [up]) ≠ some [up] := by
  decide +kernel

end WslVpn.Agent
