import WslVpn.Dns.Text

/-! The commands that need privilege, and the command line that runs them. -/

namespace WslVpn.Agent

open Dns (Text)

/-- `text.replace(char, by)`. -/
def replace (char : Char) (text replacement : Text) : Text :=
  text.flatMap (fun c => if c = char then replacement else [c])

/-- `parts.join(between)`. -/
def join (between : Text) (parts : List Text) : Text := between.intercalate parts

/-- The interface, and the name of the tunnel. -/
def interfaceName : Text := "wsl".toList

inductive Action where
  | up
  | down
  deriving DecidableEq

/-- One command to run with privilege, as an argv. -/
structure Step where
  program : Text
  args : List Text
  deriving DecidableEq

def Step.argv (step : Step) : List Text := step.program :: step.args

/-- Quote one argument for a POSIX shell. -/
def shellQuote (argument : Text) : Text :=
  '\x27' :: (replace '\x27' argument "'\\''".toList ++ ['\x27'])

/-- Escape a string to sit inside an AppleScript double-quoted literal. -/
def applescriptQuote (value : Text) : Text :=
  replace '"' (replace '\\' value "\\\\".toList) "\\\"".toList

/-- The step as one line of POSIX shell, every word quoted. -/
def Step.shell (step : Step) : Text := join [' '] (step.argv.map shellQuote)

inductive Privilege where
  | direct
  | viaSudo
  | graphical (escalator : Text)
  | unavailable
  deriving DecidableEq

/-- `Path::file_name`. -/
def fileName (path : Text) : Option Text :=
  let named := (path.splitOn '/').filter (fun part => part ≠ [] && part ≠ ['.'])
  if named.getLast? = some ['.', '.'] then none else named.getLast?

/-- The line that `/bin/sh` is to run. -/
def planScript (steps : List Step) (path : Text) : Text :=
  join " && ".toList (("export PATH=".toList ++ shellQuote path) :: steps.map Step.shell)

/-- The program and the arguments that run the steps with privilege. -/
def plan (steps : List Step) (path : Text) (privilege : Privilege) (hint : Text)
    : Except Text (Text × List Text) :=
  let script := planScript steps path
  let sh := ["/bin/sh".toList, "-c".toList, script]
  match privilege with
  | .direct => .ok ("/bin/sh".toList, sh.drop 1)
  | .viaSudo => .ok ("sudo".toList, sh)
  | .graphical escalator =>
      if fileName escalator = some "osascript".toList then
        let apple := "do shell script \"".toList ++ applescriptQuote script
          ++ "\" with administrator privileges".toList
        .ok (escalator, ["-e".toList, apple])
      else
        .ok (escalator, sh)
  | .unavailable =>
      .error ("this needs administrator rights, and there is no way to ask for them here.\n".toList
        ++ hint)

section Join

variable {between part : Text} {parts : List Text}

theorem join_cons (some : parts ≠ [])
    : join between (part :: parts) = part ++ between ++ join between parts := by
  obtain ⟨next, others, rfl⟩ := List.exists_cons_of_ne_nil some
  simp [join, List.intercalate]

/-- Each part but the last is followed by what stands between. -/
theorem join_concat
    : join between (parts ++ [part]) = parts.flatMap (· ++ between) ++ part := by
  induction parts with
  | nil => simp [join, List.intercalate]
  | cons first parts ih =>
      rw [List.cons_append, join_cons (by simp), ih, List.flatMap_cons]
      simp

/-- Each part but the first is preceded by what stands between. -/
theorem join_eq_flatMap
    : join between (part :: parts) = part ++ parts.flatMap (between ++ ·) := by
  induction parts generalizing part with
  | nil => simp [join, List.intercalate]
  | cons next parts ih =>
      rw [join_cons (by simp), ih, List.flatMap_cons]
      simp

/-- A character of joined parts is one of a part, or stands between two. -/
theorem mem_join {char : Char} (member : char ∈ join between parts)
    : char ∈ between ∨ ∃ part ∈ parts, char ∈ part := by
  cases parts with
  | nil => cases member
  | cons first rest =>
      rw [join_eq_flatMap] at member
      rcases List.mem_append.mp member with inside | later
      · exact Or.inr ⟨first, List.mem_cons_self, inside⟩
      · obtain ⟨part, there, inside⟩ := List.mem_flatMap.mp later
        rcases List.mem_append.mp inside with new | inside
        · exact Or.inl new
        · exact Or.inr ⟨part, List.mem_cons_of_mem _ there, inside⟩

end Join

end WslVpn.Agent
