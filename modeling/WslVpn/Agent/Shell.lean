import WslVpn.Reading.Many
import WslVpn.Agent.Tunnel

/-! How a command line reaches a POSIX shell, and what the shell makes of a list of commands: its words,
its commands, and the runs of those. A line that uses anything else of the shell's language has no reading
here.
-/

namespace WslVpn.Agent.Shell

open Dns (Text stripStart)
open Reading

-----------------------------------------------------------------------------------------
-- Words and commands
-----------------------------------------------------------------------------------------

def isBlank (char : Char) : Bool := char = ' ' || char = '\t'

/-- A character that stands for itself without quotes. -/
def isPlain (char : Char) : Bool := char.isAlphanum || char = '=' || char = '/' || char = '_'

/-- The rest of a word, inside single quotes or outside. Inside everything is literal up to the next
quote; outside a backslash takes the next character literally.
-/
def readRest : Bool → Reader Char Text
  | true, [] => none
  | true, char :: rest =>
      if char = '\x27' then readRest false rest
      else (readRest true rest).map (fun (word, left) => (char :: word, left))
  | false, [] => some ([], [])
  | false, char :: rest =>
      if char = '\x27' then readRest true rest
      else if isBlank char || char = '&' then some ([], char :: rest)
      else if isPlain char then (readRest false rest).map (fun (word, left) => (char :: word, left))
      else if char = '\\' then
        match rest with
        | [] => none
        | next :: more =>
            if next = '\n' then none
            else (readRest false more).map (fun (word, left) => (next :: word, left))
      else none

/-- The next word of a command. -/
def readWord : Reader Char Text := fun text =>
  match text.dropWhile isBlank with
  | [] => none
  | char :: rest => if char = '&' then none else readRest false (char :: rest)

/-- The command ends here. -/
def commandEnds (text : Text) : Bool :=
  let rest := text.dropWhile isBlank
  rest = [] || "&&".toList.isPrefixOf rest

/-- A command, and the `&&` if another one follows. -/
def readCommand : Reader Char (List Text) := fun text => do
  let (words, rest) ← many readWord commandEnds text
  let left := rest.dropWhile isBlank
  if words = [] then none
  else if left = [] then some (words, [])
  else
    let more ← stripStart "&&".toList left
    if more.dropWhile isBlank = [] then none else some (words, more)

/-- The commands of a list that `&&` joins. -/
def readList (script : Text) : Option (List (List Text)) :=
  (many readCommand List.isEmpty script).map (·.1)

-----------------------------------------------------------------------------------------
-- Runs
-----------------------------------------------------------------------------------------

/-- A program that was run, with the exported `PATH`. -/
structure Run where
  path : Option Text
  argv : List Text
  deriving DecidableEq

/-- Run the commands until one fails. Whether a run succeeds depends on it and on the runs before.
-/
def runList (succeeds : List Run → Bool)
    : Option Text → List Run → List (List Text) → Option (List Run)
  | _, done, [] => some done
  | path, done, words :: commands =>
      match words with
      | [] => none
      | program :: args =>
          if program.head? = some '/' then
            let done := done ++ [⟨path, program :: args⟩]
            if succeeds done then runList succeeds path done commands else some done
          else if program = "export".toList then
            match args with
            | [assignment] =>
                match stripStart "PATH=".toList assignment with
                | some value => runList succeeds (some value) done commands
                | none => none
            | _ => none
          else none

/-- `/bin/sh -c script`. -/
def sh (succeeds : List Run → Bool) (script : Text) : Option (List Run) :=
  readList script >>= runList succeeds none []

-----------------------------------------------------------------------------------------
-- Delivery
-----------------------------------------------------------------------------------------

/-- The rest of an AppleScript string literal. -/
def readLiteral : Reader Char Text
  | [] => none
  | char :: rest =>
      if char = '\x22' then some ([], rest)
      else if char = '\\' then
        match rest with
        | [] => none
        | next :: more =>
            let meant := if next = '\\' ∨ next = '\x22' then some next
              else if next = 'n' then some '\n'
              else if next = 'r' then some '\r'
              else if next = 't' then some '\t'
              else none
            meant.bind (fun char => (readLiteral more).map (fun (text, left) => (char :: text, left)))
      else (readLiteral rest).map (fun (text, left) => (char :: text, left))

/-- The shell script that an AppleScript runs. -/
def doShellScript (source : Text) : Option Text := do
  let rest ← stripStart "do shell script \x22".toList source
  let (script, rest) ← readLiteral rest
  if rest = " with administrator privileges".toList then some script else none

/-- An argument of a program cannot hold a NUL. -/
def passable (args : List Text) : Bool := args.all (fun arg => '\x00' ∉ arg)

/-- The program that stands for the privilege. -/
def programOf : Privilege → Option Text
  | .direct => some "/bin/sh".toList
  | .viaSudo => some "sudo".toList
  | .graphical escalator => some escalator
  | .unavailable => none

/-- What the shell is given to run when the privilege's program is run with the arguments. -/
def delivered (privilege : Privilege) (args : List Text) : Option Text :=
  if !passable args then none
  else
    match privilege, args with
    | .direct, [option, script] => if option = "-c".toList then some script else none
    | .viaSudo, [shell, option, script] =>
        if shell = "/bin/sh".toList ∧ option = "-c".toList then some script else none
    | .graphical escalator, [option, source] =>
        if fileName escalator = some "osascript".toList ∧ option = "-e".toList then doShellScript source
        else none
    | .graphical escalator, [shell, option, script] =>
        if fileName escalator ≠ some "osascript".toList ∧ shell = "/bin/sh".toList
          ∧ option = "-c".toList then some script
        else none
    | _, _ => none

end WslVpn.Agent.Shell
