import WslVpn.Reading.Many
import WslVpn.Agent.Tunnel

/-! How PowerShell reads a script of calls: what its lexer takes for a single quote, the words of a
call, and the calls.
-/

namespace WslVpn.Agent.PowerShell

open Dns (Text stripStart)
open Reading

/-- What the lexer treats as a single quote. -/
def isSingleQuote (char : Char) : Bool :=
  char = '\x27' || char = '\u2018' || char = '\u2019' || char = '\u201a' || char = '\u201b'

/-- The rest of a single-quoted string: a quote doubled is that quote, any other one ends it. -/
def readString : Reader Char Text
  | [] => none
  | char :: rest =>
      if isSingleQuote char then
        match rest with
        | [] => some ([], [])
        | next :: more =>
            if isSingleQuote next then
              (readString more).map (fun (string, left) => (next :: string, left))
            else some ([], next :: more)
      else (readString rest).map (fun (string, left) => (char :: string, left))

/-- What may stand behind a word. -/
def delimits (char : Char) : Bool := char = ' ' || char = ';'

/-- The next word of a call, if that is a single-quoted string. -/
def readWord : Reader Char Text := fun text =>
  match text.dropWhile (· = ' ') with
  | [] => none
  | char :: rest =>
      if isSingleQuote char then
        match readString rest with
        | some (word, next :: left) => if delimits next then some (word, next :: left) else none
        | _ => none
      else none

/-- The call ends here. -/
def callEnds (text : Text) : Bool := (text.dropWhile (· = ' ')).head? = some ';'

/-- A call with the exit that is taken when it fails. -/
def readCall : Reader Char Step := fun text => do
  let rest ← stripStart "&".toList text
  let (words, rest) ← many readWord callEnds rest
  let rest ← stripStart "; if ($LASTEXITCODE -ne 0) \x7b exit $LASTEXITCODE \x7d\n".toList
    (rest.dropWhile (· = ' '))
  match words with
  | [] => none
  | program :: args => some (⟨program, args⟩, rest)

def exits (text : Text) : Bool := text = "exit 0".toList

/-- The calls of a script, if there is nothing else in it. -/
def calls (script : Text) : Option (List Step) := do
  let rest ← stripStart "$ErrorActionPreference = 'Stop'\n".toList script
  let (calls, _) ← many readCall exits rest
  some calls

end WslVpn.Agent.PowerShell
