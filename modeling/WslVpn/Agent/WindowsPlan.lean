import WslVpn.Encodings.Base64
import WslVpn.Encodings.Utf16
import WslVpn.Agent.PowerShell
import WslVpn.Agent.TunnelWindows

/-! The PowerShell that runs the steps on Windows, elevated already or through a second one, and what a
PowerShell makes of the arguments that it is started with.
-/

namespace WslVpn.Agent

open Dns (Text stripStart)
open Reading

namespace TunnelWindows

/-- `-EncodedCommand` takes base64 of the script's UTF-16LE bytes. -/
def encode (script : Text) : Text :=
  Base64.standard.encode ((Utf16.units script).flatMap Utf16.littleEndian)

def base : List Text :=
  ["-NoProfile", "-NonInteractive", "-ExecutionPolicy", "Bypass"].map String.toList

def quoted (word : Text) : Text := '\x27' :: (word ++ ['\x27'])

def powershell : Text := "powershell.exe".toList

def startProcess : Text := "$p = Start-Process -FilePath 'powershell.exe' -ArgumentList ".toList

def andWait : Text := " -Verb RunAs -WindowStyle Hidden -Wait -PassThru; exit $p.ExitCode".toList

/-- The PowerShell argv that runs the steps. Elevated already: run the script. Not elevated: start an
elevated PowerShell through UAC, wait, and pass its exit code back.
-/
def plan (steps : List Step) (elevated : Bool) : Text × List Text :=
  let encoded := encode (script steps)
  if elevated then (powershell, base ++ ["-EncodedCommand".toList, encoded])
  else
    let inner := join [',']
      (base.map quoted ++ [quoted "-EncodedCommand".toList, quoted encoded])
    (powershell, base ++ ["-Command".toList, startProcess ++ inner ++ andWait])

end TunnelWindows

namespace PowerShell

/-- The text of an encoded command. -/
def decodeCommand (code : Text) : Option Text :=
  (Base64.standard.decode code).bind (fun bytes =>
    (Utf16.fromLittleEndian bytes).bind Utf16.decode)

/-- What a PowerShell runs that is started with these arguments. -/
def source : List Text → Option Text
  | [] => none
  | option :: rest =>
      if option = "-NoProfile".toList ∨ option = "-NonInteractive".toList then source rest
      else if option = "-ExecutionPolicy".toList then
        match rest with
        | [] => none
        | _ :: rest => source rest
      else if option = "-EncodedCommand".toList then
        match rest with
        | [code] => decodeCommand code
        | _ => none
      else if option = "-Command".toList then some (join [' '] rest)
      else none

/-- The next string of a list. -/
def readItem : Reader Char Text
  | [] => none
  | char :: rest => if isSingleQuote char then readString rest else none

/-- A further one behind its comma. -/
def readNext : Reader Char Text := fun text => (stripStart [','] text).bind readItem

def listEnds (text : Text) : Bool := text.head? ≠ some ','

/-- The arguments that the elevated PowerShell of the command is to be started with. -/
def startedWith (command : Text) : Option (List Text) := do
  let text ← stripStart TunnelWindows.startProcess command
  let (first, text) ← readItem text
  let (others, text) ← many readNext listEnds text
  if text = TunnelWindows.andWait then some (first :: others) else none

/-- The arguments that a process finds in a command line without double quotes. -/
def argvOf (line : Text) : Option (List Text) :=
  if '"' ∈ line then none
  else some ((line.splitOnP (fun char => char = ' ' || char = '\t')).filter (· ≠ []))

/-- What is run elevated when a PowerShell is started with these arguments: by itself, if it is
elevated, or by the one that it starts, whose arguments go through a command line.
-/
def runElevated (elevated : Bool) (args : List Text) : Option Text := do
  let command ← source args
  if elevated then some command
  else
    let inner ← startedWith command
    let argv ← argvOf (join [' '] inner)
    source argv

end PowerShell

end WslVpn.Agent
