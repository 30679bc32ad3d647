import WslVpn.Separated.Trim
import WslVpn.Dns.Text

/-! The settings that wg-quick finds in a config file. -/

open Separated

namespace WslVpn.Agent.WgQuick

open Dns (Text)

/-- The lines of a file. They end at a newline only, and a NUL in them is not read. -/
def linesOf (file : Text) : List Text :=
  (file.splitOn '\n').map (fun line => line.filter (· ≠ '\x00'))

/-- The key of a line: what is before its first equals sign, without a comment and without the blanks
around it.
-/
def keyOf (blank : Char → Bool) (line : Text) : Option Text :=
  let stripped := line.takeWhile (· ≠ '#')
  if '=' ∈ stripped then some (trimBy blank (stripped.takeWhile (· ≠ '='))) else none

end WslVpn.Agent.WgQuick
