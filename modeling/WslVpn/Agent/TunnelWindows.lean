import WslVpn.Agent.Tunnel

/-! The script that an elevated PowerShell runs. -/

namespace WslVpn.Agent.TunnelWindows

open Dns (Text)

/-- The `wireguard.exe` invocation for one action. -/
def step (exe : Text) (action : Action) (conf : Text) : Step :=
  match action with
  | .up => ⟨exe, ["/installtunnelservice".toList, conf]⟩
  | .down => ⟨exe, ["/uninstalltunnelservice".toList, interfaceName]⟩

/-- Quote for a PowerShell single-quoted string. -/
def psQuote (value : Text) : Text := '\x27' :: (replace '\x27' value "''".toList ++ ['\x27'])

/-- The call of one step, and the exit if it fails. -/
def callLine (step : Step) : Text :=
  "& ".toList ++ psQuote step.program ++ [' '] ++ join [' '] (step.args.map psQuote)
    ++ "; if ($LASTEXITCODE -ne 0) \x7b exit $LASTEXITCODE \x7d".toList

/-- The script the elevated PowerShell runs: each step, stopping at the first one that fails. -/
def script (steps : List Step) : Text :=
  join ['\n']
    (["$ErrorActionPreference = 'Stop'".toList] ++ steps.map callLine ++ ["exit 0".toList])

end WslVpn.Agent.TunnelWindows
