import WslVpn.Agent.Tunnel

/-! The launchd job that keeps the resolver running. -/

namespace WslVpn.Agent

open Dns (Text)

def jobLabel : Text := "io.wsl.zerotrust.dns".toList

/-- The address that the resolver listens on. -/
def listenAddr (port : Fin 65536) : Text := "127.0.0.1:".toList ++ Nat.toDigits 10 port.val

/-- Escape a string to sit between the tags of an element. -/
def plistEscape (text : Text) : Text :=
  replace '>' (replace '<' (replace '&' text "&amp;".toList) "&lt;".toList) "&gt;".toList

/-- The command that the job runs. -/
def jobArguments (program hosts : Text) (port : Fin 65536) : List Text :=
  [program, "dns".toList, "serve".toList, "--listen".toList, listenAddr port, "--hosts".toList, hosts]

def argumentLine (argument : Text) : Text :=
  "    <string>".toList ++ plistEscape argument ++ "</string>\n".toList

def renderPlist (program hosts : Text) (port : Fin 65536) (log : Text) : Text :=
  "<?xml version=\"1.0\" encoding=\"UTF-8\"?>
<!DOCTYPE plist PUBLIC \"-//Apple//DTD PLIST 1.0//EN\" \"http://www.apple.com/DTDs/PropertyList-1.0.dtd\">
<plist version=\"1.0\">
<dict>
  <key>Label</key>
  <string>".toList ++ jobLabel ++ "</string>
  <key>ProgramArguments</key>
  <array>
".toList ++ (jobArguments program hosts port).flatMap argumentLine ++ "  </array>
  <key>RunAtLoad</key>
  <true/>
  <key>KeepAlive</key>
  <true/>
  <key>ThrottleInterval</key>
  <integer>5</integer>
  <key>ProcessType</key>
  <string>Background</string>
  <key>StandardErrorPath</key>
  <string>".toList ++ plistEscape log ++ "</string>
  <key>StandardOutPath</key>
  <string>".toList ++ plistEscape log ++ "</string>
</dict>
</plist>
".toList

/-- The privileged step that routes domains to the resolver. -/
def syncStep (program : Text) (domains : List Text) (port : Fin 65536) : Step where
  program
  args :=
    ["dns".toList, "sync-resolvers".toList, "--port".toList, Nat.toDigits 10 port.val, "--".toList]
      ++ domains

end WslVpn.Agent
