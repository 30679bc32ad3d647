import WslVpn.Separated.Parts
import WslVpn.Agent.State

/-! Imported WireGuard configs: the form they are stored in, and the check that they pass before. -/

namespace WslVpn.Agent

open Dns (Text trim lines dropReturn toAsciiLowercase)

def interfaceKeys : List Text :=
  ["privatekey", "address", "dns", "mtu", "listenport", "table", "fwmark", "saveconfig"].map String.toList

def peerKeys : List Text :=
  ["publickey", "presharedkey", "allowedips", "endpoint", "persistentkeepalive"].map String.toList

def hookKeys : List Text := ["preup", "postup", "predown", "postdown"].map String.toList

inductive Section where
  | none
  | interface
  | peer
  deriving DecidableEq

def splitList (value : Text) : List Text := ((value.splitOn ',').map trim).filter (· ≠ [])

/-- The 64 symbols of base64 and what they stand for. -/
def base64Value (char : Char) : Option Nat :=
  if char.isUpper then some (char.toNat - 65)
  else if char.isLower then some (char.toNat - 97 + 26)
  else if char.isDigit then some (char.toNat - 48 + 52)
  else if char = '+' then some 62
  else if char = '/' then some 63
  else none

/-- The base64 of 32 bytes: 43 symbols, of which the last has two bits to spare, and one `=`. -/
def isKey (value : Text) : Bool :=
  let value := trim value
  let symbols := value.take 43
  value.length = 44 && symbols.all (fun char => (base64Value char).isSome)
    && (symbols.getLast?.bind base64Value).any (· % 4 == 0) && value.drop 43 = ['=']

def byteOrderMark : Char := '\uFEFF'

/-- The config as wg-quick should read it: no byte order mark, no CRLF, a final newline. -/
def normalise (text : Text) : Text :=
  let text := if text.head? = some byteOrderMark then text.drop 1 else text
  let out := (lines text).flatMap (· ++ ['\n'])
  if out = [] then ['\n'] else out

/-- `text.split_once(char)`. -/
def splitOnce (char : Char) (text : Text) : Option (Text × Text) :=
  if char ∈ text then
    some (text.takeWhile (· ≠ char), (text.dropWhile (· ≠ char)).drop 1)
  else none

/-- The number in the message. -/
def decimal (number : Nat) : Text := Nat.toDigits 10 number

/-- What the check knows behind the lines that it has read. -/
structure Progress where
  inSection : Section
  interfaces : Nat
  peers : Nat
  privateKey : Bool
  peerHasKey : Bool
  peerHasAllowed : Bool
  profile : DirectProfile
  deriving DecidableEq

def Progress.start (name : Text) : Progress where
  inSection := .none
  interfaces := 0
  peers := 0
  privateKey := false
  peerHasKey := true
  peerHasAllowed := true
  profile := ⟨name, [], [], [], [], none, none, none, []⟩

def closePeer (hasKey hasAllowed : Bool) (line : Nat) : Except Text Unit :=
  if !hasKey then
    .error ("the [Peer] ending before line ".toList ++ decimal line ++ " has no PublicKey".toList)
  else if !hasAllowed then
    .error ("the [Peer] ending before line ".toList ++ decimal line ++ " has no AllowedIPs".toList)
  else .ok ()

def atLine (lineNo : Nat) (message : Text) : Text :=
  "line ".toList ++ decimal lineNo ++ ": ".toList ++ message

namespace Progress

variable (progress : Progress)

/-- The peer that the section is about. -/
def updatePeer (change : PeerSummary → PeerSummary) : Progress :=
  { progress with profile := { progress.profile with peers := progress.profile.peers.modifyLast change } }

/-- The section that a header opens. -/
def openSection (lineNo : Nat) (line : Text) : Except Text Progress :=
  let lowered := toAsciiLowercase line
  if lowered = "[interface]".toList then
    .ok { progress with interfaces := progress.interfaces + 1, inSection := .interface }
  else if lowered = "[peer]".toList then
    .ok { progress with
      peers := progress.peers + 1
      profile := { progress.profile with peers := progress.profile.peers ++ [⟨[], none, [], none⟩] }
      peerHasKey := false
      peerHasAllowed := false
      inSection := .peer }
  else .error (atLine lineNo ("unknown section ".toList ++ lowered))

/-- The peer that a section ended with is complete. -/
def close (lineNo : Nat) : Except Text Unit :=
  if progress.inSection = .peer then closePeer progress.peerHasKey progress.peerHasAllowed lineNo
  else .ok ()

/-- A line that opens a section. -/
def header (lineNo : Nat) (line : Text) : Except Text Progress := do
  progress.close lineNo
  progress.openSection lineNo line

/-- A setting of the interface. -/
def interfaceSetting (publicKeyFromPrivate : Text → Option Text) (lineNo : Nat) (key value : Text)
    : Except Text Progress :=
  let profile := progress.profile
  if key ∉ interfaceKeys then
    .error (atLine lineNo ("`".toList ++ key ++ "` is not a WireGuard [Interface] setting".toList))
  else if key = "privatekey".toList then
    if !isKey value then .error (atLine lineNo "PrivateKey is not a WireGuard key".toList)
    else .ok { progress with
      privateKey := true
      profile := { profile with publicKey := publicKeyFromPrivate value } }
  else if key = "address".toList then
    .ok { progress with profile := { profile with address := profile.address ++ splitList value } }
  else if key = "dns".toList then
    .ok { progress with profile := { profile with dns := profile.dns ++ splitList value } }
  else if key = "mtu".toList then .ok { progress with profile := { profile with mtu := some value } }
  else if key = "listenport".toList then
    .ok { progress with profile := { profile with listenPort := some value } }
  else .ok progress

/-- A setting of a peer. -/
def peerSetting (lineNo : Nat) (key value : Text) : Except Text Progress :=
  if key ∉ peerKeys then
    .error (atLine lineNo ("`".toList ++ key ++ "` is not a WireGuard [Peer] setting".toList))
  else if key = "publickey".toList then
    if !isKey value then .error (atLine lineNo "PublicKey is not a WireGuard key".toList)
    else
      .ok { progress.updatePeer (fun peer => { peer with publicKey := value }) with peerHasKey := true }
  else if key = "presharedkey".toList then
    if !isKey value then .error (atLine lineNo "PresharedKey is not a WireGuard key".toList)
    else .ok progress
  else if key = "allowedips".toList then
    let next := progress.updatePeer (fun peer =>
      { peer with allowedIps := peer.allowedIps ++ splitList value })
    .ok { next with
      peerHasAllowed := true
      profile := { next.profile with allowedIps := next.profile.allowedIps ++ splitList value } }
  else if key = "endpoint".toList then
    let next := progress.updatePeer (fun peer => { peer with endpoint := some value })
    .ok { next with
      profile := { next.profile with
        endpoint := if next.profile.endpoint = [] then value else next.profile.endpoint } }
  else if key = "persistentkeepalive".toList then
    .ok (progress.updatePeer (fun peer => { peer with persistentKeepalive := some value }))
  else .ok progress

/-- A line with a key and a value. -/
def setting (publicKeyFromPrivate : Text → Option Text) (lineNo : Nat) (raw key value : Text)
    : Except Text Progress :=
  if key ∈ hookKeys then
    .error (atLine lineNo (trim (raw.takeWhile (· ≠ '=')) ++
      (" runs a shell command as root when the tunnel changes state, so imported configs may not " ++
        "contain it. Remove the line and import again.").toList))
  else
    match progress.inSection with
    | .none => .error (atLine lineNo ("`".toList ++ key ++ "` is outside any section".toList))
    | .interface => progress.interfaceSetting publicKeyFromPrivate lineNo key value
    | .peer => progress.peerSetting lineNo key value

/-- One line of the config. -/
def readLine (publicKeyFromPrivate : Text → Option Text) (lineNo : Nat) (raw : Text)
    : Except Text Progress :=
  let line := trim (raw.takeWhile (· ≠ '#'))
  if line = [] then .ok progress
  else if line.head? = some '[' then progress.header lineNo line
  else
    match splitOnce '=' line with
    | none => .error (atLine lineNo "expected `Key = value`".toList)
    | some (key, value) =>
        progress.setting publicKeyFromPrivate lineNo raw (toAsciiLowercase (trim key)) (trim value)

/-- The lines of the config, from the given number on. -/
def readLines (publicKeyFromPrivate : Text → Option Text)
    : Progress → Nat → List Text → Except Text Progress
  | progress, _, [] => .ok progress
  | progress, lineNo, raw :: rest => do
      let next ← progress.readLine publicKeyFromPrivate lineNo raw
      readLines publicKeyFromPrivate next (lineNo + 1) rest

/-- The checks behind the last line. -/
def finish (lineNo : Nat) : Except Text DirectProfile := do
  progress.close lineNo
  if progress.interfaces ≠ 1 then
    .error ("a config needs exactly one [Interface] section, found ".toList
      ++ decimal progress.interfaces)
  else if progress.peers = 0 then
    .error "the config has no [Peer]: there is no server to connect to".toList
  else if !progress.privateKey then .error "[Interface] has no PrivateKey".toList
  else if progress.profile.address = [] then .error "[Interface] has no Address".toList
  else if progress.profile.endpoint = [] then
    .error "no [Peer] has an Endpoint, so there is nothing to connect to".toList
  else .ok progress.profile

end Progress

/-- Check a wg-quick config and say what it connects to. -/
def validate (publicKeyFromPrivate : Text → Option Text) (text name : Text)
    : Except Text DirectProfile := do
  let read := lines (normalise text)
  let progress ← Progress.readLines publicKeyFromPrivate (.start name) 1 read
  progress.finish (read.length + 1)

-----------------------------------------------------------------------------------------
-- The name of the profile
-----------------------------------------------------------------------------------------

theorem of_bind_ok {Value Next : Type} {first : Except Text Value} {rest : Value → Except Text Next}
    {result : Next} (done : (first >>= rest) = .ok result)
    : ∃ value, first = .ok value ∧ rest value = .ok result := by
  cases first with
  | error message => cases done
  | ok value => exact ⟨value, rfl, done⟩

namespace Progress

variable {publicKeyFromPrivate : Text → Option Text} {progress next : Progress} {lineNo : Nat}
  {raw line key value : Text}

theorem openSection_name (accepted : progress.openSection lineNo line = .ok next)
    : next.profile.name = progress.profile.name := by
  simp only [openSection] at accepted
  repeat' split at accepted
  all_goals
    cases accepted
    try rfl

theorem interfaceSetting_name
    (accepted : progress.interfaceSetting publicKeyFromPrivate lineNo key value = .ok next)
    : next.profile.name = progress.profile.name := by
  simp only [interfaceSetting] at accepted
  repeat' split at accepted
  all_goals
    cases accepted
    try rfl

theorem peerSetting_name (accepted : progress.peerSetting lineNo key value = .ok next)
    : next.profile.name = progress.profile.name := by
  simp only [peerSetting] at accepted
  repeat' split at accepted
  all_goals
    cases accepted
    try rfl

theorem readLine_name (accepted : progress.readLine publicKeyFromPrivate lineNo raw = .ok next)
    : next.profile.name = progress.profile.name := by
  simp only [readLine] at accepted
  split at accepted
  · cases accepted
    rfl
  · split at accepted
    · obtain ⟨_, _, opened⟩ := of_bind_ok accepted
      exact openSection_name opened
    · split at accepted
      · cases accepted
      · rw [setting] at accepted
        split at accepted
        · cases accepted
        · split at accepted
          · cases accepted
          · exact interfaceSetting_name accepted
          · exact peerSetting_name accepted

theorem readLines_name {read : List Text}
    (accepted : readLines publicKeyFromPrivate progress lineNo read = .ok next)
    : next.profile.name = progress.profile.name := by
  induction read generalizing progress lineNo with
  | nil =>
      cases accepted
      rfl
  | cons first rest ih =>
      obtain ⟨after, one, others⟩ := of_bind_ok accepted
      exact (ih others).trans (readLine_name one)

end Progress

/-- The name is what the profile is asked for under. -/
theorem validate_name {publicKeyFromPrivate : Text → Option Text} {text name : Text}
    {profile : DirectProfile} (valid : validate publicKeyFromPrivate text name = .ok profile)
    : profile.name = name := by
  obtain ⟨progress, read, finished⟩ := of_bind_ok valid
  obtain ⟨_, _, checked⟩ := of_bind_ok finished
  repeat' split at checked
  all_goals cases checked
  exact Progress.readLines_name read

-----------------------------------------------------------------------------------------
-- Lines
-----------------------------------------------------------------------------------------

section Lines

variable {text : Text} {read : List Text}

/-- The lines with their endings. -/
def endLines (read : List Text) : Text := read.flatMap (· ++ ['\n'])

theorem endLines_cons {line : Text} : endLines (line :: read) = line ++ '\n' :: endLines read := by
  simp [endLines]

/-- No line has an ending inside. -/
def Whole (read : List Text) : Prop := ∀ line ∈ read, '\n' ∉ line

theorem Whole.cons {line : Text} (whole : Whole (line :: read)) : '\n' ∉ line ∧ Whole read :=
  ⟨whole line List.mem_cons_self, fun other member => whole other (List.mem_cons_of_mem _ member)⟩

/-- Lines end where they did, by induction on them. -/
theorem splitOn_endLines (whole : Whole read) : (endLines read).splitOn '\n' = read ++ [[]] := by
  induction read with
  | nil => rfl
  | cons line rest ih =>
      rw [endLines_cons, List.splitOn_append_cons_self_of_not_mem whole.cons.1, ih whole.cons.2]
      rfl

theorem lines_endLines (whole : Whole read) : lines (endLines read) = read.map dropReturn := by
  simp [lines, splitOn_endLines whole]

theorem mem_dropReturn {line : Text} {char : Char} (member : char ∈ dropReturn line)
    : char ∈ line := by
  unfold dropReturn at member
  split at member
  · exact List.mem_of_mem_dropLast member
  · exact member

theorem whole_lines : Whole (lines text) := by
  intro line member ends
  have part {piece : Text} (there : piece ∈ text.splitOn '\n') : '\n' ∉ piece :=
    (Separated.of_mem_splitOn there).1
  rcases List.mem_append.mp member with early | last
  · obtain ⟨piece, there, rfl⟩ := List.mem_map.mp early
    exact part (List.mem_of_mem_dropLast there) (mem_dropReturn ends)
  · split at last
    · cases last
    · next some =>
        rw [List.mem_singleton] at last
        subst last
        cases found : (text.splitOn '\n').getLast? with
        | none => simp [found] at some
        | some piece =>
            rw [found] at ends
            exact part (List.mem_of_getLast? found) ends

/-- A line without the byte order mark in front. -/
def dropMark (line : Text) : Text := if line.head? = some byteOrderMark then line.drop 1 else line

/-- A normalised text consists of lines, one at least. -/
theorem normalise_eq (text : Text)
    : ∃ first rest, Whole (first :: rest) ∧ normalise text = endLines (first :: rest)
      ∧ (lines (dropMark text) = first :: rest
        ∨ lines (dropMark text) = [] ∧ first = [] ∧ rest = []) := by
  cases read : lines (dropMark text) with
  | nil =>
      refine ⟨[], [], by simp [Whole], ?_, .inr ⟨rfl, rfl, rfl⟩⟩
      have nothing : (lines (dropMark text)).flatMap (· ++ ['\n']) = [] := by rw [read]; rfl
      exact if_pos nothing
  | cons first rest =>
      refine ⟨first, rest, read ▸ whole_lines, ?_, .inl rfl⟩
      have same : (lines (dropMark text)).flatMap (· ++ ['\n']) = endLines (first :: rest) := by
        rw [read]
        rfl
      have some : (lines (dropMark text)).flatMap (· ++ ['\n']) ≠ [] := by
        rw [same, endLines_cons]
        simp
      exact (if_neg some).trans same

/-- A text of lines is normalised line by line. -/
theorem normalise_endLines {first : Text} {rest : List Text} (whole : Whole (first :: rest))
    : Whole ((dropMark first :: rest).map dropReturn)
      ∧ normalise (endLines (first :: rest)) = endLines ((dropMark first :: rest).map dropReturn) := by
  have opened : dropMark (endLines (first :: rest)) = endLines (dropMark first :: rest) := by
    rw [endLines_cons, endLines_cons]
    cases first with
    | nil => rfl
    | cons char first =>
        unfold dropMark
        simp only [List.cons_append, List.head?_cons, Option.some.injEq]
        split <;> rfl
  have unmarked : Whole (dropMark first :: rest) := by
    intro line member
    rcases List.mem_cons.mp member with rfl | member
    · unfold dropMark
      split
      · exact fun ends => whole.cons.1 (List.mem_of_mem_drop ends)
      · exact whole.cons.1
    · exact whole.cons.2 line member
  have out : (lines (dropMark (endLines (first :: rest)))).flatMap (· ++ ['\n'])
      = endLines ((dropMark first :: rest).map dropReturn) := by
    rw [opened, lines_endLines unmarked]
    rfl
  have some : (lines (dropMark (endLines (first :: rest)))).flatMap (· ++ ['\n']) ≠ [] := by
    rw [out, List.map_cons, endLines_cons]
    simp
  refine ⟨?_, (if_neg some).trans out⟩
  intro line member
  obtain ⟨other, there, rfl⟩ := List.mem_map.mp member
  exact fun ends => unmarked other there (mem_dropReturn ends)

/-- The lines that the check reads of a text of lines. -/
theorem lines_normalise {first : Text} {rest : List Text} (whole : Whole (first :: rest))
    : lines (normalise (endLines (first :: rest)))
      = (dropMark first :: rest).map (fun line => dropReturn (dropReturn line)) := by
  obtain ⟨kept, same⟩ := normalise_endLines whole
  rw [same, lines_endLines kept, List.map_map]
  rfl

end Lines

end WslVpn.Agent
