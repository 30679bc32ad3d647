import Mathlib.Data.List.ModifyLast
import WslVpn.Agent.Library
import WslVpn.Agent.ManagedConfig
import WslVpn.Control.ClientConfigs
import WslVpn.Dns.Numerals

/-! What the check of imported configs reads in the config that the agent renders for a session: what the
control plane has said, when its strings stay on their lines.
-/

open Separated

namespace WslVpn.Agent

open AddressSpace
open Dns (Text trim lines dropReturn isWhitespace toAsciiLowercase IsNumeral numerals_address
  numerals_append numerals_cons numerals_toDigits)

/-- The key of a line with a setting, as the check reads it. -/
def settingKey (raw : Text) : Option Text :=
  let line := trim (raw.takeWhile (· ≠ '#'))
  if line = [] ∨ line.head? = some '[' then none
  else (splitOnce '=' line).map (fun pair => toAsciiLowercase (trim pair.1))

/-- The profile that the control plane has described. -/
def describedProfile (publicKeyFromPrivate : Text → Option Text) (privateKey name : Text)
    (wg : ClientWireGuardConfig) : DirectProfile :=
  let endpoint := wg.peerEndpoint.toList
  let allowedIps := wg.allowedIps.map String.toList
  { name
    endpoint
    address := [wg.interfaceAddress.toList]
    dns := wg.dns.map String.toList
    allowedIps
    publicKey := publicKeyFromPrivate (trim privateKey)
    mtu := none
    listenPort := none
    peers := [⟨wg.peerPublicKey.toList, some endpoint, allowedIps, some (decimal wg.persistentKeepalive)⟩] }

/-- The settings that the rendered config should consist of. -/
def describedKeys (wg : ClientWireGuardConfig) : List Text :=
  (["privatekey", "address"] ++ (if wg.dns.isEmpty then [] else ["dns"])
    ++ ["publickey", "endpoint", "allowedips", "persistentkeepalive"]).map String.toList

/-- The check reads what the control plane has described, and there are no other settings. -/
structure ReadsBack (publicKeyFromPrivate : Text → Option Text) (privateKey name : Text)
    (wg : ClientWireGuardConfig) (text : Text) : Prop where
  profile : validate publicKeyFromPrivate text name
    = .ok (describedProfile publicKeyFromPrivate privateKey name wg)
  keys : (lines (normalise text)).filterMap settingKey = describedKeys wg

/-- The strings that nobody checks stay where they are put: no DNS server is empty or holds a comma, and
no string begins or ends with a blank or holds a number sign or the end of a line.
-/
structure Plain (wg : ClientWireGuardConfig) : Prop where
  dns : ∀ entry ∈ wg.dns, Item entry.toList
  peerKey : isKey wg.peerPublicKey.toList = true
    ∧ trim wg.peerPublicKey.toList = wg.peerPublicKey.toList
  endpoint : Bare wg.peerEndpoint.toList ∧ wg.peerEndpoint.toList ≠ []

-----------------------------------------------------------------------------------------
-- The written form of addresses and numbers
-----------------------------------------------------------------------------------------

theorem item_of_numerals {text : Text} (filled : text ≠ [])
    (numerals : ∀ char ∈ text, IsNumeral char)
    : Item text where
  trimmed := by
    refine trimBy_of_trimmed ⟨?_, ?_⟩
    · intro char member
      exact (numerals char (List.mem_of_head? member)).plain.1
    · intro char member
      exact (numerals char (List.mem_of_getLast? member)).plain.1
  uncommented := fun member => (numerals _ member).plain.2.1 rfl
  whole := by
    intro member
    have white := (numerals _ member).plain.1
    cases white
  filled := filled
  alone := fun member => (numerals _ member).plain.2.2 rfl

/-- An address with a prefix length can stand in a list. -/
theorem item_of_cidr (address : IpAddr) (length : Nat)
    : Item (address.render ++ '/' :: Nat.toDigits 10 length) := by
  refine item_of_numerals (by simp) (numerals_append (numerals_address address) ?_)
  exact numerals_cons (by decide) (numerals_toDigits (by decide) (by decide) length)

theorem item_of_network (network : IpNetwork) : Item (networkText network).toList := by
  rw [networkText, String.toList_ofList]
  exact item_of_cidr network.ip network.prefixLength

theorem item_of_decimal (number : Nat) : Item (decimal number) :=
  item_of_numerals Nat.toDigits_ne_nil (numerals_toDigits (by decide) (by decide) number)

section OwnTexts

variable {wg : ClientWireGuardConfig}

theorem item_of_interface (handed : OwnTexts wg) : Item wg.interfaceAddress.toList := by
  obtain ⟨address, same⟩ := handed.interface
  have text : wg.interfaceAddress.toList = address.render ++ '/' :: Nat.toDigits 10 32 := by
    rw [same, String.toList_append, addressText, String.toList_ofList]
    rfl
  rw [text]
  exact item_of_cidr address 32

theorem items_of_routes (handed : OwnTexts wg)
    : ∀ item ∈ wg.allowedIps.map String.toList, Item item := by
  obtain ⟨networks, _, same⟩ := handed.routes
  intro item member
  rw [same, List.map_map] at member
  obtain ⟨network, _, rfl⟩ := List.mem_map.mp member
  exact item_of_network network

theorem routes_filled (handed : OwnTexts wg) : wg.allowedIps.map String.toList ≠ [] := by
  obtain ⟨networks, some, same⟩ := handed.routes
  rw [same]
  simpa using some

end OwnTexts

-----------------------------------------------------------------------------------------
-- What is rendered reads back
-----------------------------------------------------------------------------------------

section Renders

variable {publicKeyFromPrivate : Text → Option Text} {wg : ClientWireGuardConfig}
  {privateKey name label value line : Text} {progress next : Progress} {lineNo : Nat}

def labels : List Text :=
  ["PrivateKey", "Address", "DNS", "PublicKey", "Endpoint", "AllowedIPs", "PersistentKeepalive"].map
    String.toList

theorem label_of_mem (listed : label ∈ labels) : Label label := by
  have all : ∀ label ∈ labels, trim label = label ∧ '#' ∉ label ∧ '\n' ∉ label ∧ label ≠ []
      ∧ label.head? ≠ some '[' ∧ '=' ∉ label := by decide
  obtain ⟨trimmed, uncommented, whole, filled, closed, plain⟩ := all label listed
  exact ⟨⟨trimmed, uncommented, whole⟩, filled, closed, plain⟩

/-- The line passes unchanged from the rendered text to the check. -/
structure Passes (line : Text) : Prop where
  whole : '\n' ∉ line
  trimmed : trim line = line

theorem passes_settingLine (listed : label ∈ labels) (bare : Bare value) (filled : value ≠ [])
    : Passes (settingLine label value) where
  whole := by
    intro member
    rcases List.mem_append.mp member with inside | inside
    · exact (label_of_mem listed).whole inside
    · exact bare.whole (by simpa using inside)
  trimmed := trim_settingLine (label_of_mem listed) bare filled

theorem Passes.dropReturn (passes : Passes line) : dropReturn line = line := by
  rw [Dns.dropReturn, if_neg]
  intro last
  have visible := (trimmed_of_trim passes.trimmed).last '\r' last
  cases visible

/-- A line with a setting has the key that it is written with. -/
theorem settingKey_settingLine (listed : label ∈ labels) (bare : Bare value) (filled : value ≠ [])
    : settingKey (settingLine label value) = some (toAsciiLowercase label) := by
  have labelled := label_of_mem listed
  obtain ⟨whole, line, opens⟩ := settingLine_read labelled bare filled
  unfold settingKey
  rw [whole]
  simp only [line, opens, or_self, if_false, splitOnce_settingLine labelled.plain, Option.map_some,
    trim_label labelled]

/-- Each of the values can stand behind its equals sign. -/
structure Written (privateKey : Text) (wg : ClientWireGuardConfig) : Prop where
  key : isKey privateKey = true
  handed : OwnTexts wg
  plain : Plain wg

namespace Written

variable (written : Written privateKey wg)
include written

theorem dnsItems : ∀ item ∈ wg.dns.map String.toList, Item item := by
  intro item member
  obtain ⟨entry, there, rfl⟩ := List.mem_map.mp member
  exact written.plain.dns entry there

theorem peerBare : Bare wg.peerPublicKey.toList ∧ wg.peerPublicKey.toList ≠ [] := by
  obtain ⟨valid, trimmed⟩ := written.plain.peerKey
  have bare := isKey_bare valid
  have filled := isKey_filled valid
  rw [trimmed] at bare filled
  exact ⟨bare, filled⟩

theorem passes : ∀ line ∈ managedLines privateKey wg, Passes line := by
  have item {label item : Text} (listed : label ∈ labels) (clean : Item item)
      : Passes (settingLine label item) :=
    passes_settingLine listed clean.toBare clean.filled
  have plain {line : Text} (whole : '\n' ∉ line) (trimmed : trim line = line) : Passes line :=
    ⟨whole, trimmed⟩
  have dns : ∀ line ∈ dnsLines (wg.dns.map String.toList), Passes line := by
    intro line member
    unfold dnsLines at member
    split at member
    · cases member
    · next some =>
        rw [List.mem_singleton.mp member]
        exact passes_settingLine (by decide) (bare_join written.dnsItems)
          (join_filled written.dnsItems (by simpa using some))
  intro line member
  rcases List.mem_append.mp member with front | back
  · rcases List.mem_append.mp front with front | named
    · simp only [List.mem_cons, List.not_mem_nil, or_false] at front
      rcases front with rfl | rfl | rfl
      · exact plain (by decide) rfl
      · exact passes_settingLine (by decide) (isKey_bare written.key) (isKey_filled written.key)
      · exact item (by decide) (item_of_interface written.handed)
    · exact dns line named
  · simp only [List.mem_cons, List.not_mem_nil, or_false] at back
    rcases back with rfl | rfl | rfl | rfl | rfl | rfl
    · exact plain (by decide) rfl
    · exact plain (by decide) rfl
    · exact passes_settingLine (by decide) written.peerBare.1 written.peerBare.2
    · exact passes_settingLine (by decide) written.plain.endpoint.1 written.plain.endpoint.2
    · exact passes_settingLine (by decide) (bare_join (items_of_routes written.handed))
        (join_filled (items_of_routes written.handed) (routes_filled written.handed))
    · exact item (by decide) (item_of_decimal _)

/-- The check reads the lines that are rendered. -/
theorem lines_rendered
    : lines (normalise (endLines (managedLines privateKey wg))) = managedLines privateKey wg := by
  have passes := written.passes
  have whole : Whole (managedLines privateKey wg) := fun line member => (passes line member).whole
  have read := lines_normalise whole
  refine read.trans ?_
  change List.map _ (managedLines privateKey wg) = managedLines privateKey wg
  have same : ∀ line ∈ managedLines privateKey wg,
      Dns.dropReturn (Dns.dropReturn line) = line := by
    intro line member
    rw [(passes line member).dropReturn, (passes line member).dropReturn]
  exact (List.map_congr_left same).trans (List.map_id _)

end Written

/-- The check inside `[Interface]`. -/
def interfaceAt (profile : DirectProfile) (privateKey : Bool) : Progress :=
  ⟨.interface, 1, 0, privateKey, true, true, profile⟩

/-- The check inside the only `[Peer]`. -/
def peerAt (profile : DirectProfile) (hasKey hasAllowed : Bool) : Progress :=
  ⟨.peer, 1, 1, true, hasKey, hasAllowed, profile⟩

section Settings

variable {profile : DirectProfile} {peer : PeerSummary} {raw : Text} {rest : List Text}
  {keyed allowed : Bool}

theorem set_privateKey (valid : isKey value = true)
    : (interfaceAt profile keyed).setting publicKeyFromPrivate lineNo raw "privatekey".toList value
      = .ok (interfaceAt { profile with publicKey := publicKeyFromPrivate value } true) := by
  change (if !isKey value then _ else _) = _
  rw [valid]
  rfl

theorem set_address
    : (interfaceAt profile keyed).setting publicKeyFromPrivate lineNo raw "address".toList value
      = .ok (interfaceAt { profile with address := profile.address ++ splitList value } keyed) :=
  rfl

theorem set_dns
    : (interfaceAt profile keyed).setting publicKeyFromPrivate lineNo raw "dns".toList value
      = .ok (interfaceAt { profile with dns := profile.dns ++ splitList value } keyed) :=
  rfl

theorem open_peer (alone : profile.peers = [])
    : (interfaceAt profile true).readLine publicKeyFromPrivate lineNo "[Peer]".toList
      = .ok (peerAt { profile with peers := [⟨[], none, [], none⟩] } false false) := by
  cases profile
  cases alone
  rfl

theorem set_publicKey (alone : profile.peers = [peer]) (valid : isKey value = true)
    : (peerAt profile keyed allowed).setting publicKeyFromPrivate lineNo raw "publickey".toList value
      = .ok (peerAt { profile with peers := [{ peer with publicKey := value }] } true allowed) := by
  cases profile
  cases alone
  change (if !isKey value then _ else _) = _
  rw [valid]
  rfl

theorem set_endpoint (alone : profile.peers = [peer]) (unset : profile.endpoint = [])
    : (peerAt profile keyed allowed).setting publicKeyFromPrivate lineNo raw "endpoint".toList value
      = .ok (peerAt { profile with
        peers := [{ peer with endpoint := some value }]
        endpoint := value } keyed allowed) := by
  cases profile
  cases alone
  cases unset
  rfl

theorem set_allowedIps (alone : profile.peers = [peer])
    : (peerAt profile keyed allowed).setting publicKeyFromPrivate lineNo raw "allowedips".toList value
      = .ok (peerAt { profile with
        peers := [{ peer with allowedIps := peer.allowedIps ++ splitList value }]
        allowedIps := profile.allowedIps ++ splitList value } keyed true) := by
  cases profile
  cases alone
  rfl

theorem set_keepalive (alone : profile.peers = [peer])
    : (peerAt profile keyed allowed).setting publicKeyFromPrivate lineNo raw
        "persistentkeepalive".toList value
      = .ok (peerAt { profile with
        peers := [{ peer with persistentKeepalive := some value }] } keyed allowed) := by
  cases profile
  cases alone
  rfl

theorem readLines_cons (one : progress.readLine publicKeyFromPrivate lineNo line = .ok next)
    : Progress.readLines publicKeyFromPrivate progress lineNo (line :: rest)
      = Progress.readLines publicKeyFromPrivate next (lineNo + 1) rest := by
  rw [Progress.readLines, one]
  rfl

/-- A line with a setting, and those behind it. -/
theorem readLines_setting (listed : label ∈ labels) (bare : Bare value) (filled : value ≠ [])
    (done : progress.setting publicKeyFromPrivate lineNo (settingLine label value)
      (toAsciiLowercase label) value = .ok next)
    : Progress.readLines publicKeyFromPrivate progress lineNo (settingLine label value :: rest)
      = Progress.readLines publicKeyFromPrivate next (lineNo + 1) rest :=
  readLines_cons ((readLine_settingLine (label_of_mem listed) bare filled).trans done)

end Settings

namespace Written

variable (written : Written privateKey wg)
include written

/-- The DNS servers are read, or there is no line to read. -/
theorem readLines_dns (lineNo : Nat) {profile : DirectProfile} (unset : profile.dns = [])
    : ∃ later, ∀ rest,
        Progress.readLines publicKeyFromPrivate (interfaceAt profile true) lineNo
          (dnsLines (wg.dns.map String.toList) ++ rest)
        = Progress.readLines publicKeyFromPrivate
          (interfaceAt { profile with dns := wg.dns.map String.toList } true) later rest := by
  unfold dnsLines
  split
  · next nothing =>
      refine ⟨lineNo, fun rest => ?_⟩
      have none : wg.dns.map String.toList = [] := by simpa using nothing
      rw [none, List.nil_append, ← unset]
  · next some =>
      refine ⟨lineNo + 1, fun rest => ?_⟩
      have filled := join_filled written.dnsItems (by simpa using some)
      rw [List.singleton_append,
        readLines_setting (by decide) (bare_join written.dnsItems) filled set_dns,
        splitList_join written.dnsItems, unset, List.nil_append]

theorem readLines_rendered
    : Progress.readLines publicKeyFromPrivate (.start name) 1 (managedLines privateKey wg)
      = .ok (peerAt (describedProfile publicKeyFromPrivate privateKey name wg) true true) := by
  have key : isKey (trim privateKey) = true := isKey_trim.trans written.key
  have address := item_of_interface written.handed
  have keepalive := item_of_decimal wg.persistentKeepalive
  have routes := items_of_routes written.handed
  have opened : (Progress.start name).readLine publicKeyFromPrivate 1 "[Interface]".toList
      = .ok (interfaceAt ⟨name, [], [], [], [], none, none, none, []⟩ false) := rfl
  obtain ⟨later, dns⟩ := @readLines_dns publicKeyFromPrivate _ _ written 4
    ⟨name, [], [wg.interfaceAddress.toList], [], [], publicKeyFromPrivate (trim privateKey), none, none,
      []⟩ rfl
  unfold managedLines
  rw [List.append_assoc]
  simp only [List.cons_append, List.nil_append]
  rw [readLines_cons opened,
    readLines_setting (by decide) (isKey_bare written.key) (isKey_filled written.key) (set_privateKey key),
    readLines_setting (by decide) address.toBare address.filled set_address, splitList_item address]
  refine (dns _).trans ?_
  rw [readLines_cons rfl, readLines_cons (open_peer rfl),
    readLines_setting (by decide) written.peerBare.1 written.peerBare.2
      (set_publicKey rfl written.plain.peerKey.1),
    readLines_setting (by decide) written.plain.endpoint.1 written.plain.endpoint.2 (set_endpoint rfl rfl),
    readLines_setting (by decide) (bare_join routes) (join_filled routes (routes_filled written.handed))
      (set_allowedIps rfl),
    readLines_setting (by decide) keepalive.toBare keepalive.filled (set_keepalive rfl),
    splitList_join routes]
  rfl

/-- The text is accepted and means what has been described. -/
theorem validate_rendered
    : validate publicKeyFromPrivate (endLines (managedLines privateKey wg)) name
      = .ok (describedProfile publicKeyFromPrivate privateKey name wg) := by
  have reached : (describedProfile publicKeyFromPrivate privateKey name wg).endpoint ≠ [] :=
    written.plain.endpoint.2
  unfold validate
  simp only [written.lines_rendered, written.readLines_rendered]
  change (if (describedProfile publicKeyFromPrivate privateKey name wg).endpoint = [] then _
    else Except.ok (describedProfile publicKeyFromPrivate privateKey name wg)) = _
  rw [if_neg reached]

theorem keys_rendered
    : (lines (normalise (endLines (managedLines privateKey wg)))).filterMap settingKey
      = describedKeys wg := by
  have address := item_of_interface written.handed
  have keepalive := item_of_decimal wg.persistentKeepalive
  have routes := items_of_routes written.handed
  have dns : (dnsLines (wg.dns.map String.toList)).filterMap settingKey
      = (if wg.dns.isEmpty then [] else ["dns"]).map String.toList := by
    unfold dnsLines
    rw [List.isEmpty_map]
    split
    · rfl
    · next some =>
        have filled := join_filled written.dnsItems (by simpa using some)
        rw [List.filterMap_cons, settingKey_settingLine (by decide) (bare_join written.dnsItems) filled]
        rfl
  rw [written.lines_rendered]
  unfold managedLines describedKeys
  rw [List.filterMap_append, List.filterMap_append, dns, List.map_append, List.map_append]
  congr 1
  · congr 1
    rw [List.filterMap_cons_none rfl, List.filterMap_cons,
      settingKey_settingLine (by decide) (isKey_bare written.key) (isKey_filled written.key),
      List.filterMap_cons, settingKey_settingLine (by decide) address.toBare address.filled]
    rfl
  · rw [List.filterMap_cons_none rfl, List.filterMap_cons_none rfl, List.filterMap_cons,
      settingKey_settingLine (by decide) written.peerBare.1 written.peerBare.2, List.filterMap_cons,
      settingKey_settingLine (by decide) written.plain.endpoint.1 written.plain.endpoint.2,
      List.filterMap_cons, settingKey_settingLine (by decide) (bare_join routes)
        (join_filled routes (routes_filled written.handed)),
      List.filterMap_cons, settingKey_settingLine (by decide) keepalive.toBare keepalive.filled]
    rfl

theorem readsBack
    : ReadsBack publicKeyFromPrivate privateKey name wg (endLines (managedLines privateKey wg)) :=
  ⟨written.validate_rendered, written.keys_rendered⟩

end Written

end Renders

-----------------------------------------------------------------------------------------
-- What reads back stays on its lines
-----------------------------------------------------------------------------------------

section Reads

variable {publicKeyFromPrivate : Text → Option Text} {progress next : Progress} {lineNo : Nat}
  {raw line key value : Text}

/-- The text is a key, without blanks around it. -/
def IsBareKey (text : Text) : Prop := isKey text = true ∧ trim text = text

/-- The public keys of the peers so far. -/
def Progress.peerKeys (progress : Progress) : List Text := progress.profile.peers.map (·.publicKey)

/-- What the check has put together comes from values of single lines. -/
structure FromLines (progress : Progress) : Prop where
  dns : ∀ entry ∈ progress.profile.dns, Item entry
  endpoint : Bare progress.profile.endpoint
  behind : ∀ key ∈ progress.peerKeys.dropLast, IsBareKey key
  last : (progress.inSection = .peer → progress.peerHasKey = true) →
    ∀ key ∈ progress.peerKeys, IsBareKey key

theorem bare_nil : Bare [] := ⟨rfl, List.not_mem_nil, List.not_mem_nil⟩

theorem fromLines_start (name : Text) : FromLines (.start name) where
  dns := by
    intro entry member
    cases member
  endpoint := bare_nil
  behind := by
    intro key member
    cases member
  last := by
    intro _ key member
    cases member

/-- A value's part, between commas. -/
theorem items_splitList (bare : Bare value) : ∀ item ∈ splitList value, Item item := by
  intro item member
  obtain ⟨member, filled⟩ := List.mem_filter.mp member
  obtain ⟨part, there, rfl⟩ := List.mem_map.mp member
  obtain ⟨alone, inside⟩ := of_mem_splitOn there
  refine ⟨⟨trimBy_idem, ?_, ?_⟩, by simpa using filled, ?_⟩
  · exact fun there => bare.uncommented (inside _ (mem_of_mem_trimBy there))
  · exact fun there => bare.whole (inside _ (mem_of_mem_trimBy there))
  · exact fun there => alone (mem_of_mem_trimBy there)

/-- A line that is accepted is blank, a header, or has a value that stays on it. -/
theorem readLine_cases (whole : '\n' ∉ raw)
    (accepted : progress.readLine publicKeyFromPrivate lineNo raw = .ok next)
    : next = progress ∨ (∃ line, progress.header lineNo line = .ok next)
      ∨ ∃ key value, Bare value
        ∧ progress.setting publicKeyFromPrivate lineNo raw key value = .ok next := by
  simp only [Progress.readLine] at accepted
  split at accepted
  · cases accepted
    exact Or.inl rfl
  · split at accepted
    · exact Or.inr (Or.inl ⟨_, accepted⟩)
    · split at accepted
      · cases accepted
      · next key value split =>
          refine Or.inr (Or.inr ⟨_, _, ?_, accepted⟩)
          have inside : ∀ char ∈ value, char ∈ raw.takeWhile (· ≠ '#') := by
            intro char member
            unfold splitOnce at split
            split at split
            · cases split
              have tail := List.mem_of_mem_drop member
              exact mem_of_mem_trimBy ((List.dropWhile_sublist _).subset tail)
            · cases split
          refine ⟨trimBy_idem, ?_, ?_⟩
          · intro member
            have kept := List.mem_takeWhile_imp (inside _ (mem_of_mem_trimBy member))
            simp at kept
          · intro member
            exact whole ((List.takeWhile_sublist _).subset (inside _ (mem_of_mem_trimBy member)))

namespace FromLines

/-- A section that may end has its key. -/
theorem keyed (from_ : FromLines progress) (closed : progress.close lineNo = .ok ())
    : ∀ key ∈ progress.peerKeys, IsBareKey key := by
  refine from_.last (fun inside => ?_)
  rw [Progress.close, if_pos inside, closePeer] at closed
  cases has : progress.peerHasKey with
  | true => rfl
  | false =>
      rw [has] at closed
      cases closed

theorem header (from_ : FromLines progress) (accepted : progress.header lineNo line = .ok next)
    : FromLines next := by
  obtain ⟨_, closed, opened⟩ := of_bind_ok accepted
  have keyed := from_.keyed closed
  simp only [Progress.openSection] at opened
  split at opened
  · cases opened
    exact ⟨from_.dns, from_.endpoint, from_.behind, fun _ => keyed⟩
  · split at opened
    · cases opened
      refine ⟨from_.dns, from_.endpoint, ?_, ?_⟩
      · simp only [Progress.peerKeys, List.map_append, List.map_cons, List.map_nil,
          List.dropLast_concat]
        exact keyed
      · intro has
        cases has rfl
    · cases opened

theorem interfaceSetting (from_ : FromLines progress) (bare : Bare value)
    (inside : progress.inSection = .interface)
    (accepted : progress.interfaceSetting publicKeyFromPrivate lineNo key value = .ok next)
    : FromLines next := by
  have keyed : ∀ key ∈ progress.peerKeys, IsBareKey key := by
    refine from_.last (fun other => ?_)
    rw [inside] at other
    cases other
  simp only [Progress.interfaceSetting] at accepted
  repeat' split at accepted
  all_goals
    cases accepted
    try exact ⟨from_.dns, from_.endpoint, from_.behind, fun _ => keyed⟩
  -- The DNS servers are the only list here that grows.
  refine ⟨?_, from_.endpoint, from_.behind, fun _ => keyed⟩
  exact List.forall_mem_append.mpr ⟨from_.dns, items_splitList bare⟩

/-- There is no peer to change, or the last one is changed. -/
theorem updatePeer_cases (progress : Progress) (change : PeerSummary → PeerSummary)
    : (progress.profile.peers = [] ∧ (progress.updatePeer change).profile.peers = [])
      ∨ ∃ front last, progress.profile.peers = front ++ [last]
        ∧ (progress.updatePeer change).profile.peers = front ++ [change last] := by
  unfold Progress.updatePeer
  rcases List.eq_nil_or_concat progress.profile.peers with nothing | ⟨front, last, some⟩
  · exact Or.inl ⟨nothing, by simp [nothing, List.modifyLast, List.modifyLast.go]⟩
  · rw [List.concat_eq_append] at some
    exact Or.inr ⟨front, last, some, by simp [some, List.modifyLast_concat]⟩

/-- The key of the peer that the section is about. -/
theorem publicKey (from_ : FromLines progress) (key : IsBareKey value)
    : FromLines { progress.updatePeer (fun peer => { peer with publicKey := value }) with
        peerHasKey := true } := by
  have behind := from_.behind
  rcases updatePeer_cases progress (fun peer => { peer with publicKey := value }) with
    ⟨_, nothing⟩ | ⟨front, last, some, changed⟩
  · refine ⟨from_.dns, from_.endpoint, ?_, fun _ => ?_⟩
    · simp [Progress.peerKeys, nothing]
    · simp [Progress.peerKeys, nothing]
  · simp only [Progress.peerKeys, some, List.map_append, List.map_cons, List.map_nil,
      List.dropLast_concat] at behind
    refine ⟨from_.dns, from_.endpoint, ?_, fun _ => ?_⟩
    · simpa only [Progress.peerKeys, changed, List.map_append, List.map_cons, List.map_nil,
        List.dropLast_concat] using behind
    · simp only [Progress.peerKeys, changed, List.map_append, List.map_cons, List.map_nil]
      exact List.forall_mem_append.mpr ⟨behind, by simpa using key⟩

/-- A change that leaves the keys of the peers. -/
theorem peerKeys_updatePeer {change : PeerSummary → PeerSummary}
    (keeps : ∀ peer, (change peer).publicKey = peer.publicKey)
    : (progress.updatePeer change).peerKeys = progress.peerKeys := by
  rcases updatePeer_cases progress change with ⟨nothing, left⟩ | ⟨front, last, some, changed⟩
  · simp [Progress.peerKeys, nothing, left]
  · simp [Progress.peerKeys, some, changed, keeps]

theorem of_sameKeys (from_ : FromLines progress) (keys : next.peerKeys = progress.peerKeys)
    (inSection : next.inSection = progress.inSection) (has : next.peerHasKey = progress.peerHasKey)
    (dns : next.profile.dns = progress.profile.dns) (endpoint : Bare next.profile.endpoint)
    : FromLines next where
  dns := by rw [dns]; exact from_.dns
  endpoint := endpoint
  behind := by rw [keys]; exact from_.behind
  last := by rw [keys, inSection, has]; exact from_.last

theorem peerSetting (from_ : FromLines progress) (bare : Bare value)
    (accepted : progress.peerSetting lineNo key value = .ok next)
    : FromLines next := by
  simp only [Progress.peerSetting] at accepted
  split at accepted
  · cases accepted
  split at accepted
  · split at accepted
    · cases accepted
    · next valid =>
        cases accepted
        exact from_.publicKey ⟨by simpa using valid, bare.trimmed⟩
  split at accepted
  · split at accepted
    · cases accepted
    · cases accepted
      exact from_
  split at accepted
  · cases accepted
    exact from_.of_sameKeys (peerKeys_updatePeer (fun _ => rfl)) rfl rfl rfl from_.endpoint
  split at accepted
  · cases accepted
    refine from_.of_sameKeys (peerKeys_updatePeer (fun _ => rfl)) rfl rfl rfl ?_
    simp only
    split
    · exact bare
    · exact from_.endpoint
  split at accepted
  · cases accepted
    exact from_.of_sameKeys (peerKeys_updatePeer (fun _ => rfl)) rfl rfl rfl from_.endpoint
  · cases accepted
    exact from_

theorem readLine (from_ : FromLines progress) (whole : '\n' ∉ raw)
    (accepted : progress.readLine publicKeyFromPrivate lineNo raw = .ok next)
    : FromLines next := by
  rcases readLine_cases whole accepted with rfl | ⟨line, opened⟩ | ⟨key, value, bare, set⟩
  · exact from_
  · exact from_.header opened
  · rw [Progress.setting] at set
    split at set
    · cases set
    · split at set
      · cases set
      · next inside => exact from_.interfaceSetting bare inside set
      · exact from_.peerSetting bare set

/-- By induction on the lines. -/
theorem readLines (from_ : FromLines progress) {read : List Text} (whole : Whole read)
    (accepted : Progress.readLines publicKeyFromPrivate progress lineNo read = .ok next)
    : FromLines next := by
  induction read generalizing progress lineNo with
  | nil =>
      cases accepted
      exact from_
  | cons first rest ih =>
      obtain ⟨after, one, others⟩ := of_bind_ok accepted
      exact ih (from_.readLine whole.cons.1 one) whole.cons.2 others

end FromLines

/-- What is read of any text at all stays on its lines. -/
theorem plain_of_readsBack {wg : ClientWireGuardConfig} {privateKey name text : Text}
    (reads : ReadsBack publicKeyFromPrivate privateKey name wg text)
    : Plain wg := by
  obtain ⟨progress, read, finished⟩ := of_bind_ok reads.profile
  have from_ := (fromLines_start name).readLines whole_lines read
  obtain ⟨_, closed, checked⟩ := of_bind_ok finished
  have keyed := from_.keyed closed
  have known : progress.profile = describedProfile publicKeyFromPrivate privateKey name wg
      ∧ progress.profile.endpoint ≠ [] := by
    repeat' split at checked
    all_goals try cases checked
    next filled => exact ⟨Except.ok.inj checked, filled⟩
  obtain ⟨described, filled⟩ := known
  have dns := from_.dns
  have endpoint := from_.endpoint
  rw [described] at dns endpoint filled
  rw [Progress.peerKeys, described] at keyed
  refine ⟨?_, keyed _ List.mem_cons_self, endpoint, filled⟩
  intro entry member
  exact dns _ (List.mem_map.mpr ⟨entry, member, rfl⟩)

end Reads

-----------------------------------------------------------------------------------------
-- The config of a session that the control plane has created
-----------------------------------------------------------------------------------------

/-- Whatever calls the control plane has served, the config of a session reads back exactly when its
strings are plain.
-/
theorem managed_config_reads_back {appState : AppState} {requests : List Request} {db : Db}
    {turns : List Turn} {call : Nat} {response : CreateSessionResponse}
    (answered : ((ControlPlane.start appState requests db).after turns).Answered call
      (.ok (.session response)))
    (publicKeyFromPrivate : Text → Option Text) {state : AgentState}
    (connected : state.wireguard = some response.wireguard) {privateKey : Text} (name : Text)
    (valid : isKey privateKey = true)
    : (∃ text, state.renderWgConfig privateKey = .ok text
        ∧ ReadsBack publicKeyFromPrivate privateKey name response.wireguard text)
      ↔ Plain response.wireguard := by
  constructor
  · intro rendered
    obtain ⟨text, _, reads⟩ := rendered
    exact plain_of_readsBack reads
  · intro plain
    have written : Written privateKey response.wireguard :=
      ⟨valid, ControlPlane.answered_ownTexts answered, plain⟩
    exact ⟨_, renderWgConfig_eq privateKey connected, written.readsBack⟩

/-- A network with a DNS server, a gateway for it and a session in it. -/
def networkAndSession (dnsServer : String) : List Request :=
  [.createNetwork 3 ⟨"lab", "10.8.1.0/24", [dnsServer], []⟩,
    .registerGateway ⟨4, "gateway-token"⟩
      ⟨"gw", String.ofList quickStartPublicKey, "vpn:51820", some 3, "enrol"⟩ none,
    .createSession ⟨6, 7⟩ 1 "ada@example.com" ⟨3, 2, []⟩]

/-- The small installation before it has a network. -/
def noNetworks : Db := { smallInstallation with networks := [], gateways := [] }

def sessionPlane (dnsServer : String) : ControlPlane :=
  (ControlPlane.start smallState (networkAndSession dnsServer) noNetworks).after
    (.run 0 :: List.replicate 3 (.run 1) ++ List.replicate 17 (.run 2))

/-- The agent with a session's config. -/
def connectedWith (wg : ClientWireGuardConfig) : AgentState :=
  { AgentState.default with wireguard := some wg }

theorem managed_config_reads_back_session
    : ∃ response text, (sessionPlane "9.9.9.9").Answered 2 (.ok (.session response))
        ∧ (connectedWith response.wireguard).renderWgConfig quickStartKey = .ok text
        ∧ ReadsBack quickStartPair quickStartKey "wsl".toList response.wireguard text := by
  have answered : ∃ response, (sessionPlane "9.9.9.9").Answered 2 (.ok (.session response))
      ∧ response.wireguard.dns = ["9.9.9.9"]
      ∧ response.wireguard.peerPublicKey = String.ofList quickStartPublicKey
      ∧ response.wireguard.peerEndpoint = "vpn:51820" := ⟨_, rfl, rfl, rfl, rfl⟩
  obtain ⟨response, answered, dns, peerKey, endpoint⟩ := answered
  have plain : Plain response.wireguard := by
    refine ⟨?_, ?_, ?_⟩
    · rw [dns]
      intro entry member
      rw [List.mem_singleton.mp member]
      exact ⟨⟨rfl, by decide, by decide⟩, by decide, by decide⟩
    · rw [peerKey, String.toList_ofList]
      exact ⟨rfl, rfl⟩
    · rw [endpoint]
      exact ⟨⟨rfl, by decide, by decide⟩, by decide⟩
  have connected : (connectedWith response.wireguard).wireguard = some response.wireguard := rfl
  have valid : isKey quickStartKey = true := rfl
  obtain ⟨text, rendered, reads⟩ :=
    (managed_config_reads_back answered quickStartPair connected "wsl".toList valid).mpr plain
  exact ⟨response, text, answered, rendered, reads⟩

/-- A DNS server with a second line: the config gets a command, which the check refuses. -/
theorem dns_server_adds_command
    : ∃ response text,
        (sessionPlane "9.9.9.9\nPostUp = reboot").Answered 2 (.ok (.session response))
        ∧ (connectedWith response.wireguard).renderWgConfig quickStartKey = .ok text
        ∧ "PostUp = reboot".toList ∈ lines text
        ∧ ¬ ReadsBack quickStartPair quickStartKey "wsl".toList response.wireguard text := by
  refine ⟨_, _, rfl, rfl, by decide, ?_⟩
  intro reads
  have item := (plain_of_readsBack reads).dns _ List.mem_cons_self
  exact item.whole (by decide)

end WslVpn.Agent
