import WslVpn.Separated.Trim
import WslVpn.Agent.Profile
import WslVpn.Agent.Tunnel

/-! The config that the agent renders for a session of the control plane, and how the check of imported
configs reads such lines.
-/

open Separated

namespace WslVpn.Agent

open Dns (Text trim lines dropReturn isWhitespace toAsciiLowercase)

/-- Render the `wg-quick` config for the current session. -/
def AgentState.renderWgConfig (state : AgentState) (privateKey : Text) : Except Text Text :=
  match state.wireguard with
  | none => .error "no wireguard config; connect first".toList
  | some wg =>
      -- An empty `DNS =` is not "no DNS" to every wg-quick, so the line is left out.
      let dns := if wg.dns.isEmpty then [] else
        "DNS = ".toList ++ join ", ".toList (wg.dns.map String.toList) ++ ['\n']
      .ok ("[Interface]\nPrivateKey = ".toList ++ trim privateKey ++ "\nAddress = ".toList
        ++ wg.interfaceAddress.toList ++ ['\n'] ++ dns ++ "\n[Peer]\nPublicKey = ".toList
        ++ wg.peerPublicKey.toList ++ "\nEndpoint = ".toList ++ wg.peerEndpoint.toList
        ++ "\nAllowedIPs = ".toList ++ join ", ".toList (wg.allowedIps.map String.toList)
        ++ "\nPersistentKeepalive = ".toList ++ decimal wg.persistentKeepalive ++ ['\n'])

-----------------------------------------------------------------------------------------
-- Lines with a setting
-----------------------------------------------------------------------------------------

def settingLine (label value : Text) : Text := label ++ ' ' :: '=' :: ' ' :: value

/-- The value can stand behind the equals sign of a line. -/
structure Bare (value : Text) : Prop where
  trimmed : trim value = value
  uncommented : '#' ∉ value
  whole : '\n' ∉ value

/-- The item can stand in a list behind the equals sign of a line. -/
structure Item (item : Text) : Prop extends Bare item where
  filled : item ≠ []
  alone : ',' ∉ item

/-- The label can stand in front of the equals sign of a line. -/
structure Label (label : Text) : Prop extends Bare label where
  filled : label ≠ []
  closed : label.head? ≠ some '['
  plain : '=' ∉ label

theorem trimmed_of_trim {text : Text} (same : trim text = text) : Trimmed isWhitespace text := by
  have ends : Trimmed isWhitespace (trim text) := trimmed_trimBy
  rwa [same] at ends

variable {publicKeyFromPrivate : Text → Option Text} {progress : Progress} {lineNo : Nat}
  {label value : Text}

theorem trim_settingLine (labelled : Label label) (bare : Bare value) (filled : value ≠ [])
    : trim (settingLine label value) = settingLine label value := by
  refine trimBy_of_trimmed ⟨?_, ?_⟩
  · intro char member
    rw [settingLine, List.head?_append_of_ne_nil _ labelled.filled] at member
    exact (trimmed_of_trim labelled.trimmed).head char member
  · intro char member
    have last : (settingLine label value).getLast? = value.getLast? := by
      rw [settingLine, List.getLast?_append_of_ne_nil _ (List.cons_ne_nil _ _)]
      change ([' ', '=', ' '] ++ value).getLast? = _
      exact List.getLast?_append_of_ne_nil _ filled
    rw [last] at member
    exact (trimmed_of_trim bare.trimmed).last char member

theorem splitOnce_settingLine (plain : '=' ∉ label)
    : splitOnce '=' (settingLine label value) = some (label ++ [' '], ' ' :: value) := by
  have passed : ∀ char ∈ label ++ [' '], (decide (char ≠ '=')) = true := by
    intro char member
    rw [decide_eq_true_eq]
    intro same
    subst same
    rcases List.mem_append.mp member with inside | inside
    · exact plain inside
    · exact absurd inside (by decide)
  have split : settingLine label value = (label ++ [' ']) ++ '=' :: ' ' :: value := by
    simp [settingLine]
  rw [splitOnce, if_pos (by simp [settingLine]), split, List.takeWhile_append_of_pos passed,
    List.dropWhile_append_of_pos passed]
  simp

/-- Such a line is neither blank nor a header, and has no comment. -/
theorem settingLine_read (labelled : Label label) (bare : Bare value) (filled : value ≠ [])
    : trim ((settingLine label value).takeWhile (· ≠ '#')) = settingLine label value
      ∧ settingLine label value ≠ [] ∧ (settingLine label value).head? ≠ some '[' := by
  have whole : (settingLine label value).takeWhile (· ≠ '#') = settingLine label value := by
    rw [List.takeWhile_eq_self_iff]
    intro char member
    rw [decide_eq_true_eq]
    intro same
    subst same
    rcases List.mem_append.mp member with inside | inside
    · exact labelled.uncommented inside
    · exact bare.uncommented (by simpa using inside)
  refine ⟨?_, by simp [settingLine], ?_⟩
  · rw [whole]
    exact trim_settingLine labelled bare filled
  · rw [settingLine, List.head?_append_of_ne_nil _ labelled.filled]
    exact labelled.closed

theorem trim_label (labelled : Label label) : trim (label ++ [' ']) = label := by
  have padded := @trimBy_pad Char isWhitespace label [] [' '] (by simp) (List.all_eq_true.mp rfl)
  exact padded.trans labelled.trimmed

/-- The check reads the label and the value of such a line. -/
theorem readLine_settingLine (labelled : Label label) (bare : Bare value) (filled : value ≠ [])
    : progress.readLine publicKeyFromPrivate lineNo (settingLine label value)
      = progress.setting publicKeyFromPrivate lineNo (settingLine label value) (toAsciiLowercase label)
        value := by
  obtain ⟨whole, line, opens⟩ := settingLine_read labelled bare filled
  have back : trim (' ' :: value) = value := by
    have padded := @trimBy_pad Char isWhitespace value [' '] [] (List.all_eq_true.mp rfl) (by simp)
    rw [List.append_nil] at padded
    exact padded.trans bare.trimmed
  rw [Progress.readLine, whole]
  simp only [if_neg line, if_neg opens, splitOnce_settingLine labelled.plain, trim_label labelled,
    back]

-----------------------------------------------------------------------------------------
-- Keys behind the equals sign
-----------------------------------------------------------------------------------------

section Keys

variable (valid : isKey value = true)
include valid

theorem isKey_symbols {char : Char} (member : char ∈ trim value)
    : (base64Value char).isSome ∨ char = '=' := by
  simp only [isKey, Bool.and_eq_true, decide_eq_true_eq, List.all_eq_true] at valid
  obtain ⟨⟨⟨_, symbols⟩, _⟩, last⟩ := valid
  rw [← List.take_append_drop 43 (trim value)] at member
  rcases List.mem_append.mp member with front | back
  · exact Or.inl (symbols char front)
  · rw [last] at back
    exact Or.inr (List.mem_singleton.mp back)

theorem isKey_bare : Bare (trim value) where
  trimmed := trimBy_idem
  uncommented := by
    intro member
    rcases isKey_symbols valid member with symbol | sign
    · cases symbol
    · cases sign
  whole := by
    intro member
    rcases isKey_symbols valid member with symbol | sign
    · cases symbol
    · cases sign

theorem isKey_filled : trim value ≠ [] := by
  intro nothing
  rw [isKey, nothing] at valid
  cases valid

end Keys

theorem isKey_trim : isKey (trim value) = isKey value := by
  unfold isKey
  have same : trim (trim value) = trim value := trimBy_idem
  rw [same]

-----------------------------------------------------------------------------------------
-- Lists behind the equals sign
-----------------------------------------------------------------------------------------

theorem splitList_blank (text : Text) : splitList (' ' :: text) = splitList text := by
  have padded (part : Text) : trim (' ' :: part) = trim part := by
    have same := @trimBy_pad Char isWhitespace part [' '] [] (List.all_eq_true.mp rfl) (by simp)
    rwa [List.append_nil] at same
  unfold splitList
  rw [List.splitOn_cons_eq_if_modifyHead, if_neg (by decide)]
  cases parts : text.splitOn ',' with
  | nil => rfl
  | cons first rest => simp [padded]

theorem splitList_item {item : Text} (clean : Item item) : splitList item = [item] := by
  unfold splitList
  rw [List.splitOn_eq_singleton clean.alone]
  simp [clean.trimmed, clean.filled]

theorem splitList_cons {item : Text} (clean : Item item) (rest : Text)
    : splitList (item ++ ',' :: rest) = item :: splitList rest := by
  unfold splitList
  rw [List.splitOn_append_cons_self_of_not_mem clean.alone]
  simp [clean.trimmed, clean.filled]

/-- Items are read back in their places, by induction on the list. -/
theorem splitList_join {items : List Text} (clean : ∀ item ∈ items, Item item)
    : splitList (join ", ".toList items) = items := by
  induction items with
  | nil => rfl
  | cons item rest ih =>
      obtain ⟨here, others⟩ := List.forall_mem_cons.mp clean
      cases rest with
      | nil =>
          have alone : join ", ".toList [item] = item := by simp [join_eq_flatMap]
          rw [alone]
          exact splitList_item here
      | cons next rest =>
          rw [join_cons (List.cons_ne_nil _ _)]
          have split : item ++ ", ".toList ++ join ", ".toList (next :: rest)
              = item ++ ',' :: ' ' :: join ", ".toList (next :: rest) := by
            rw [List.append_assoc]
            rfl
          rw [split, splitList_cons here, splitList_blank, ih others]

/-- Joined items can stand behind the equals sign. -/
theorem bare_join {items : List Text} (clean : ∀ item ∈ items, Item item)
    : Bare (join ", ".toList items) := by
  have without {char : Char} (outside : char ∉ ", ".toList) (none : ∀ item ∈ items, char ∉ item)
      : char ∉ join ", ".toList items := by
    intro member
    rcases mem_join member with between | ⟨item, there, inside⟩
    · exact outside between
    · exact none item there inside
  refine ⟨trimBy_of_trimmed ⟨?_, ?_⟩,
    without (by decide) (fun item there => (clean item there).uncommented),
    without (by decide) (fun item there => (clean item there).whole)⟩
  · intro char member
    cases items with
    | nil => cases member
    | cons first rest =>
        have here := clean first List.mem_cons_self
        rw [join_eq_flatMap, List.head?_append_of_ne_nil _ here.filled] at member
        exact (trimmed_of_trim here.trimmed).head char member
  · intro char member
    rcases List.eq_nil_or_concat items with rfl | ⟨front, last, rfl⟩
    · cases member
    · have here := clean last (by simp)
      rw [List.concat_eq_append, join_concat,
        List.getLast?_append_of_ne_nil _ here.filled] at member
      exact (trimmed_of_trim here.trimmed).last char member

theorem join_filled {items : List Text} (clean : ∀ item ∈ items, Item item) (some : items ≠ [])
    : join ", ".toList items ≠ [] := by
  obtain ⟨first, rest, rfl⟩ := List.exists_cons_of_ne_nil some
  rw [join_eq_flatMap]
  simp [(clean first List.mem_cons_self).filled]

-----------------------------------------------------------------------------------------
-- The lines of the rendered config
-----------------------------------------------------------------------------------------

def dnsLines (dns : List Text) : List Text :=
  if dns.isEmpty then [] else [settingLine "DNS".toList (join ", ".toList dns)]

/-- The rendered config, line by line. -/
def managedLines (privateKey : Text) (wg : ClientWireGuardConfig) : List Text :=
  ["[Interface]".toList, settingLine "PrivateKey".toList (trim privateKey),
    settingLine "Address".toList wg.interfaceAddress.toList]
  ++ dnsLines (wg.dns.map String.toList)
  ++ [[], "[Peer]".toList, settingLine "PublicKey".toList wg.peerPublicKey.toList,
    settingLine "Endpoint".toList wg.peerEndpoint.toList,
    settingLine "AllowedIPs".toList (join ", ".toList (wg.allowedIps.map String.toList)),
    settingLine "PersistentKeepalive".toList (decimal wg.persistentKeepalive)]

theorem renderWgConfig_eq {state : AgentState} {wg : ClientWireGuardConfig} (privateKey : Text)
    (connected : state.wireguard = some wg)
    : state.renderWgConfig privateKey = .ok (endLines (managedLines privateKey wg)) := by
  unfold AgentState.renderWgConfig
  rw [connected]
  simp only [managedLines, dnsLines, List.isEmpty_map]
  split <;> simp [endLines, settingLine]

end WslVpn.Agent
