import WslVpn.Gateway.Config
import WslVpn.Gateway.Firewall
import WslVpn.Gateway.Interface

/-! Applying a configuration on the gateway's host. Each external command may fail on its own; what it
answers is given, and a command that fails changes nothing.
-/

namespace WslVpn

open AddressSpace

-----------------------------------------------------------------------------------------
-- The host
-----------------------------------------------------------------------------------------

/-- How a command ends. -/
inductive CommandStatus where
  | notStarted
  | exited (success : Bool)
  deriving DecidableEq

/-- How a command that reads its standard input ends. -/
inductive ChildStatus where
  | notStarted
  | brokenPipe
  | exited (success : Bool)
  deriving DecidableEq

/-- What the external commands of one application answer. -/
structure HostAnswers where
  /-- `wg show <interface> dump`. -/
  dump : CommandStatus
  /-- `wg set <interface> listen-port <port> private-key /dev/stdin`. -/
  device : ChildStatus
  /-- The `wg set <interface> peer <publicKey> …` commands, counted from the first one on. -/
  set : Nat → String → CommandStatus
  /-- `nft -f -`. -/
  nft : ChildStatus

/-- A digit of base64 and its value. -/
def base64Digit (char : Char) : Option Nat :=
  if char.isUpper then some (char.toNat - 'A'.toNat)
  else if char.isLower then some (char.toNat - 'a'.toNat + 26)
  else if char.isDigit then some (char.toNat - '0'.toNat + 52)
  else if char = '+' then some 62
  else if char = '/' then some 63
  else none

/-- The text is base64 of 32 bytes: 43 digits, the last of them without spare bits, and a `=`. -/
def isWireGuardKey (text : String) : Bool :=
  match text.toList.reverse with
  | '=' :: last :: digits =>
      digits.length == 42 && (base64Digit last).any (fun value => value % 4 == 0)
        && digits.all (fun digit => (base64Digit digit).isSome)
  | _ => false

/-- What the gateway manages on its host. -/
structure Host where
  interface : Interface
  /-- The listen port and the private key that were written to the interface. -/
  device : Option (Nat × String)
  /-- The script that the gateway's table was loaded from. -/
  table : Option String

-----------------------------------------------------------------------------------------
-- The steps of an application
-----------------------------------------------------------------------------------------

inductive PeerCommand where
  | set (publicKey : String) (allowedIps : List String)
  | remove (publicKey : String)
  deriving DecidableEq

namespace PeerCommand

def publicKey : PeerCommand → String
  | set publicKey _ | remove publicKey => publicKey

def run (interface : Interface) : PeerCommand → Interface
  | set publicKey allowedIps => interface.set publicKey allowedIps
  | remove publicKey => interface.remove publicKey

end PeerCommand

inductive ApplyError where
  | invalidListenPort
  | missingPublicKey
  | missingAllowedIps
  | expiredPeer (peerId : Uuid)
  | adoptedInterface (interface : String)
  | privateKeyNotWritten
  | commandNotStarted (command : PeerCommand)
  | commandFailed (command : PeerCommand)
  deriving DecidableEq

/-- A peer that is fit to be set at the time `now`. -/
def checkPeer (now : Timestamp) (peer : GatewayPeer) : Except ApplyError Unit :=
  if peer.publicKey.isEmpty then .error .missingPublicKey
  else if peer.allowedIps.isEmpty then .error .missingAllowedIps
  else if peer.expiresAt < now then .error (.expiredPeer peer.peerId)
  else .ok ()

/-- The clock is read once for each peer. -/
def checkPeers (clock : Nat → Timestamp) : List GatewayPeer → Except ApplyError Unit
  | [] => .ok ()
  | peer :: rest =>
      match checkPeer (clock 0) peer with
      | .error error => .error error
      | .ok () => checkPeers (fun reading => clock (reading + 1)) rest

def checkConfig (clock : Nat → Timestamp) (config : GatewayConfig) : Except ApplyError Unit :=
  if config.listenPort = 0 then .error .invalidListenPort else checkPeers clock config.peers

/-- The peers of the interface. Where they cannot be read, the view is empty. -/
def livePeers (dump : CommandStatus) (interface : Interface) : List LivePeer :=
  match dump with
  | .exited true => interface.peers
  | .exited false | .notStarted => []

/-- The interface is created if need be, whether or not that works; the key is written to it where
there is one.
-/
def ensureInterface (device : ChildStatus) (config : GatewayConfig) (privateKey : Option String)
    (host : Host) : Except ApplyError Unit × Host :=
  match privateKey, device with
  | none, _ | some _, .notStarted | some _, .exited false => (.ok (), host)
  | some _, .brokenPipe => (.error .privateKeyNotWritten, host)
  | some key, .exited true => (.ok (), { host with device := some (config.listenPort, key) })

/-- An adopted interface is left as it is, apart from its peers. -/
def prepareInterface (cfg : GatewayConfigFile) (device : ChildStatus) (config : GatewayConfig)
    (privateKey : Option String) (host : Host) : Except ApplyError Unit × Host :=
  if cfg.wireguard.adoptExisting then
    if privateKey.isSome then (.error (.adoptedInterface cfg.wireguard.interface), host)
    else (.ok (), host)
  else ensureInterface device config privateKey host

/-- The commands of a plan in their order. -/
def ReconcilePlan.commands (plan : ReconcilePlan) : List PeerCommand :=
  (plan.add ++ plan.update).map (fun peer => .set peer.publicKey peer.allowedIps)
  ++ plan.remove.map .remove

/-- One command after another; the first one that fails ends the application. -/
def runCommands (answer : Nat → String → CommandStatus) (count : Nat)
    : List PeerCommand → Interface → Except ApplyError Unit × Interface
  | [], interface => (.ok (), interface)
  | command :: rest, interface =>
      match answer count command.publicKey with
      | .notStarted => (.error (.commandNotStarted command), interface)
      | .exited false => (.error (.commandFailed command), interface)
      | .exited true => runCommands answer (count + 1) rest (command.run interface)

/-- The table is replaced as a whole, or it stays as it was. -/
def applyFirewall (nft : ChildStatus) (config : GatewayConfig) (managed : Option IpNetwork)
    (table : Option String) : Option String :=
  match render config.services config.routes (managed.map networkText) with
  | none => table
  | some script =>
      match nft with
      | .exited true => some script
      | .exited false | .brokenPipe | .notStarted => table

/-- The number of peers that are expected on the wire, and what has become of the host. -/
def applyConfig (cfg : GatewayConfigFile) (clock : Nat → Timestamp) (answers : HostAnswers)
    (config : GatewayConfig) (privateKey : Option String) (host : Host)
    : Except ApplyError Nat × Host :=
  match checkConfig clock config with
  | .error error => (.error error, host)
  | .ok () =>
      let managed := cfg.managedRange config.privateNetworkCidr
      let plan := plan config.peers (livePeers answers.dump host.interface) managed
      if !cfg.wireguard.manageInterface then (.ok plan.desiredCount, host)
      else
        match prepareInterface cfg answers.device config privateKey host with
        | (.error error, host) => (.error error, host)
        | (.ok (), host) =>
            let (ran, interface) :=
              if plan.isNoop then (.ok (), host.interface)
              else runCommands answers.set 0 plan.commands host.interface
            match ran with
            | .error error => (.error error, { host with interface })
            | .ok () =>
                let table := applyFirewall answers.nft config managed host.table
                (.ok plan.desiredCount, { host with interface, table })

-----------------------------------------------------------------------------------------
-- What an application comes to
-----------------------------------------------------------------------------------------

/-- What `checkPeer` asks of a peer. -/
structure Fit (now : Timestamp) (peer : GatewayPeer) : Prop where
  key : peer.publicKey ≠ ""
  addresses : peer.allowedIps ≠ []
  lasts : now ≤ peer.expiresAt

/-- What has to be in order before the first command for a peer is given. -/
structure Starts (cfg : GatewayConfigFile) (clock : Nat → Timestamp) (device : ChildStatus)
    (config : GatewayConfig) (privateKey : Option String) : Prop where
  manages : cfg.wireguard.manageInterface = true
  port : config.listenPort ≠ 0
  peers : ∀ index peer, config.peers[index]? = some peer → Fit (clock index) peer
  adopted : cfg.wireguard.adoptExisting = true → privateKey = none
  written : cfg.wireguard.adoptExisting = false → privateKey ≠ none → device ≠ .brokenPipe

section Checks

variable {cfg : GatewayConfigFile} {clock : Nat → Timestamp} {device : ChildStatus}
  {config : GatewayConfig} {privateKey : Option String} {host : Host}

theorem checkPeer_ok {now : Timestamp} {peer : GatewayPeer}
    : checkPeer now peer = .ok () ↔ Fit now peer := by
  unfold checkPeer
  split
  · rename_i empty
    refine iff_of_false (fun ok => by cases ok) ?_
    exact fun fit => fit.key (String.isEmpty_iff.mp empty)
  · rename_i named
    split
    · rename_i empty
      refine iff_of_false (fun ok => by cases ok) ?_
      exact fun fit => fit.addresses (List.isEmpty_iff.mp empty)
    · rename_i addressed
      split
      · rename_i past
        refine iff_of_false (fun ok => by cases ok) ?_
        exact fun fit => absurd past (not_lt.mpr fit.lasts)
      · rename_i lasts
        refine iff_of_true rfl ⟨?_, ?_, not_lt.mp lasts⟩
        · exact fun empty => named (String.isEmpty_iff.mpr empty)
        · exact fun empty => addressed (List.isEmpty_iff.mpr empty)

/-- All peers are fit, each one at its own reading of the clock. By induction on the peers. -/
theorem checkPeers_ok {peers : List GatewayPeer}
    : checkPeers clock peers = .ok ()
      ↔ ∀ index peer, peers[index]? = some peer → Fit (clock index) peer := by
  induction peers generalizing clock with
  | nil => simp [checkPeers]
  | cons first rest ih =>
      have split : (∀ index peer, (first :: rest)[index]? = some peer → Fit (clock index) peer)
          ↔ Fit (clock 0) first
            ∧ ∀ index peer, rest[index]? = some peer → Fit (clock (index + 1)) peer := by
        constructor
        · intro all
          exact ⟨all 0 first rfl, fun index peer found => all (index + 1) peer found⟩
        · rintro ⟨head, tail⟩ (_ | index) peer found
          · cases found
            exact head
          · exact tail index peer found
      rw [split, ← ih, ← checkPeer_ok, checkPeers]
      cases checked : checkPeer (clock 0) first with
      | error error => simp
      | ok checked => simp

theorem checkConfig_ok
    : checkConfig clock config = .ok ()
      ↔ config.listenPort ≠ 0
        ∧ ∀ index peer, config.peers[index]? = some peer → Fit (clock index) peer := by
  unfold checkConfig
  split
  · rename_i zero
    exact iff_of_false (fun ok => by cases ok) (fun checked => checked.1 zero)
  · rename_i port
    rw [checkPeers_ok, and_iff_right port]

theorem prepareInterface_ok
    : (prepareInterface cfg device config privateKey host).1 = .ok ()
      ↔ (cfg.wireguard.adoptExisting = true → privateKey = none)
        ∧ (cfg.wireguard.adoptExisting = false → privateKey ≠ none → device ≠ .brokenPipe) := by
  unfold prepareInterface ensureInterface
  cases cfg.wireguard.adoptExisting with
  | true => cases privateKey <;> simp
  | false =>
      cases privateKey with
      | none => simp
      | some key =>
          cases device with
          | exited success => cases success <;> simp
          | _ => simp

/-- The peers and the table are left alone. -/
theorem prepareInterface_keeps
    : (prepareInterface cfg device config privateKey host).2.interface = host.interface
      ∧ (prepareInterface cfg device config privateKey host).2.table = host.table := by
  unfold prepareInterface ensureInterface
  repeat' split
  all_goals exact ⟨rfl, rfl⟩

end Checks

section Commands

variable {answer : Nat → String → CommandStatus} {count : Nat} {commands : List PeerCommand}
  {interface : Interface}

/-- The commands that were taken are the first ones, up to one that failed. -/
structure Ran (answer : Nat → String → CommandStatus) (count : Nat) (commands : List PeerCommand)
    (interface : Interface) (taken : List PeerCommand) : Prop where
  first : taken <+: commands
  reached : (runCommands answer count commands interface).2 = taken.foldl PeerCommand.run interface
  worked
    : ∀ index command, taken[index]? = some command
        → answer (count + index) command.publicKey = .exited true
  ended
    : ((runCommands answer count commands interface).1 = .ok () ∧ taken = commands)
      ∨ ∃ error command, (runCommands answer count commands interface).1 = .error error
          ∧ commands[taken.length]? = some command
          ∧ answer (count + taken.length) command.publicKey ≠ .exited true

/-- By induction on the commands. -/
theorem runCommands_ran : ∃ taken, Ran answer count commands interface taken := by
  induction commands generalizing count interface with
  | nil => exact ⟨[], List.prefix_rfl, rfl, by simp, Or.inl ⟨rfl, rfl⟩⟩
  | cons command rest ih =>
      cases status : answer count command.publicKey with
      | notStarted =>
          have stops : runCommands answer count (command :: rest) interface
              = (.error (.commandNotStarted command), interface) := by
            rw [runCommands, status]
          refine ⟨[], List.nil_prefix, by rw [stops]; rfl, by simp, ?_⟩
          refine Or.inr ⟨_, command, by rw [stops], rfl, ?_⟩
          rw [List.length_nil, Nat.add_zero, status]
          nofun
      | exited success =>
          cases success with
          | false =>
              have stops : runCommands answer count (command :: rest) interface
                  = (.error (.commandFailed command), interface) := by
                rw [runCommands, status]
              refine ⟨[], List.nil_prefix, by rw [stops]; rfl, by simp, ?_⟩
              refine Or.inr ⟨_, command, by rw [stops], rfl, ?_⟩
              rw [List.length_nil, Nat.add_zero, status]
              nofun
          | true =>
              have continues : runCommands answer count (command :: rest) interface
                  = runCommands answer (count + 1) rest (command.run interface) := by
                rw [runCommands, status]
              obtain ⟨taken, ran⟩ := @ih (count + 1) (command.run interface)
              refine ⟨command :: taken, ?_, ?_, ?_, ?_⟩
              · exact List.cons_prefix_cons.mpr ⟨rfl, ran.first⟩
              · rw [continues, ran.reached]
                rfl
              · rintro (_ | index) other found
                · cases found
                  exact status
                · rw [← Nat.add_assoc, Nat.add_right_comm]
                  exact ran.worked index other found
              · rw [continues]
                rcases ran.ended with ⟨ok, rfl⟩ | ⟨error, other, failed, found, refused⟩
                · exact Or.inl ⟨ok, rfl⟩
                · refine Or.inr ⟨error, other, failed, found, ?_⟩
                  rwa [List.length_cons, ← Nat.add_assoc, Nat.add_right_comm]

/-- A run that is stopped gave only commands that stand before a refused one. -/
theorem Ran.before_refused {first second taken : List PeerCommand}
    (ran : Ran answer count (first ++ second) interface taken)
    (failed : (runCommands answer count (first ++ second) interface).1 ≠ .ok ())
    (fine : ∀ command ∈ second, ∀ index, answer index command.publicKey = .exited true)
    : ∀ command ∈ taken, command ∈ first := by
  rcases ran.ended with ⟨ok, _⟩ | ⟨_, command, _, found, refused⟩
  · exact absurd ok failed
  · have within : taken.length < first.length := by
      by_contra beyond
      rw [List.getElem?_append_right (not_lt.mp beyond)] at found
      exact refused (fine command (List.mem_of_getElem? found) _)
    intro given member
    rw [List.prefix_iff_eq_take.mp ran.first, List.take_append_of_le_length within.le] at member
    exact List.mem_of_mem_take member

/-- Where the commands end well, all of them were taken. -/
theorem runCommands_ok (ok : (runCommands answer count commands interface).1 = .ok ())
    : (runCommands answer count commands interface).2
      = commands.foldl PeerCommand.run interface := by
  obtain ⟨taken, ran⟩ := @runCommands_ran answer count commands interface
  rcases ran.ended with ⟨_, rfl⟩ | ⟨error, _, failed, _⟩
  · exact ran.reached
  · rw [failed] at ok
    cases ok

end Commands

section Application

variable {cfg : GatewayConfigFile} {clock : Nat → Timestamp} {answers : HostAnswers}
  {config : GatewayConfig} {privateKey : Option String} {host : Host}

theorem commands_of_noop {plan : ReconcilePlan} (noop : plan.isNoop = true)
    : plan.commands = [] := by
  simp only [ReconcilePlan.isNoop, Bool.and_eq_true, List.isEmpty_iff] at noop
  simp [ReconcilePlan.commands, noop]

/-- The commands of a plan do what the plan says. -/
theorem foldl_commands (plan : ReconcilePlan) (interface : Interface)
    : plan.commands.foldl PeerCommand.run interface = interface.execute plan := by
  simp only [ReconcilePlan.commands, Interface.execute, List.foldl_append, List.foldl_map]
  rfl

/-- An application that does not start leaves the peers and the table as they were. -/
theorem applyConfig_idle (idle : ¬ Starts cfg clock answers.device config privateKey)
    : (applyConfig cfg clock answers config privateKey host).2.interface = host.interface
      ∧ (applyConfig cfg clock answers config privateKey host).2.table = host.table
      ∧ (cfg.wireguard.manageInterface = true
        → ∃ error, (applyConfig cfg clock answers config privateKey host).1 = .error error) := by
  unfold applyConfig
  cases checked : checkConfig clock config with
  | error error => exact ⟨rfl, rfl, fun _ => ⟨error, rfl⟩⟩
  | ok passed =>
      obtain ⟨port, peers⟩ := checkConfig_ok.mp checked
      cases manages : cfg.wireguard.manageInterface with
      | false => exact ⟨rfl, rfl, fun managed => by cases managed⟩
      | true =>
          obtain ⟨keptPeers, keptTable⟩ :=
            @prepareInterface_keeps cfg answers.device config privateKey host
          cases prepared : prepareInterface cfg answers.device config privateKey host with
          | mk result after =>
              rw [prepared] at keptPeers keptTable
              cases result with
              | error error =>
                  refine ⟨?_, ?_, fun _ => ⟨error, ?_⟩⟩ <;> simp_all
              | ok ready =>
                  have ready := prepareInterface_ok.mp (congrArg Prod.fst prepared)
                  exact absurd ⟨manages, port, peers, ready.1, ready.2⟩ idle

/-- An application that starts is the run of its commands, and the firewall after them. -/
theorem applyConfig_started (starts : Starts cfg clock answers.device config privateKey)
    : let managed := cfg.managedRange config.privateNetworkCidr
      let plan := plan config.peers (livePeers answers.dump host.interface) managed
      let run := runCommands answers.set 0 plan.commands host.interface
      let applied := applyConfig cfg clock answers config privateKey host
      applied.2.interface = run.2
      ∧ (run.1 = .ok () → applied.1 = .ok plan.desiredCount
          ∧ applied.2.table = applyFirewall answers.nft config managed host.table)
      ∧ ∀ error, run.1 = .error error
        → applied.1 = .error error ∧ applied.2.table = host.table := by
  intro managed plan run applied
  have checked : checkConfig clock config = .ok () := checkConfig_ok.mpr ⟨starts.port, starts.peers⟩
  have ready : (prepareInterface cfg answers.device config privateKey host).1 = .ok () :=
    prepareInterface_ok.mpr ⟨starts.adopted, starts.written⟩
  obtain ⟨keptPeers, keptTable⟩ := @prepareInterface_keeps cfg answers.device config privateKey host
  have same : (if plan.isNoop then (.ok (), host.interface)
      else runCommands answers.set 0 plan.commands host.interface) = run := by
    by_cases noop : plan.isNoop = true
    · rw [if_pos noop]
      simp only [run, commands_of_noop noop]
      rfl
    · rw [if_neg noop]
  have unfolded : applied = match run.1 with
      | .error error => (.error error,
          { (prepareInterface cfg answers.device config privateKey host).2 with interface := run.2 })
      | .ok () => (.ok plan.desiredCount,
          { (prepareInterface cfg answers.device config privateKey host).2 with
            interface := run.2
            table := applyFirewall answers.nft config managed host.table }) := by
    simp only [applied, applyConfig, checked, starts.manages]
    cases prepared : prepareInterface cfg answers.device config privateKey host with
    | mk result after =>
        rw [prepared] at ready keptPeers keptTable
        cases ready
        simp only [Bool.not_true, Bool.false_eq_true, if_false] at *
        rw [keptPeers, keptTable, same]
  rw [unfolded]
  cases ended : run.1 with
  | error error =>
      refine ⟨rfl, (fun ok => by cases ok), ?_⟩
      rintro _ ⟨⟩
      exact ⟨rfl, keptTable⟩
  | ok ran => exact ⟨rfl, fun _ => ⟨rfl, rfl⟩, fun error failed => by cases failed⟩

end Application

end WslVpn
