import WslVpn.Gateway.Properties.AppliedVersion
import WslVpn.Gateway.Properties.PlanExact

/-! Whether leases end on the interface. The gateway looks at the expiry of a peer only when it applies a
new version, so a peer goes when such a version comes without it, and not when its time has come.
-/

namespace WslVpn

open AddressSpace Interleaving

/-- One turn of the loop and the time at which it is over. -/
structure TimedCycle extends Cycle where
  finished : Timestamp

/-- The loop takes the configuration up: the commands for its peers begin. -/
structure TakesUp (cfg : GatewayConfigFile) (privateKey : Option String) (state : LoopState)
    (cycle : Cycle) (config : GatewayConfig) : Prop where
  answered : cycle.response = .answered config
  new : config.version ≠ state.lastVersion
  unexpired : cycle.now ≤ config.expiresAt
  starts : Starts cfg cycle.clock cycle.answers.device config privateKey

/-- The commands that a configuration leads to. -/
def peerCommands (cfg : GatewayConfigFile) (host : Host) (answers : HostAnswers)
    (config : GatewayConfig) : List PeerCommand :=
  (plan config.peers (livePeers answers.dump host.interface)
    (cfg.managedRange config.privateNetworkCidr)).commands

-----------------------------------------------------------------------------------------
-- The peers on the interface
-----------------------------------------------------------------------------------------

section Commands

variable {commands : List PeerCommand} {interface : Interface} {wired : LivePeer}

/-- Where the addresses of a peer come from: from the last command for its key, or from before, and then no
command is for its key or takes one of them. By induction on the commands from the last one on.
-/
theorem origin_foldl (there : wired ∈ (commands.foldl PeerCommand.run interface).peers)
    : (∃ allowed, .set wired.publicKey allowed ∈ commands
        ∧ allowedSlots wired.allowedIps ⊆ allowedSlots allowed)
      ∨ ∃ old ∈ interface.peers, old.publicKey = wired.publicKey
        ∧ allowedSlots wired.allowedIps ⊆ allowedSlots old.allowedIps
        ∧ ∀ key allowed, .set key allowed ∈ commands →
            key ≠ wired.publicKey
            ∧ Disjoint (allowedSlots wired.allowedIps) (allowedSlots allowed) := by
  induction commands using List.reverseRecOn generalizing wired with
  | nil => exact Or.inr ⟨wired, there, rfl, subset_rfl, by simp⟩
  | append_singleton commands command ih =>
      rw [List.foldl_append, List.foldl_cons, List.foldl_nil] at there
      cases command with
      | set key allowed =>
          rcases Interface.mem_setPeers.mp there with rfl | ⟨reached, reachedThere, other, rfl⟩
          · exact Or.inl ⟨allowed, by simp, (allowedSlots_shown allowed).subset⟩
          · have less : allowedSlots (Interface.without allowed reached).allowedIps
                ⊆ allowedSlots reached.allowedIps := by
              rw [Interface.allowedSlots_without]
              exact Set.sdiff_subset
            rcases ih reachedThere with ⟨former, set, within⟩ | ⟨old, oldThere, own, within, apart⟩
            · exact Or.inl ⟨former, List.mem_append_left _ set, less.trans within⟩
            · refine Or.inr ⟨old, oldThere, own, less.trans within, ?_⟩
              intro given taken member
              rcases List.mem_append.mp member with earlier | last
              · obtain ⟨different, disjoint⟩ := apart given taken earlier
                exact ⟨different, disjoint.mono_left less⟩
              · cases List.mem_singleton.mp last
                rw [Interface.allowedSlots_without]
                exact ⟨Ne.symm other, Set.disjoint_sdiff_left⟩
      | remove key =>
          have reachedThere := List.mem_of_mem_filter there
          rcases ih reachedThere with ⟨former, set, within⟩ | ⟨old, oldThere, own, within, apart⟩
          · exact Or.inl ⟨former, List.mem_append_left _ set, within⟩
          · refine Or.inr ⟨old, oldThere, own, within, ?_⟩
            intro given taken member
            rcases List.mem_append.mp member with earlier | last
            · exact apart given taken earlier
            · cases List.mem_singleton.mp last

/-- The peers that a plan sets are desired. -/
theorem desired_of_set {desired : List GatewayPeer} {view : List LivePeer} {managed : Option IpNetwork}
    {key : String} {allowed : List String}
    (set : .set key allowed ∈ (plan desired view managed).commands)
    : ∃ peer ∈ desired, peer.publicKey = key ∧ peer.allowedIps = allowed := by
  rcases List.mem_append.mp set with given | other
  · obtain ⟨peer, member, same⟩ := List.mem_map.mp given
    cases same
    exact ⟨peer, commanded_desired member, rfl, rfl⟩
  · obtain ⟨_, _, ⟨⟩⟩ := List.mem_map.mp other

/-- The keys that a plan is about are desired or were seen. -/
theorem known_of_command {desired : List GatewayPeer} {view : List LivePeer}
    {managed : Option IpNetwork} {command : PeerCommand}
    (member : command ∈ (plan desired view managed).commands)
    : (∃ peer ∈ desired, peer.publicKey = command.publicKey)
      ∨ ∃ peer ∈ view, peer.publicKey = command.publicKey := by
  cases command with
  | set key allowed =>
      obtain ⟨peer, wanted, own, _⟩ := desired_of_set member
      exact Or.inl ⟨peer, wanted, own⟩
  | remove key =>
      rcases List.mem_append.mp member with given | listed
      · obtain ⟨_, _, ⟨⟩⟩ := List.mem_map.mp given
      · obtain ⟨removed, there, ⟨⟩⟩ := List.mem_map.mp listed
        obtain ⟨peer, seen, own, _⟩ := mem_plan_remove.mp there
        exact Or.inr ⟨peer, seen, own⟩

end Commands

-----------------------------------------------------------------------------------------
-- Leases
-----------------------------------------------------------------------------------------

section Leases

variable (cfg : GatewayConfigFile) (privateKey : Option String) (start : LoopState)

/-- The loop after some timed turns. -/
def LoopState.after (turns : List TimedCycle) : LoopState :=
  start.run cfg privateKey (turns.map (·.toCycle))

/-- The last configuration that the loop has taken up with such a peer in it. -/
inductive Gave (which : GatewayPeer → Prop) : List TimedCycle → GatewayConfig → Prop where
  | now {turns : List TimedCycle} {turn : TimedCycle} {config : GatewayConfig}
      : TakesUp cfg privateKey (start.after cfg privateKey turns) turn.toCycle config
        → (∃ peer ∈ config.peers, which peer)
        → Gave which (turns ++ [turn]) config
  | before {turns : List TimedCycle} {turn : TimedCycle} {config : GatewayConfig}
      : Gave which turns config
        → (∀ other, TakesUp cfg privateKey (start.after cfg privateKey turns) turn.toCycle other
            → ∀ peer ∈ other.peers, ¬ which peer)
        → Gave which (turns ++ [turn]) config

/-- What was given last to such peers is over. -/
def Lapsed (turns : List TimedCycle) (now : Timestamp) (which : GatewayPeer → Prop) : Prop :=
  ∃ config, Gave cfg privateKey start which turns config
    ∧ ∀ peer ∈ config.peers, which peer → peer.expiresAt < now

/-- The peer is one of the key. -/
def OfKey (publicKey : String) (peer : GatewayPeer) : Prop := peer.publicKey = publicKey

/-- The peer is one of the key and has the address. -/
def OfAddress (publicKey : String) (slot : AllowedIp) (peer : GatewayPeer) : Prop :=
  peer.publicKey = publicKey ∧ slot ∈ allowedSlots peer.allowedIps

/-- When the turn is over, no peer that was given is on the interface past its expiry: neither a key all of
whose leases are over, nor an address of a key all of whose leases of the address are.
-/
structure EndsInTime (before : List TimedCycle) (turn : TimedCycle) : Prop where
  keys
    : ∀ wired ∈ (start.after cfg privateKey (before ++ [turn])).host.interface.peers,
        ¬ Lapsed cfg privateKey start (before ++ [turn]) turn.finished (OfKey wired.publicKey)
  addresses
    : ∀ wired ∈ (start.after cfg privateKey (before ++ [turn])).host.interface.peers,
        ∀ slot ∈ allowedSlots wired.allowedIps,
          ¬ Lapsed cfg privateKey start (before ++ [turn]) turn.finished
            (OfAddress wired.publicKey slot)

/-- The dump can be read, and `wg` takes each command for a key that is desired or on the interface. -/
structure Obeyed (interface : Interface) (config : GatewayConfig) (answers : HostAnswers) : Prop where
  dump : answers.dump = .exited true
  set
    : ∀ index key,
        (∃ peer ∈ config.peers, peer.publicKey = key) ∨ (∃ peer ∈ interface.peers, peer.publicKey = key)
          → answers.set index key = .exited true

/-- The peer lies in the range in effect. -/
def Removable (config : GatewayConfig) (wired : LivePeer) : Prop :=
  ∃ range, cfg.managedRange config.privateNetworkCidr = some range ∧ InRange wired range

/-- The turn takes nothing up that is over before it is. A peer that is on the interface while all leases of
its key are over gets a new version that is carried out and whose range it lies in; and so it is with an
address whose leases are over, unless the new version lists the key, without the address, or the address
with another key.
-/
structure Withdraws (before : List TimedCycle) (turn : TimedCycle) : Prop where
  lasting
    : ∀ config, TakesUp cfg privateKey (start.after cfg privateKey before) turn.toCycle config →
        ∀ peer ∈ config.peers, turn.finished ≤ peer.expiresAt
  keys
    : ∀ wired ∈ (start.after cfg privateKey before).host.interface.peers,
        Lapsed cfg privateKey start (before ++ [turn]) turn.finished (OfKey wired.publicKey) →
          ∃ config, TakesUp cfg privateKey (start.after cfg privateKey before) turn.toCycle config
            ∧ Obeyed (start.after cfg privateKey before).host.interface config turn.answers
            ∧ Removable cfg config wired
  addresses
    : ∀ wired ∈ (start.after cfg privateKey before).host.interface.peers,
        ∀ slot ∈ allowedSlots wired.allowedIps,
          Lapsed cfg privateKey start (before ++ [turn]) turn.finished
              (OfAddress wired.publicKey slot) →
            ∃ config, TakesUp cfg privateKey (start.after cfg privateKey before) turn.toCycle config
              ∧ Obeyed (start.after cfg privateKey before).host.interface config turn.answers
              ∧ (Removable cfg config wired
                ∨ ∃ peer ∈ config.peers, peer.publicKey = wired.publicKey
                    ∨ slot ∈ allowedSlots peer.allowedIps)

end Leases

section Loop

variable {cfg : GatewayConfigFile} {privateKey : Option String} {state start : LoopState}
  {cycle : Cycle} {config : GatewayConfig}

/-- Where a configuration is taken up, the interface is that of the commands that were taken. -/
theorem TakesUp.interface (taken : TakesUp cfg privateKey state cycle config)
    : ∃ commands, Ran cycle.answers.set 0 (peerCommands cfg state.host cycle.answers config)
          state.host.interface commands
        ∧ (state.iterate cfg privateKey cycle).host.interface
          = commands.foldl PeerCommand.run state.host.interface := by
  obtain ⟨commands, ran⟩ := @runCommands_ran cycle.answers.set 0
    (peerCommands cfg state.host cycle.answers config) state.host.interface
  refine ⟨commands, ran, ?_⟩
  obtain ⟨reached, _⟩ :=
    @applyConfig_started cfg cycle.clock cycle.answers config privateKey state.host taken.starts
  have same : (state.iterate cfg privateKey cycle).host
      = (applyConfig cfg cycle.clock cycle.answers config privateKey state.host).2 := by
    unfold LoopState.iterate
    rw [taken.answered]
    dsimp only
    rw [if_pos taken.new, if_neg (not_lt.mpr taken.unexpired)]
    split
    · rename_i result
      rw [result]
    · rename_i result
      rw [result]
  rw [same, reached]
  exact ran.reached

/-- A turn that takes up no configuration leaves the peers as they were. -/
theorem iterate_idle (idle : ∀ config, ¬ TakesUp cfg privateKey state cycle config)
    : (state.iterate cfg privateKey cycle).host.interface = state.host.interface := by
  unfold LoopState.iterate
  split
  · rfl
  · rfl
  · rename_i config answered
    split
    · rename_i new
      split
      · rfl
      · rename_i unexpired
        have idleHere : ¬ Starts cfg cycle.clock cycle.answers.device config privateKey :=
          fun starts => idle config ⟨answered, new, not_lt.mp unexpired, starts⟩
        obtain ⟨kept, _⟩ :=
          @applyConfig_idle cfg cycle.clock cycle.answers config privateKey state.host idleHere
        split
        · rename_i result
          rw [result] at kept
          exact kept
        · rename_i result
          rw [result] at kept
          exact kept
    · rfl

/-- Where `wg` takes the commands, all of them are taken. -/
theorem Obeyed.all {host : Host} {answers : HostAnswers} {commands : List PeerCommand}
    (obeyed : Obeyed host.interface config answers)
    (ran : Ran answers.set 0 (peerCommands cfg host answers config) host.interface commands)
    : commands = (plan config.peers host.interface.peers
        (cfg.managedRange config.privateNetworkCidr)).commands := by
  have view : livePeers answers.dump host.interface = host.interface.peers := by
    rw [obeyed.dump]
    rfl
  rw [peerCommands, view] at ran
  rcases ran.ended with ⟨_, all⟩ | ⟨_, command, _, found, refused⟩
  · exact all
  · exact absurd (obeyed.set _ _ (known_of_command (List.mem_of_getElem? found))) refused

/-- The turns of a configuration that was given last. -/
theorem Gave.cases_last {which : GatewayPeer → Prop} {turns : List TimedCycle} {turn : TimedCycle}
    (gave : Gave cfg privateKey start which (turns ++ [turn]) config)
    : (TakesUp cfg privateKey (start.after cfg privateKey turns) turn.toCycle config
        ∧ ∃ peer ∈ config.peers, which peer)
      ∨ ∀ other, TakesUp cfg privateKey (start.after cfg privateKey turns) turn.toCycle other →
          ∀ peer ∈ other.peers, ¬ which peer := by
  generalize whole : turns ++ [turn] = all at gave
  cases gave with
  | now taken entry =>
      obtain ⟨rfl, same⟩ := List.append_inj' whole rfl
      cases same
      exact Or.inl ⟨taken, entry⟩
  | before _ none =>
      obtain ⟨rfl, same⟩ := List.append_inj' whole rfl
      cases same
      exact Or.inr none

section Turn

variable {before : List TimedCycle} {turn : TimedCycle} {which : GatewayPeer → Prop} {wired : LivePeer}
  {slot : AllowedIp}

/-- What a turn takes up has not lapsed when it is over. -/
theorem Withdraws.fresh (withdraws : Withdraws cfg privateKey start before turn)
    (taken : TakesUp cfg privateKey (start.after cfg privateKey before) turn.toCycle config)
    (entry : ∃ peer ∈ config.peers, which peer)
    : ¬ Lapsed cfg privateKey start (before ++ [turn]) turn.finished which := by
  intro lapsed
  obtain ⟨given, gave, past⟩ := lapsed
  obtain ⟨peer, member, such⟩ := entry
  rcases gave.cases_last with ⟨also, _⟩ | none
  · obtain rfl := HeartbeatResponse.answered.inj (also.answered.symm.trans taken.answered)
    exact absurd (past peer member such) (not_lt.mpr (withdraws.lasting _ also peer member))
  · exact none config taken peer member such

/-- What a peer had before a turn that is carried out, if it is still there with what it has then: the
configuration does not give its key other addresses, or one of its addresses to another key, and does not
make it one to remove.
-/
structure Left (cfg : GatewayConfigFile) (config : GatewayConfig) (old wired : LivePeer) : Prop where
  own
    : ∀ peer ∈ config.peers, peer.publicKey = wired.publicKey →
        allowedSlots old.allowedIps = allowedSlots peer.allowedIps
  others
    : ∀ peer ∈ config.peers, peer.publicKey ≠ wired.publicKey →
        Disjoint (allowedSlots wired.allowedIps) (allowedSlots peer.allowedIps)
  wanted : Removable cfg config old → ∃ peer ∈ config.peers, peer.publicKey = wired.publicKey

theorem left_of_executed {interface : Interface} {old : LivePeer}
    (oldThere : old ∈ interface.peers) (same : old.publicKey = wired.publicKey)
    (within : allowedSlots wired.allowedIps ⊆ allowedSlots old.allowedIps)
    (apart
      : ∀ key allowed, .set key allowed ∈ (plan config.peers interface.peers
            (cfg.managedRange config.privateNetworkCidr)).commands →
          key ≠ wired.publicKey
          ∧ Disjoint (allowedSlots wired.allowedIps) (allowedSlots allowed))
    (there
      : wired ∈ (interface.execute (plan config.peers interface.peers
          (cfg.managedRange config.privateNetworkCidr))).peers)
    : Left cfg config old wired := by
  -- What is desired is set, or it is there already.
  have settled : ∀ peer ∈ config.peers,
      (peer.publicKey ≠ wired.publicKey
        ∧ Disjoint (allowedSlots wired.allowedIps) (allowedSlots peer.allowedIps))
      ∨ ∃ existing ∈ interface.peers, existing.publicKey = peer.publicKey
        ∧ allowedSlots existing.allowedIps = allowedSlots peer.allowedIps := by
    intro peer member
    by_cases set : peer ∈ commanded config.peers interface.peers
    · exact Or.inl (apart _ _ (List.mem_append_left _ (List.mem_map_of_mem set)))
    · obtain ⟨existing, present, key, alike⟩ := unchanged_of_not_commanded member set
      exact Or.inr ⟨existing, present, key, (slots_of_same alike).symm⟩
  constructor
  case own =>
    intro peer member own
    rcases settled peer member with ⟨other, _⟩ | ⟨existing, present, key, slots⟩
    · exact absurd own other
    · rw [← slots, Interface.peer_unique oldThere present (same.trans (own.symm.trans key.symm))]
  case others =>
    intro peer member other
    rcases settled peer member with ⟨_, disjoint⟩ | ⟨existing, present, key, slots⟩
    · exact disjoint
    · have different : old.publicKey ≠ existing.publicKey := by
        rw [same, key]
        exact other.symm
      rw [← slots]
      exact (interface.exclusive old oldThere existing present different).mono_left within
  case wanted =>
    intro removable
    by_contra unwanted
    push Not at unwanted
    exact (mem_execute.mp there).2
      (mem_plan_remove.mpr ⟨old, oldThere, same, unwanted, removable⟩)

/-- A peer that is on the interface after a turn has its addresses from an entry of the configuration that
is taken up, or it was left with them.
-/
theorem TakesUp.origin (taken : TakesUp cfg privateKey state cycle config)
    (there : wired ∈ (state.iterate cfg privateKey cycle).host.interface.peers)
    : (∃ peer ∈ config.peers, peer.publicKey = wired.publicKey
        ∧ allowedSlots wired.allowedIps ⊆ allowedSlots peer.allowedIps)
      ∨ ∃ old ∈ state.host.interface.peers, old.publicKey = wired.publicKey
        ∧ allowedSlots wired.allowedIps ⊆ allowedSlots old.allowedIps
        ∧ (Obeyed state.host.interface config cycle.answers → Left cfg config old wired) := by
  obtain ⟨commands, ran, reached⟩ := taken.interface
  rw [reached] at there
  rcases origin_foldl there with ⟨allowed, set, within⟩ | ⟨old, oldThere, own, within, apart⟩
  · obtain ⟨peer, member, same, rfl⟩ := desired_of_set (ran.first.subset set)
    exact Or.inl ⟨peer, member, same, within⟩
  · refine Or.inr ⟨old, oldThere, own, within, ?_⟩
    intro obeyed
    obtain rfl := obeyed.all ran
    rw [foldl_commands] at there
    exact left_of_executed oldThere own within apart there

/-- One turn that withdraws ends all leases in time. -/
theorem endsInTime_of_withdraws (withdraws : Withdraws cfg privateKey start before turn)
    : EndsInTime cfg privateKey start before turn := by
  have last : start.after cfg privateKey (before ++ [turn])
      = (start.after cfg privateKey before).iterate cfg privateKey turn.toCycle := by
    simp [LoopState.after, LoopState.run]
  by_cases up : ∃ config, TakesUp cfg privateKey (start.after cfg privateKey before) turn.toCycle config
  · obtain ⟨config, taken⟩ := up
    have only : ∀ other,
        TakesUp cfg privateKey (start.after cfg privateKey before) turn.toCycle other → other = config :=
      fun other also => HeartbeatResponse.answered.inj (also.answered.symm.trans taken.answered)
    constructor
    case keys =>
      intro wired there lapsed
      rw [last] at there
      have unlisted : ¬ ∃ peer ∈ config.peers, OfKey wired.publicKey peer :=
        fun entry => withdraws.fresh taken entry lapsed
      rcases taken.origin there with ⟨peer, member, own, _⟩ | ⟨old, oldThere, own, _, left⟩
      · exact unlisted ⟨peer, member, own⟩
      · rw [← own] at lapsed
        obtain ⟨other, also, obeyed, removable⟩ := withdraws.keys old oldThere lapsed
        obtain rfl := only other also
        exact unlisted ((left obeyed).wanted removable)
    case addresses =>
      intro wired there slot held lapsed
      rw [last] at there
      have unlisted : ∀ peer ∈ config.peers, peer.publicKey = wired.publicKey →
          slot ∉ allowedSlots peer.allowedIps :=
        fun peer member own given => withdraws.fresh taken ⟨peer, member, own, given⟩ lapsed
      rcases taken.origin there with ⟨peer, member, own, within⟩ | ⟨old, oldThere, own, within, left⟩
      · exact unlisted peer member own (within held)
      · rw [← own] at lapsed
        obtain ⟨other, also, obeyed, withdrawn⟩ := withdraws.addresses old oldThere slot (within held) lapsed
        obtain rfl := only other also
        have kept := left obeyed
        have listed : ∃ peer ∈ other.peers, peer.publicKey = wired.publicKey
            ∨ slot ∈ allowedSlots peer.allowedIps := by
          rcases withdrawn with removable | listed
          · obtain ⟨peer, member, own⟩ := kept.wanted removable
            exact ⟨peer, member, Or.inl own⟩
          · rwa [own] at listed
        obtain ⟨peer, member, concerns⟩ := listed
        by_cases same : peer.publicKey = wired.publicKey
        · exact unlisted peer member same (kept.own peer member same ▸ within held)
        · exact Set.disjoint_left.mp (kept.others peer member same) held (concerns.resolve_left same)
  · have idle : ∀ config,
        ¬ TakesUp cfg privateKey (start.after cfg privateKey before) turn.toCycle config :=
      fun config taken => up ⟨config, taken⟩
    constructor
    case keys =>
      intro wired there lapsed
      rw [last, iterate_idle idle] at there
      obtain ⟨config, taken, _⟩ := withdraws.keys wired there lapsed
      exact idle config taken
    case addresses =>
      intro wired there slot held lapsed
      rw [last, iterate_idle idle] at there
      obtain ⟨config, taken, _⟩ := withdraws.addresses wired there slot held lapsed
      exact idle config taken

end Turn

/-- In a run of the loop, whatever its heartbeats are answered, whatever its clocks show and whatever its
commands do: no peer is on the interface past its expiry after any turn, if every turn withdraws the peers
whose leases are over.
-/
theorem leases_end {turns : List TimedCycle}
    (withdraws
      : ∀ before turn later, turns = before ++ turn :: later →
          Withdraws cfg privateKey start before turn)
    : ∀ before turn later, turns = before ++ turn :: later →
        EndsInTime cfg privateKey start before turn :=
  fun before turn later whole => endsInTime_of_withdraws (withdraws before turn later whole)

end Loop

/-- A device asks for a session, and its gateway sends two heartbeats. -/
def sessionAndHeartbeats : List Request :=
  [.createSession ⟨6, 7⟩ 1 "ada@example.com" ⟨3, 2, []⟩,
    .gatewayHeartbeat 4 (LoopState.start emptyHost).heartbeatRequest,
    .gatewayHeartbeat 4 ⟨1, 1, true⟩]

/-- The second heartbeat comes when the hour of the session is over. -/
def expiryTurns : List Turn :=
  List.replicate 17 (.run 0) ++ List.replicate 10 (.run 1) ++ [.env 3601000000]
    ++ List.replicate 10 (.run 2)

/-- A heartbeat that is answered at this time, with everything working. -/
def timedCycle (time : Timestamp) (config : GatewayConfig) : TimedCycle where
  response := .answered config
  now := time
  clock := fun _ => time
  answers := labAnswers
  finished := time

def sessionConfig : GatewayConfig := labConfig 1 [labPeer 7 6 "10.8.1.2/32"]

/-- What is answered when the session has expired, under this version. -/
def emptiedConfig (version : Int) : GatewayConfig :=
  { labConfig version [] with expiresAt := seconds 3601 + minutes 5 }

theorem sessionConfig_taken
    : TakesUp managingFile none (LoopState.start emptyHost) (timedCycle 0 sessionConfig).toCycle
        sessionConfig := by
  refine ⟨rfl, by decide, by decide, ?_⟩
  refine ⟨rfl, by decide, ?_, (fun adopts => by cases adopts), fun _ given => absurd rfl given⟩
  intro index peer found
  rcases index with _ | index
  · cases found
    exact ⟨by decide, by decide, by decide⟩
  · cases found

/-- The first turn takes up the session. -/
def sessionState : LoopState :=
  (LoopState.start emptyHost).after managingFile none [timedCycle 0 sessionConfig]

theorem emptiedConfig_taken
    : TakesUp managingFile none sessionState (timedCycle (seconds 3601) (emptiedConfig 2)).toCycle
        (emptiedConfig 2) := by
  refine ⟨rfl, by decide +kernel, by decide, ?_⟩
  refine ⟨rfl, by decide, ?_, (fun adopts => by cases adopts), fun _ given => absurd rfl given⟩
  intro index peer found
  cases found

theorem sessionState_removable
    : ∀ wired ∈ sessionState.host.interface.peers,
        isWireGuardKey wired.publicKey = true
        ∧ Removable managingFile (emptiedConfig 2) wired := by
  have range : managingFile.managedRange (emptiedConfig 2).privateNetworkCidr = some labRange := by
    decide +kernel
  have each : ∀ wired ∈ sessionState.host.interface.peers,
      isWireGuardKey wired.publicKey = true ∧ isManaged wired labRange = true := by
    decide +kernel
  exact fun wired there => ⟨(each wired there).1, labRange, range, inRange_iff.mp (each wired there).2⟩

/-- Where a new version comes without the peer, the peer is gone when its lease is over. -/
theorem leases_end_emptied
    : EndsInTime managingFile none (LoopState.start emptyHost) [timedCycle 0 sessionConfig]
        (timedCycle (seconds 3601) (emptiedConfig 2)) := by
  have obeyed : Obeyed sessionState.host.interface (emptiedConfig 2) labAnswers := by
    refine ⟨rfl, ?_⟩
    intro index key known
    rcases known with ⟨_, ⟨⟩, _⟩ | ⟨wired, there, rfl⟩
    exact congrArg CommandStatus.exited (sessionState_removable wired there).1
  refine @leases_end managingFile none (LoopState.start emptyHost)
    [timedCycle 0 sessionConfig, timedCycle (seconds 3601) (emptiedConfig 2)] ?_ _ _ [] rfl
  intro before turn later whole
  rcases before with _ | ⟨first, before⟩
  · cases whole
    constructor
    case lasting =>
      intro config taken peer member
      cases HeartbeatResponse.answered.inj taken.answered
      cases List.mem_singleton.mp member
      decide
    case keys => exact fun wired there => by cases there
    case addresses => exact fun wired there => by cases there
  · obtain ⟨rfl, rest⟩ := List.cons_eq_cons.mp whole
    rcases before with _ | ⟨second, before⟩
    · cases rest
      constructor
      case lasting =>
        intro config taken peer member
        cases HeartbeatResponse.answered.inj taken.answered
        cases member
      case keys =>
        intro wired there _
        exact ⟨_, emptiedConfig_taken, obeyed, (sessionState_removable wired there).2⟩
      case addresses =>
        intro wired there _ _ _
        exact ⟨_, emptiedConfig_taken, obeyed, Or.inl (sessionState_removable wired there).2⟩
    · cases before <;> cases rest

/-- The session expires, the heartbeat is answered without its peer, and the peer stays. -/
theorem expired_peer_stays
    : let plane := (ControlPlane.start smallState sessionAndHeartbeats smallInstallation).after expiryTurns
      plane.Answered 1 (.ok (.config sessionConfig))
      ∧ plane.Answered 2 (.ok (.config (emptiedConfig 1)))
      ∧ ¬ EndsInTime managingFile none (LoopState.start emptyHost) [timedCycle 0 sessionConfig]
          (timedCycle (seconds 3601) (emptiedConfig 1)) := by
  refine ⟨rfl, rfl, ?_⟩
  intro ends
  have stays : ⟨"qqqqqqqqqqqqqqqqqqqqqqqqqqqqqqqqqqqqqqqqqqo=", ["10.8.1.2/32"]⟩
      ∈ ((LoopState.start emptyHost).after managingFile none ([timedCycle 0 sessionConfig]
          ++ [timedCycle (seconds 3601) (emptiedConfig 1)])).host.interface.peers := by
    decide +kernel
  refine ends.keys _ stays ⟨sessionConfig, Gave.before ?_ ?_, ?_⟩
  · exact @Gave.now _ _ _ _ [] _ _ sessionConfig_taken ⟨labPeer 7 6 "10.8.1.2/32", List.mem_cons_self, rfl⟩
  · intro other taken
    cases HeartbeatResponse.answered.inj taken.answered
    exact absurd (by decide +kernel) taken.new
  · intro peer member _
    cases List.mem_singleton.mp member
    decide

end WslVpn
