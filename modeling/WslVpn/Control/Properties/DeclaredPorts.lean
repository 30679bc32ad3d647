import WslVpn.Control.Properties.GitOpsApply

/-! The ports of a declared service on their way from the file to the gateway: a YAML scalar, an
`i64`, an `i32` that the database checks, and a `u16`.
-/

namespace WslVpn

open AddressSpace Interleaving Records

-----------------------------------------------------------------------------------------
-- What is declared, stored and sent
-----------------------------------------------------------------------------------------

/-- The services of that name on the network have exactly these ports. -/
def StoresPorts (db : Db) (networkId : Uuid) (name : String) (ports : List Int) : Prop :=
  (∃ row ∈ db.networkServices, row.networkId = networkId ∧ row.name = name)
  ∧ ∀ row ∈ db.networkServices, row.networkId = networkId → row.name = name → row.ports = ports

/-- Every gateway of the network is sent a service of that name with exactly these ports, for as
long as the stored services stay as they are.
-/
def SendsPorts (db : Db) (networkId : Uuid) (name : String) (ports : List Int) : Prop :=
  ∀ (later : Db) (state : AppState) (id : Uuid) (gateway : GatewayRow) (config : GatewayConfig)
    (after : Db),
    later.networkServices = db.networkServices → later.gateways.find? (·.id == id) = some gateway →
    gateway.networkId = some networkId
      → Returns (GatewayService.config state id) later config after →
      (∃ service ∈ config.services, service.name = name)
      ∧ ∀ service ∈ config.services, service.name = name →
          service.ports.map (fun port => (port.val : Int)) = ports

/-- What is stored and sent for a service are the ports that the file lists. -/
def Enforced (networkId : Uuid) (service : Yaml) (db : Db) : Prop :=
  ∃ name ports, service.str? "name" = some name
    ∧ (portItems service).map Yaml.untag = ports.map Yaml.int
    ∧ (∀ port ∈ ports, 0 < port ∧ port ≤ 65535)
    ∧ StoresPorts db networkId name ports ∧ SendsPorts db networkId name ports

/-- The call runs on its own, while time passes and statements may be lost, and ends with an
error.
-/
def Refuses {Value : Type} (call : Call Value) (db : Db) (error : AppError) (after : Db) : Prop :=
  ∃ (passed : Nat → Nat) (fails : Nat → Bool) (n : Nat),
    call.execute (fun n => elapse (passed n)) fails n db = (.error error, after)

/-- A service that is accepted is enforced until one of its name follows, and one that is not
leaves the database as it is.
-/
structure Handled (networkId : Uuid) (service : Yaml) (rest : List Yaml) (db : Db) : Prop where
  accepted
    : ∀ following after, following <+: rest →
        (∀ other ∈ following, other.str? "name" ≠ service.str? "name") →
        Returns (GitOpsService.applyServices networkId (service :: following)) db () after →
        Enforced networkId service after
  rejected
    : ∀ error after, Refuses (GitOpsService.applyServices networkId [service]) db error after →
        ∃ passed, after = elapse passed db

/-- The service passes all checks on its way to the table: those of the code on its fields, and those of
the server on its destination, its protocol and the low 32 bits of its integers.
-/
structure Accepted (cidrIn : String → Option IpNetwork) (service : Yaml) : Prop where
  name : (service.str? "name").isSome = true
  destination : ((service.str? "destination").bind cidrIn).isSome = true
  protocol : (service.str? "protocol").getD "tcp" = "tcp"
    ∨ (service.str? "protocol").getD "tcp" = "udp"
  someInteger : ∃ item ∈ portItems service, item.asI64?.isSome = true
  low
    : ∀ item ∈ portItems service, ∀ number, item.asI64? = some number →
        0 < asI32 number ∧ asI32 number ≤ 65535

-----------------------------------------------------------------------------------------
-- Ports
-----------------------------------------------------------------------------------------

section Ports

variable {service : Yaml} {row : ServiceRow} {ports : List Int}

/-- A port of the table goes over the wire as it is. -/
theorem portOf_port {port : Int} (positive : 0 < port) (most : port ≤ 65535)
    : ∃ sent, portOf port = some sent ∧ (sent.val : Int) = port := by
  refine ⟨⟨port.toNat, by omega⟩, dif_pos ⟨by omega, by omega⟩, ?_⟩
  exact Int.toNat_of_nonneg (by omega)

/-- The ports of a row are sent as they are, by induction on them. -/
theorem sent_ports (range : ∀ port ∈ ports, 0 < port ∧ port ≤ 65535)
    : (ports.filterMap portOf).map (fun port => (port.val : Int)) = ports := by
  induction ports with
  | nil => rfl
  | cons port rest ih =>
      obtain ⟨positive, most⟩ := range port List.mem_cons_self
      obtain ⟨sent, made, same⟩ := portOf_port positive most
      have later := ih (fun other member => range other (List.mem_cons_of_mem _ member))
      rw [List.filterMap_cons_some made, List.map_cons, same, later]

/-- The checks of the table make every row one that is sent. -/
theorem servedService_row (row : ServiceRow)
    : ∃ sent, servedService row = some sent ∧ sent.name = row.name
        ∧ sent.ports.map (fun port => (port.val : Int)) = row.ports := by
  obtain ⟨protocol, known⟩ : ∃ protocol, ServiceProtocol.fromStr row.protocol = some protocol := by
    rcases row.protocol_check with tcp | udp
    · exact ⟨.tcp, by rw [tcp]; decide +kernel⟩
    · exact ⟨.udp, by rw [udp]; decide +kernel⟩
  have same := sent_ports row.ports_check.2
  have some : (row.ports.filterMap portOf).isEmpty = false := by
    cases sent : row.ports.filterMap portOf with
    | nil =>
        rw [sent] at same
        exact absurd same.symm row.ports_check.1
    | cons _ _ => rfl
  refine ⟨⟨row.name, networkText row.destination, protocol, row.ports.filterMap portOf⟩, ?_, rfl,
    same⟩
  simp only [servedService, known, some, Bool.false_eq_true, if_false]

end Ports

-----------------------------------------------------------------------------------------
-- The configuration
-----------------------------------------------------------------------------------------

section Config

variable {db after : Db} {state : AppState} {id networkId : Uuid} {gateway : GatewayRow}
  {config : GatewayConfig}

/-- The services of a configuration are the rows of its network. -/
theorem config_services (known : db.gateways.find? (·.id == id) = some gateway)
    (member : gateway.networkId = some networkId)
    (returned : Returns (GatewayService.config state id) db config after)
    : config.services = (db.services networkId).filterMap servedService := by
  rw [GatewayService.config] at returned
  obtain ⟨found, first, looked, returned⟩ := returned.bind
  rw [GatewayService.get] at looked
  obtain ⟨passed, row, _, ran, answered⟩ := looked.asks
  obtain ⟨rfl, rfl⟩ := answered.done
  obtain ⟨rfl, rfl⟩ : row = some gateway ∧ first = elapse passed db := by
    cases ran
    exact ⟨known, rfl⟩
  simp only [Option.map_some, mapGw, member] at returned
  rw [GatewayService.configOf] at returned
  -- Of the statements that follow, none writes a service.
  obtain ⟨_, cidr, _, ran, returned⟩ := returned.asks
  cases ran
  split at returned
  · obtain ⟨_, _, _, ran, returned⟩ := returned.asks
    cases ran
    obtain ⟨_, _, _, ran, returned⟩ := returned.asks
    cases ran
    obtain ⟨_, _, _, ran, returned⟩ := returned.asks
    cases ran
    obtain ⟨_, _, _, ran, returned⟩ := returned.asks
    cases ran
    obtain ⟨_, _, _, ran, returned⟩ := returned.asks
    cases ran
    obtain ⟨_, _, _, ran, returned⟩ := returned.asks
    cases ran
    obtain ⟨rfl, _⟩ := returned.done
    rfl
  · exact returned.thrown.elim

/-- What is stored is sent. -/
theorem StoresPorts.sends {name : String} {ports : List Int}
    (stores : StoresPorts db networkId name ports)
    : SendsPorts db networkId name ports := by
  intro later state id gateway config after same known member returned
  have listed (row : ServiceRow)
      : row ∈ later.services networkId ↔ row ∈ db.networkServices ∧ row.networkId = networkId := by
    rw [Db.services, List.mem_insertionSort, List.mem_filter, same, beq_iff_eq]
  rw [config_services known member returned]
  constructor
  · obtain ⟨row, there, home, named⟩ := stores.1
    obtain ⟨sent, served, same, _⟩ := servedService_row row
    exact ⟨sent, List.mem_filterMap.mpr ⟨row, (listed row).mpr ⟨there, home⟩, served⟩,
      same.trans named⟩
  · intro service member named
    obtain ⟨row, there, served⟩ := List.mem_filterMap.mp member
    obtain ⟨sent, served', same, ports⟩ := servedService_row row
    obtain rfl := Option.some.inj (served.symm.trans served')
    obtain ⟨held, home⟩ := (listed row).mp there
    exact ports.trans (stores.2 row held home (same.symm.trans named))

end Config

-----------------------------------------------------------------------------------------
-- One service of a file
-----------------------------------------------------------------------------------------

section Service

variable {db after : Db} {networkId : Uuid} {service : Yaml} {rest : List Yaml}

/-- The services of a file are handled one after the other. -/
theorem applyServices_cons
    : GitOpsService.applyServices networkId (service :: rest)
      = (GitOpsService.applyServices networkId [service]
          >>= fun _ => GitOpsService.applyServices networkId rest) := by
  simp only [GitOpsService.applyServices]
  split
  · split
    · rfl
    · rw [Program.bind_assoc]
      rfl
  · rfl

/-- What an upsert that is not refused has passed. -/
theorem upsertService_accepts {name destination protocol : String} {ports : List Int}
    {description : Option String} (known : db.hasNetwork networkId = true)
    : (∃ reply after, db.upsertService networkId name destination protocol ports description
        = .ok (reply, after))
      ↔ (db.cidrIn destination).isSome = true ∧ (protocol = "tcp" ∨ protocol = "udp")
        ∧ ports ≠ [] ∧ ∀ port ∈ ports, 0 < port ∧ port ≤ 65535 := by
  rw [Db.upsertService]
  cases db.cidrIn destination with
  | none => simp
  | some network =>
      by_cases family : protocol = "tcp" ∨ protocol = "udp"
      · by_cases range : ports ≠ [] ∧ ∀ port ∈ ports, 0 < port ∧ port ≤ 65535
        · simp only [dif_pos family, dif_pos range, known, Bool.not_true, Bool.false_eq_true,
            if_false, Option.isSome_some, true_and]
          refine iff_of_true ?_ ⟨family, range⟩
          split <;> exact ⟨_, _, rfl⟩
        · simp [family, range]
      · simp [family]

theorem mem_servicePorts {port : Int}
    : port ∈ GitOpsService.servicePorts service
      ↔ ∃ item ∈ portItems service, ∃ number, item.asI64? = some number ∧ asI32 number = port := by
  simp only [GitOpsService.servicePorts, List.mem_filterMap, Option.map_eq_some_iff, portItems]

/-- The checks on the ports, read off the items. -/
theorem servicePorts_checked
    : (GitOpsService.servicePorts service ≠ []
        ∧ ∀ port ∈ GitOpsService.servicePorts service, 0 < port ∧ port ≤ 65535)
      ↔ (∃ item ∈ portItems service, item.asI64?.isSome = true)
        ∧ ∀ item ∈ portItems service, ∀ number, item.asI64? = some number →
            0 < asI32 number ∧ asI32 number ≤ 65535 := by
  constructor
  · intro ⟨filled, range⟩
    constructor
    · obtain ⟨port, there⟩ := List.exists_mem_of_ne_nil _ filled
      obtain ⟨item, listed, number, read, _⟩ := mem_servicePorts.mp there
      exact ⟨item, listed, by simp [read]⟩
    · intro item listed number read
      exact range _ (mem_servicePorts.mpr ⟨item, listed, number, read, rfl⟩)
  · intro ⟨⟨item, listed, whole⟩, low⟩
    obtain ⟨number, read⟩ := Option.isSome_iff_exists.mp whole
    constructor
    · exact List.ne_nil_of_mem (mem_servicePorts.mpr ⟨item, listed, number, read, rfl⟩)
    · intro port there
      obtain ⟨item, listed, number, read, rfl⟩ := mem_servicePorts.mp there
      exact low item listed number read

/-- A service with a name, a destination and ports is one statement, any other an error. -/
theorem applyServices_single
    : (∃ error, GitOpsService.applyServices networkId [service] = throw error)
      ∨ ∃ name dest, service.str? "name" = some name ∧ service.str? "destination" = some dest
          ∧ GitOpsService.applyServices networkId [service]
            = (query (.upsertService networkId name dest ((service.str? "protocol").getD "tcp")
                (GitOpsService.servicePorts service) (service.str? "description"))
              >>= fun _ => return ()) := by
  simp only [GitOpsService.applyServices]
  split
  · next name dest named addressed =>
      split
      · exact .inl ⟨_, rfl⟩
      · exact .inr ⟨name, dest, named, addressed, rfl⟩
  · exact .inl ⟨_, rfl⟩

/-- The network stays while time passes and a service is written. -/
theorem hasNetwork_of_returns {items : List Yaml} (known : db.hasNetwork networkId = true)
    (returned : Returns (GitOpsService.applyServices networkId items) db () after)
    : after.hasNetwork networkId = true := by
  rw [Db.hasNetwork, (applyServices_writes returned).1.networks]
  exact known

theorem accepted_of_returns (known : db.hasNetwork networkId = true)
    (returned : Returns (GitOpsService.applyServices networkId [service]) db () after)
    : Accepted db.cidrIn service := by
  rcases @applyServices_single networkId service
    with ⟨error, thrown⟩ | ⟨name, dest, named, addressed, single⟩
  · rw [thrown] at returned
    exact returned.thrown.elim
  · rw [single] at returned
    obtain ⟨passed, reply, between, ran, _⟩ := returned.asks
    have known : (elapse passed db).hasNetwork networkId = true := known
    obtain ⟨read, protocol, ports⟩ := (upsertService_accepts known).mp ⟨_, _, ran⟩
    have read : (db.cidrIn dest).isSome = true := read
    obtain ⟨someInteger, low⟩ := servicePorts_checked.mp ports
    exact {
      name := by simp [named]
      destination := by simpa [addressed] using read
      protocol
      someInteger
      low
    }

/-- An accepted service is one statement that is not refused. -/
theorem Accepted.written (accepted : Accepted db.cidrIn service) (known : db.hasNetwork networkId = true)
    : ∃ name dest after, service.str? "name" = some name ∧ service.str? "destination" = some dest
        ∧ (GitOpsService.servicePorts service).isEmpty = false
        ∧ db.upsertService networkId name dest ((service.str? "protocol").getD "tcp")
            (GitOpsService.servicePorts service) (service.str? "description")
              = .ok ((), after) := by
  obtain ⟨name, named⟩ := Option.isSome_iff_exists.mp accepted.name
  obtain ⟨network, found⟩ := Option.isSome_iff_exists.mp accepted.destination
  obtain ⟨dest, addressed, read⟩ := Option.bind_eq_some_iff.mp found
  have ports := servicePorts_checked.mpr ⟨accepted.someInteger, accepted.low⟩
  have parsed : (db.cidrIn dest).isSome = true := Option.isSome_iff_exists.mpr ⟨network, read⟩
  obtain ⟨_, after, ran⟩ := (upsertService_accepts known).mpr
    ⟨parsed, accepted.protocol, ports⟩
  exact ⟨name, dest, after, named, addressed, by simpa using ports.1, ran⟩

/-- Accepted services are written one after the other, by induction on them. -/
theorem applyServices_accepted {items : List Yaml} (known : db.hasNetwork networkId = true)
    (accepted : ∀ other ∈ items, Accepted db.cidrIn other) (n : Nat)
    : ∃ after, (GitOpsService.applyServices networkId items).execute (fun _ => elapse 0)
        (fun _ => false) n db = (.ok (), after) := by
  induction items generalizing db n with
  | nil => exact ⟨db, rfl⟩
  | cons head tail ih =>
      have start : (elapse 0 db).hasNetwork networkId = true := known
      obtain ⟨name, dest, between, named, addressed, filled, ran⟩ :=
        @Accepted.written (elapse 0 db) _ head (accepted head List.mem_cons_self) start
      have writes := upsertService_writes ran
      have there : between.hasNetwork networkId = true := by
        rw [Db.hasNetwork, writes.networks]
        exact start
      have others : ∀ other ∈ tail, Accepted between.cidrIn other := by
        rw [writes.reads]
        exact fun other member => accepted other (List.mem_cons_of_mem _ member)
      obtain ⟨after, goesOn⟩ := ih there others (n + 1)
      refine ⟨after, ?_⟩
      simp only [GitOpsService.applyServices, named, addressed, filled, Bool.false_eq_true,
        if_false]
      have answer : (Statement.upsertService networkId name dest
          ((head.str? "protocol").getD "tcp") (GitOpsService.servicePorts head)
          (head.str? "description")).exec (elapse 0 db) = .ok ((), between) := ran
      rw [← goesOn]
      exact execute_query_answered rfl answer

theorem refuses_throw {error thrown : AppError} {Value : Type}
    (refused : Refuses (throw thrown : Call Value) db error after)
    : ∃ passed, after = elapse passed db := by
  obtain ⟨passed, fails, n, ran⟩ := refused
  cases ran
  exact ⟨0, by simp [elapse]⟩

/-- A statement that is lost or refused leaves the database as it is. -/
theorem refuses_query {error : AppError} {statement : Statement}
    (refused : Refuses (query statement >>= fun _ => (return () : Call Unit)) db error after)
    : ∃ passed, after = elapse passed db := by
  obtain ⟨passed, fails, n, ran⟩ := refused
  cases lost : fails n with
  | true =>
      rw [execute_query_lost lost] at ran
      exact ⟨passed n, (Prod.ext_iff.mp ran).2.symm⟩
  | false =>
      cases answer : statement.exec (elapse (passed n) db) with
      | error fault =>
          rw [execute_query_refused lost answer] at ran
          exact ⟨passed n, (Prod.ext_iff.mp ran).2.symm⟩
      | ok pair =>
          rw [execute_query_answered lost answer] at ran
          cases ran

/-- A service that is refused leaves nothing. -/
theorem rejected_leaves {error : AppError}
    (refused : Refuses (GitOpsService.applyServices networkId [service]) db error after)
    : ∃ passed, after = elapse passed db := by
  rcases @applyServices_single networkId service with ⟨thrown, single⟩ | ⟨_, _, _, _, single⟩
  · rw [single] at refused
    exact refuses_throw refused
  · rw [single] at refused
    exact refuses_query refused

/-- What is stored for a service, until one of its name follows. -/
theorem stored_of_returns {name : String} (named : service.str? "name" = some name)
    (apart : ∀ other ∈ rest, other.str? "name" ≠ service.str? "name")
    (returned : Returns (GitOpsService.applyServices networkId (service :: rest)) db () after)
    : StoresPorts after networkId name (GitOpsService.servicePorts service) := by
  have written := (applyServices_writes returned).1.services
  rw [applyServices_cons] at returned
  obtain ⟨_, _, first, _⟩ := returned.bind
  obtain ⟨content, declared, key, ports⟩ : ∃ content, declaredService db.cidrIn service = some content
      ∧ content.name = name ∧ content.ports = GitOpsService.servicePorts service := by
    rcases @applyServices_single networkId service
      with ⟨error, thrown⟩ | ⟨own, dest, own_name, addressed, _⟩
    · rw [thrown] at first
      exact first.thrown.elim
    · obtain rfl := Option.some.inj (named.symm.trans own_name)
      simp [declaredService, own_name, addressed]
  have later : ∀ other ∈ rest.filterMap (declaredService db.cidrIn), other.name ≠ name := by
    intro other member
    obtain ⟨item, listed, made⟩ := List.mem_filterMap.mp member
    intro same
    apply apart item listed
    rw [named, ← same]
    exact (declares_of_declared made).name
  have only (other : ServiceContent) (same : other.name = name)
      : other ∈ after.serviceSet networkId ↔ other = content := by
    rw [written, List.filterMap_cons_some declared, mem_putAll]
    constructor
    · intro member
      rcases member with (last | ⟨here, _⟩) | ⟨_, absent⟩
      · exact absurd same (later other last.mem)
      · exact here
      · exact absurd (key.trans same.symm) (absent content List.mem_cons_self)
    · intro here
      subst here
      exact .inl (.inr ⟨rfl, fun other member => key ▸ later other member⟩)
  constructor
  · obtain ⟨row, there, home, same⟩ := (only content key).mpr rfl
    exact ⟨row, there, home, (congrArg ServiceContent.name same).trans key⟩
  · intro row there home same
    have own := (only row.content same).mp ⟨row, there, home, rfl⟩
    exact (congrArg ServiceContent.ports own).trans ports

/-- The services of a file that come before are accepted, by induction on them. -/
theorem all_accepted {before : List Yaml} (known : db.hasNetwork networkId = true)
    (returned : Returns (GitOpsService.applyServices networkId before) db () after)
    : ∀ other ∈ before, Accepted db.cidrIn other := by
  induction before generalizing db with
  | nil => simp
  | cons head tail ih =>
      rw [applyServices_cons] at returned
      obtain ⟨_, between, first, goesOn⟩ := returned.bind
      intro other member
      cases List.mem_cons.mp member with
      | inl here => exact here ▸ accepted_of_returns known first
      | inr later =>
          have accepted := ih (hasNetwork_of_returns known first) goesOn other later
          rwa [(applyServices_writes first).1.reads] at accepted

theorem handled_iff (known : db.hasNetwork networkId = true)
    : Handled networkId service rest db
      ↔ (Accepted db.cidrIn service → ∀ item ∈ portItems service, IsPort item) := by
  constructor
  · intro handled accepted
    obtain ⟨after, ran⟩ := applyServices_accepted known
      (fun other member => List.mem_singleton.mp member ▸ accepted : ∀ other ∈ [service], _) 0
    obtain ⟨name, ports, _, written, range, _⟩ :=
      handled.accepted [] after List.nil_prefix (by simp) ⟨_, _, 0, ran⟩
    intro item listed
    have there : item.untag ∈ ports.map Yaml.int := by
      rw [← written]
      exact List.mem_map_of_mem listed
    obtain ⟨port, member, same⟩ := List.mem_map.mp there
    exact ⟨port, same.symm, range port member⟩
  · intro whole
    refine ⟨?_, fun error after refused => rejected_leaves refused⟩
    intro following after _ apart returned
    have split := returned
    rw [applyServices_cons] at split
    obtain ⟨_, _, first, _⟩ := split.bind
    have accepted := accepted_of_returns known first
    obtain ⟨name, named⟩ := Option.isSome_iff_exists.mp accepted.name
    have stored := stored_of_returns named apart returned
    have checked := servicePorts_checked.mpr ⟨accepted.someInteger, accepted.low⟩
    exact ⟨name, GitOpsService.servicePorts service, named, ports_of_items (whole accepted),
      checked.2, stored, stored.sends⟩

end Service

-----------------------------------------------------------------------------------------
-- A file
-----------------------------------------------------------------------------------------

/-- Every service of the list that is reached, on the network that the file has, is handled. -/
def DeclaresEnforced (networkId : Uuid) (services : List Yaml) (db : Db) : Prop :=
  ∀ before service rest, services = before ++ service :: rest →
    ∀ middle, Returns (GitOpsService.applyServices networkId before) db () middle →
      Handled networkId service rest middle

/-- An accepted service that follows on accepted ones lists ports only. -/
def ListsPorts (cidrIn : String → Option IpNetwork) (services : List Yaml) : Prop :=
  ∀ before service rest, services = before ++ service :: rest →
    (∀ other ∈ before, Accepted cidrIn other) → Accepted cidrIn service →
      ∀ item ∈ portItems service, IsPort item

theorem enforced_iff {db : Db} {networkId : Uuid} {services : List Yaml}
    (known : db.hasNetwork networkId = true)
    : DeclaresEnforced networkId services db ↔ ListsPorts db.cidrIn services := by
  constructor
  · intro enforced before service rest place accepted
    obtain ⟨middle, ran⟩ := applyServices_accepted known accepted 0
    have returned : Returns (GitOpsService.applyServices networkId before) db () middle :=
      ⟨_, _, 0, ran⟩
    rw [← (applyServices_writes returned).1.reads]
    exact (handled_iff (hasNetwork_of_returns known returned)).mp
      (enforced before service rest place middle returned)
  · intro lists before service rest place middle returned
    apply (handled_iff (hasNetwork_of_returns known returned)).mpr
    rw [(applyServices_writes returned).1.reads]
    exact lists before service rest place (all_accepted known returned)

/-- The network of a file is there once it has been looked up or made. -/
theorem hasNetwork_of_ensured {entry : DirEntry Yaml} {file : Yaml} {name cidr : String}
    {networkId : Uuid} {db start : Db} (ranged : file.str? "cidr" = some cidr)
    (ensured : Returns (GitOpsService.ensureNetwork entry file name cidr) db networkId start)
    : start.hasNetwork networkId = true := by
  obtain ⟨row, rfl, found⟩ := ensureNetwork_ensured ranged ensured
  apply List.any_eq_true.mpr
  refine ⟨row, ?_, beq_self_eq_true _⟩
  rcases found.network with ⟨stored, same⟩ | ⟨_, _, _, _, made⟩
  · rw [same]
    exact (networkNamed_mem stored).1
  · rw [made]
    exact List.mem_append_right _ List.mem_cons_self

/-- The ports of a network file are enforced as they are declared exactly if each service that
is accepted lists ports only.
-/
theorem declared_ports_iff (entry : DirEntry Yaml) (file : Yaml) (name cidr : String)
    (networkId : Uuid) (db start : Db) (ranged : file.str? "cidr" = some cidr)
    (ensured : Returns (GitOpsService.ensureNetwork entry file name cidr) db networkId start)
    : DeclaresEnforced networkId (fileServices file) start
      ↔ ListsPorts start.cidrIn (fileServices file) :=
  enforced_iff (hasNetwork_of_ensured ranged ensured)

-----------------------------------------------------------------------------------------
-- A port of more than 32 bits
-----------------------------------------------------------------------------------------

def labEntry (services : List Yaml) : DirEntry Yaml :=
  ⟨"gitops/networks/lab.yaml", some "yaml", .parsed (labFile services), 1⟩

/-- The network of the file has been made. -/
def labReady (services : List Yaml) : Db :=
  ((GitOpsService.ensureNetwork (labEntry services) (labFile services) "lab" "10.8.1.0/24").execute
    (fun _ => elapse 0) (fun _ => false) 0 (Db.empty 0)).2

/-- `4294967318` is 22 in its low 32 bits. -/
def wrappedService : Yaml :=
  .mapping [
    (.string "name", .string "db"),
    (.string "destination", .string "10.0.0.5/32"),
    (.string "ports", .sequence [.int 4294967318])
  ]

theorem portItems_lab : portItems labService = [.int 5432] := by
  simp [portItems, labService, Yaml.get?, Yaml.untag, Yaml.asSequence?]

theorem portItems_wrapped : portItems wrappedService = [.int 4294967318] := by
  simp [portItems, wrappedService, Yaml.get?, Yaml.untag, Yaml.asSequence?]

theorem fileServices_lab (services : List Yaml) : fileServices (labFile services) = services := by
  simp [fileServices, labFile, Yaml.get?, Yaml.untag, Yaml.asSequence?]

theorem declared_ports_iff_lab
    : DeclaresEnforced 1 (fileServices (labFile [labService])) (labReady [labService]) := by
  have made : (GitOpsService.ensureNetwork (labEntry [labService]) (labFile [labService]) "lab"
      "10.8.1.0/24").execute (fun _ => elapse 0) (fun _ => false) 0 (Db.empty 0)
      = (.ok 1, labReady [labService]) :=
    Prod.ext (by decide +kernel) rfl
  apply (declared_ports_iff (labEntry [labService]) (labFile [labService]) "lab" "10.8.1.0/24" 1
    (Db.empty 0) _ (by decide +kernel) ⟨_, _, 0, made⟩).mpr
  intro before service rest place _ _ item listed
  rw [fileServices_lab] at place
  have member : service ∈ [labService] := by simp [place]
  rw [List.mem_singleton.mp member, portItems_lab] at listed
  exact ⟨5432, by simp [List.mem_singleton.mp listed, Yaml.untag], by decide, by decide⟩

/-- A service of port `4294967318` is accepted, and stored and sent with port 22. -/
theorem wrapped_port_opens
    : ¬ DeclaresEnforced 1 (fileServices (labFile [wrappedService])) (labReady [wrappedService]) := by
  have known : (labReady [wrappedService]).hasNetwork 1 = true := by decide +kernel
  intro enforced
  have lists := (enforced_iff known).mp enforced
  have accepted : Accepted (labReady [wrappedService]).cidrIn wrappedService := by
    refine ⟨by decide +kernel, by decide +kernel, by decide +kernel, ?_, ?_⟩
    · rw [portItems_wrapped]
      exact ⟨_, List.mem_cons_self, by decide +kernel⟩
    · rw [portItems_wrapped]
      intro item listed number read
      rw [List.mem_singleton.mp listed] at read
      have value : (Yaml.int 4294967318).asI64? = some 4294967318 := by decide +kernel
      obtain rfl := Option.some.inj (value.symm.trans read)
      decide
  obtain ⟨port, written, _, most⟩ :=
    lists [] wrappedService [] (fileServices_lab _) (by simp) accepted _
      (portItems_wrapped ▸ List.mem_cons_self)
  rw [Yaml.untag] at written
  · have same : (4294967318 : Int) = port := by simpa using written
    omega
  · simp

end WslVpn
