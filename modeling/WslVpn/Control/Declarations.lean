import WslVpn.Control.Requests
import WslVpn.Control.Effects
import WslVpn.Records.Keyed

/-! What the declarations of a directory say of networks, services and routes, and what the statements
that store them do to the tables.
-/

namespace WslVpn

open AddressSpace Interleaving Records

/-- A network as a file declares it or the table has it, apart from its name. -/
structure NetworkContent where
  cidr : Option IpNetwork
  dnsServers : List String
  dnsDomains : List String
  deriving DecidableEq

/-- A service, apart from the network it is on. -/
structure ServiceContent where
  name : String
  destination : Option IpNetwork
  protocol : String
  ports : List Int
  description : Option String
  deriving DecidableEq

/-- A route, apart from the network it is on. -/
structure RouteContent where
  destination : Option IpNetwork
  description : Option String
  deriving DecidableEq

def NetworkRow.content (row : NetworkRow) : NetworkContent :=
  ⟨some row.cidr, row.dnsServers, row.dnsDomains⟩

def ServiceRow.content (row : ServiceRow) : ServiceContent :=
  ⟨row.name, some row.destination, row.protocol, row.ports, row.description⟩

def RouteRow.content (row : RouteRow) : RouteContent := ⟨some row.destination, row.description⟩

/-- What a file says of its network, to a server that reads networks like this. -/
def declaredNetwork (cidrIn : String → Option IpNetwork) (file : Yaml) : NetworkContent where
  cidr := (file.str? "cidr").bind cidrIn
  dnsServers := Yaml.strings (file.get? "dns") "servers"
  dnsDomains := Yaml.strings (file.get? "dns") "domains"

def declaredService (cidrIn : String → Option IpNetwork) (service : Yaml) : Option ServiceContent :=
  match service.str? "name", service.str? "destination" with
  | some name, some dest => some {
      name
      destination := cidrIn dest
      protocol := (service.str? "protocol").getD "tcp"
      ports := GitOpsService.servicePorts service
      description := service.str? "description"
    }
  | _, _ => none

def declaredRoute (cidrIn : String → Option IpNetwork) (route : Yaml) : Option RouteContent :=
  (route.str? "destination").map fun dest => ⟨cidrIn dest, route.str? "description"⟩

def fileServices (file : Yaml) : List Yaml :=
  ((file.get? "services").bind Yaml.asSequence?).getD []

/-- The items that a file lists under `ports`. -/
def portItems (service : Yaml) : List Yaml :=
  ((service.get? "ports").bind Yaml.asSequence?).getD []

/-- The item is a port: an integer in `1..65535`. -/
def IsPort (item : Yaml) : Prop := ∃ port : Int, item.untag = .int port ∧ 0 < port ∧ port ≤ 65535

def declaredServices (cidrIn : String → Option IpNetwork) (file : Yaml) : List ServiceContent :=
  (fileServices file).filterMap (declaredService cidrIn)

def declaredRoutes (cidrIn : String → Option IpNetwork) (file : Yaml) : List RouteContent :=
  (((file.get? "routes").bind Yaml.asSequence?).getD []).filterMap (declaredRoute cidrIn)

/-- The content is the service that the item declares. Which ports it has is said of items whose ports are
all ports.
-/
structure Declares (cidrIn : String → Option IpNetwork) (item : Yaml) (content : ServiceContent) : Prop where
  name : item.str? "name" = some content.name
  destination : (item.str? "destination").map cidrIn = some content.destination
  protocol : content.protocol = (item.str? "protocol").getD "tcp"
  ports
    : (∀ port ∈ portItems item, IsPort port) →
        (portItems item).map Yaml.untag = content.ports.map Yaml.int
  description : content.description = item.str? "description"

/-- The documents that the loop over a directory comes to. -/
def yamlDocuments {Document : Type} (entries : List (Option (DirEntry Document)))
    : List Document :=
  entries.filterMap fun entry => entry.bind fun entry =>
    match decide (entry.extension = some "yaml"), entry.content with
    | true, .parsed document => some document
    | _, _ => none

def listedDocuments {Document : Type} : Option (Listing Document) → List Document
  | some (.entries entries) => yamlDocuments entries
  | _ => []

def GitOpsDirectory.networkFiles (directory : GitOpsDirectory) : List Yaml :=
  listedDocuments directory.networks

/-- The files that declare the network of a name. -/
def filesOf (name : String) (files : List Yaml) : List Yaml :=
  files.filter (fun file => file.str? "name" = some name)

namespace Db

def networkNamed (db : Db) (name : String) : Option NetworkRow :=
  db.networks.find? (·.name == name)

def serviceSet (db : Db) (networkId : Uuid) : Set ServiceContent :=
  {content | ∃ row ∈ db.networkServices, row.networkId = networkId ∧ row.content = content}

def routeSet (db : Db) (networkId : Uuid) : Set RouteContent :=
  {content | ∃ row ∈ db.routes, row.networkId = networkId ∧ row.content = content}

end Db

-----------------------------------------------------------------------------------------
-- Services
-----------------------------------------------------------------------------------------

section Services

variable {cidrIn : String → Option IpNetwork} {item : Yaml} {content : ServiceContent}

theorem asI64?_of_int {item : Yaml} {number : Int} (written : item.untag = .int number)
    (low : -(2 ^ 63) ≤ number) (high : number < 2 ^ 63)
    : item.asI64? = some number := by
  rw [Yaml.asI64?, written]
  exact if_pos ⟨low, high⟩

/-- A port keeps its value in 32 bits. -/
theorem asI32_of_port {port : Int} (positive : 0 < port) (most : port ≤ 65535)
    : asI32 port = port := by
  rw [asI32, Int.bmod_eq_of_le (by omega) (by omega)]

/-- Where every item is a port the code reads what is written, by induction on the items. -/
theorem ports_of_items {items : List Yaml} (every : ∀ item ∈ items, IsPort item)
    : items.map Yaml.untag
        = (items.filterMap (fun port => port.asI64?.map asI32)).map Yaml.int := by
  induction items with
  | nil => rfl
  | cons item rest ih =>
      obtain ⟨port, written, positive, most⟩ := every item List.mem_cons_self
      have read : item.asI64?.map asI32 = some port := by
        rw [asI64?_of_int written (by omega) (by omega)]
        exact congrArg some (asI32_of_port positive most)
      have later := ih (fun other member => every other (List.mem_cons_of_mem _ member))
      simp only [List.filterMap_cons, read, List.map_cons, later, written]

/-- What is made of an item is what it declares. -/
theorem declares_of_declared (declared : declaredService cidrIn item = some content)
    : Declares cidrIn item content := by
  unfold declaredService at declared
  split at declared
  · next name dest named addressed =>
      cases declared
      exact {
        name := named
        destination := by rw [addressed, Option.map_some]
        protocol := rfl
        ports := ports_of_items
        description := rfl
      }
  · cases declared

end Services

-----------------------------------------------------------------------------------------
-- Statements
-----------------------------------------------------------------------------------------

/-- Services and routes written to one network, and nothing else to the three tables. -/
structure Writes (networkId : Uuid) (services : List ServiceContent) (routes : List RouteContent)
    (db after : Db) : Prop where
  reads : after.cidrIn = db.cidrIn
  networks : after.networks = db.networks
  services
    : after.serviceSet networkId = putAll ServiceContent.name (db.serviceSet networkId) services
  routes
    : after.routeSet networkId = keepAll RouteContent.destination (db.routeSet networkId) routes
  otherServices : ∀ other, other ≠ networkId → after.serviceSet other = db.serviceSet other
  otherRoutes : ∀ other, other ≠ networkId → after.routeSet other = db.routeSet other

/-- Nothing is declared: the three tables stay as they are. -/
structure Undeclared (db after : Db) : Prop where
  reads : after.cidrIn = db.cidrIn
  networks : after.networks = db.networks
  services : after.networkServices = db.networkServices
  routes : after.routes = db.routes

theorem Undeclared.refl (db : Db) : Undeclared db db := ⟨rfl, rfl, rfl, rfl⟩

theorem Undeclared.trans {db middle after : Db} (first : Undeclared db middle)
    (second : Undeclared middle after)
    : Undeclared db after :=
  ⟨second.reads.trans first.reads, second.networks.trans first.networks,
    second.services.trans first.services, second.routes.trans first.routes⟩

theorem undeclared_elapse (passed : Nat) (db : Db) : Undeclared db (elapse passed db) :=
  ⟨rfl, rfl, rfl, rfl⟩

theorem Undeclared.writes {db after : Db} (same : Undeclared db after) (networkId : Uuid)
    : Writes networkId [] [] db after := by
  have services : ∀ id, after.serviceSet id = db.serviceSet id := by
    intro id
    rw [Db.serviceSet, same.services]
    rfl
  have routes : ∀ id, after.routeSet id = db.routeSet id := by
    intro id
    rw [Db.routeSet, same.routes]
    rfl
  exact ⟨same.reads, same.networks, services _, routes _, fun id _ => services id,
    fun id _ => routes id⟩

/-- Writes one after the other. -/
theorem Writes.trans {networkId : Uuid} {firstServices secondServices : List ServiceContent}
    {firstRoutes secondRoutes : List RouteContent} {db middle after : Db}
    (first : Writes networkId firstServices firstRoutes db middle)
    (second : Writes networkId secondServices secondRoutes middle after)
    : Writes networkId (firstServices ++ secondServices) (firstRoutes ++ secondRoutes) db after := by
  refine ⟨second.reads.trans first.reads, second.networks.trans first.networks, ?_, ?_, ?_, ?_⟩
  · rw [putAll_append, ← first.services]
    exact second.services
  · rw [keepAll_append, ← first.routes]
    exact second.routes
  · intro other apart
    exact (second.otherServices other apart).trans (first.otherServices other apart)
  · intro other apart
    exact (second.otherRoutes other apart).trans (first.otherRoutes other apart)

section Statements

/-- The statement writes to the tables of networks, services and routes. -/
def Statement.declares : Statement → Bool
  | .insertNetwork .. | .insertRoute .. | .upsertService .. => true
  | _ => false

variable {db after : Db} {networkId : Uuid}

/-- No other statement declares anything, by cases on the statement. -/
theorem exec_undeclared {statement : Statement} {reply : statement.Reply}
    (other : statement.declares = false) (ran : statement.exec db = .ok (reply, after))
    : Undeclared db after := by
  have frame := Statement.exec_frame ran
  cases statement with
  | insertNetwork | insertRoute | upsertService => cases other
  | _ => exact ⟨frame.cidrIn, frame.networks rfl, frame.networkServices rfl, frame.routes rfl⟩

/-- A row that takes the place of those with its key. -/
theorem writes_service {row : ServiceRow} (reads : after.cidrIn = db.cidrIn)
    (networks : after.networks = db.networks)
    (routes : after.routes = db.routes)
    (services
      : ∀ other, other ∈ after.networkServices
          ↔ other = row
            ∨ (other ∈ db.networkServices
              ∧ (other.networkId = row.networkId → other.name ≠ row.name)))
    : Writes row.networkId [row.content] [] db after := by
  have sameRoutes : ∀ id, after.routeSet id = db.routeSet id := by
    intro id
    rw [Db.routeSet, routes]
    rfl
  refine ⟨reads, networks, ?_, sameRoutes _, ?_, fun id _ => sameRoutes id⟩
  · ext content
    change (∃ other ∈ after.networkServices, _) ↔ content = row.content ∨ _
    constructor
    · intro stored
      obtain ⟨other, there, same, rfl⟩ := stored
      rcases (services other).mp there with rfl | ⟨held, apart⟩
      · exact Or.inl rfl
      · exact Or.inr ⟨⟨other, held, same, rfl⟩, apart same⟩
    · intro written
      rcases written with rfl | ⟨⟨other, held, same, rfl⟩, apart⟩
      · exact ⟨row, (services row).mpr (Or.inl rfl), rfl, rfl⟩
      · exact ⟨other, (services other).mpr (Or.inr ⟨held, fun _ => apart⟩), same, rfl⟩
  · intro id foreign
    ext content
    constructor
    · intro stored
      obtain ⟨other, there, same, rfl⟩ := stored
      rcases (services other).mp there with rfl | ⟨held, _⟩
      · exact absurd same.symm foreign
      · exact ⟨other, held, same, rfl⟩
    · intro stored
      obtain ⟨other, held, same, rfl⟩ := stored
      refine ⟨other, (services other).mpr (Or.inr ⟨held, ?_⟩), same, rfl⟩
      intro home
      exact absurd (same.symm.trans home) foreign

/-- A service replaces the one of its name. -/
theorem upsertService_writes {name destination protocol : String} {ports : List Int}
    {description : Option String} {reply : Unit}
    (ran : db.upsertService networkId name destination protocol ports description
      = .ok (reply, after))
    : Writes networkId [⟨name, db.cidrIn destination, protocol, ports, description⟩] [] db after := by
  rw [Db.upsertService] at ran
  cases read : db.cidrIn destination with
  | none =>
      rw [read] at ran
      cases ran
  | some network =>
      simp only [read] at ran
      split at ran
      · split at ran
        · next protocol_check ports_check =>
            let row : ServiceRow := {
              networkId, name, destination := network, protocol, ports, description
              protocol_check, ports_check
            }
            split at ran
            · next known =>
                cases ran
                refine @writes_service db _ row rfl rfl rfl ?_
                intro other
                rw [mem_updateWhere]
                constructor
                · intro replaced
                  obtain ⟨old, held, rfl⟩ := replaced
                  split
                  · exact Or.inl rfl
                  · next apart =>
                      refine Or.inr ⟨held, ?_⟩
                      intro home same
                      exact apart (by simp [home, same, row])
                · intro stays
                  rcases stays with rfl | ⟨held, apart⟩
                  · obtain ⟨old, held, key⟩ := List.any_eq_true.mp known
                    exact ⟨old, held, (if_pos key).symm⟩
                  · refine ⟨other, held, (if_neg ?_).symm⟩
                    intro key
                    simp only [Bool.and_eq_true, beq_iff_eq] at key
                    exact apart key.1 key.2
            · next unknown =>
                split at ran
                · cases ran
                · cases ran
                  refine @writes_service db _ row rfl rfl rfl ?_
                  intro other
                  rw [List.mem_append, List.mem_singleton, or_comm]
                  refine or_congr_right ?_
                  constructor
                  · intro held
                    refine ⟨held, ?_⟩
                    intro home same
                    exact unknown (List.any_eq_true.mpr ⟨other, held, by simp [home, same, row]⟩)
                  · exact fun stays => stays.1
        · cases ran
      · cases ran

/-- A route gives way to the one of its destination. -/
theorem insertRoute_writes {destination : String} {description : Option String} {reply : Unit}
    (ran : db.insertRoute networkId destination description = .ok (reply, after))
    : Writes networkId [] [⟨db.cidrIn destination, description⟩] db after := by
  rw [Db.insertRoute] at ran
  cases read : db.cidrIn destination with
  | none =>
      rw [read] at ran
      cases ran
  | some network =>
      simp only [read] at ran
      have routed : ∀ {content : RouteContent}, content.destination = some network
          → (content ∈ db.routeSet networkId → ∃ row ∈ db.routes,
              row.networkId = networkId ∧ row.destination = network) := by
        intro content same stored
        obtain ⟨row, there, home, rfl⟩ := stored
        exact ⟨row, there, home, Option.some.inj same⟩
      split at ran
      · next known =>
          cases ran
          obtain ⟨held, there, key⟩ := List.any_eq_true.mp known
          simp only [Bool.and_eq_true, beq_iff_eq] at key
          refine ⟨rfl, rfl, rfl, ?_, fun _ _ => rfl, fun _ _ => rfl⟩
          ext content
          change _ ↔ content ∈ db.routeSet networkId ∨ _
          refine (or_iff_left ?_).symm
          intro new
          exact new.2 held.content ⟨held, there, key.1, rfl⟩ (congrArg some key.2)
      · next unknown =>
          split at ran
          · cases ran
          · cases ran
            have free : ∀ held ∈ db.routeSet networkId, held.destination ≠ some network := by
              intro held stored same
              obtain ⟨row, there, home, dest⟩ := routed same stored
              exact unknown (List.any_eq_true.mpr ⟨row, there, by simp [home, dest]⟩)
            refine ⟨rfl, rfl, rfl, ?_, fun _ _ => rfl, ?_⟩
            · ext content
              change (∃ row ∈ db.routes ++ [_], _) ↔ content ∈ db.routeSet networkId ∨ _
              constructor
              · intro stored
                obtain ⟨row, there, home, rfl⟩ := stored
                rcases List.mem_append.mp there with old | new
                · exact Or.inl ⟨row, old, home, rfl⟩
                · obtain rfl := List.mem_singleton.mp new
                  exact Or.inr ⟨rfl, free⟩
              · intro stays
                rcases stays with ⟨row, there, home, rfl⟩ | ⟨rfl, _⟩
                · exact ⟨row, List.mem_append_left _ there, home, rfl⟩
                · exact ⟨_, List.mem_append_right _ List.mem_cons_self, rfl, rfl⟩
            · intro id foreign
              ext content
              constructor
              · intro stored
                obtain ⟨row, there, home, rfl⟩ := stored
                rcases List.mem_append.mp there with old | new
                · exact ⟨row, old, home, rfl⟩
                · obtain rfl := List.mem_singleton.mp new
                  exact absurd home.symm foreign
              · intro stored
                obtain ⟨row, there, home, rfl⟩ := stored
                exact ⟨row, List.mem_append_left _ there, home, rfl⟩

end Statements

end WslVpn
