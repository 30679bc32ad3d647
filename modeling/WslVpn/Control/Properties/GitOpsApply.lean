import WslVpn.Control.Declarations

/-! What applying a directory leaves of the networks, services and routes that it declares. -/

namespace WslVpn

open AddressSpace Interleaving Records

/-- The call runs on its own, while time passes and statements may be lost, and returns a value. -/
def Returns {Value : Type} (call : Call Value) (db : Db) (value : Value) (after : Db) : Prop :=
  ∃ (passed : Nat → Nat) (fails : Nat → Bool) (n : Nat),
    call.execute (fun n => elapse (passed n)) fails n db = (.ok value, after)

section Returns

variable {Value Result : Type} {db after : Db}

theorem Returns.bind {call : Call Value} {rest : Value → Call Result} {result : Result}
    (returned : Returns (call >>= rest) db result after)
    : ∃ value between, Returns call db value between
      ∧ Returns (rest value) between result after := by
  obtain ⟨passed, fails, n, ran⟩ := returned
  obtain ⟨value, m, between, first, second⟩ := Program.execute_bind_ok ran
  exact ⟨value, between, ⟨passed, fails, n, first⟩, ⟨passed, fails, m, second⟩⟩

theorem Returns.query {statement : Statement} {reply : statement.Reply}
    (returned : Returns (query statement) db reply after)
    : ∃ passed, statement.exec (elapse passed db) = .ok (reply, after) := by
  obtain ⟨passed, fails, n, ran⟩ := returned
  exact ⟨passed n, Program.execute_request_ok ran⟩

/-- A call that starts with a statement: the statement has run. -/
theorem Returns.asks {statement : Statement} {rest : statement.Reply → Call Result}
    {result : Result}
    (returned : Returns (WslVpn.query statement >>= rest) db result after)
    : ∃ passed reply between, statement.exec (elapse passed db) = .ok (reply, between)
        ∧ Returns (rest reply) between result after := by
  obtain ⟨reply, between, asked, goesOn⟩ := returned.bind
  obtain ⟨passed, ran⟩ := asked.query
  exact ⟨passed, reply, between, ran, goesOn⟩

theorem Returns.done {value result : Value}
    (returned : Returns (pure value) db result after)
    : result = value ∧ after = db := by
  obtain ⟨passed, fails, n, ran⟩ := returned
  cases ran
  exact ⟨rfl, rfl⟩

theorem Returns.thrown {error : AppError} {value : Value}
    (returned : Returns (throw error) db value after)
    : False := by
  obtain ⟨passed, fails, n, ran⟩ := returned
  cases ran

end Returns

-----------------------------------------------------------------------------------------
-- One file
-----------------------------------------------------------------------------------------

section File

variable {db after : Db} {networkId : Uuid}

/-- The services are written in their order, by induction on the list. -/
theorem applyServices_writes {items : List Yaml}
    (returned : Returns (GitOpsService.applyServices networkId items) db () after)
    : Writes networkId (items.filterMap (declaredService db.cidrIn)) [] db after
      ∧ ∀ item ∈ items, ∃ content, declaredService db.cidrIn item = some content := by
  induction items generalizing db with
  | nil =>
      obtain ⟨_, rfl⟩ := returned.done
      exact ⟨(Undeclared.refl _).writes networkId, by simp⟩
  | cons service rest ih =>
      rw [GitOpsService.applyServices] at returned
      cases named : service.str? "name" with
      | none =>
          rw [named] at returned
          exact returned.thrown.elim
      | some name =>
          cases addressed : service.str? "destination" with
          | none =>
              rw [named, addressed] at returned
              exact returned.thrown.elim
          | some dest =>
              simp only [named, addressed] at returned
              split at returned
              · exact returned.thrown.elim
              · obtain ⟨passed, _, middle, ran, goesOn⟩ := returned.asks
                have own := ((undeclared_elapse passed db).writes networkId).trans
                  (upsertService_writes ran)
                have declared : declaredService db.cidrIn service = some ⟨name, db.cidrIn dest,
                    (service.str? "protocol").getD "tcp", GitOpsService.servicePorts service,
                    service.str? "description"⟩ := by
                  simp only [declaredService, named, addressed]
                have later := ih goesOn
                rw [own.reads] at later
                rw [List.filterMap_cons_some declared]
                exact ⟨own.trans later.1, List.forall_mem_cons.mpr ⟨⟨_, declared⟩, later.2⟩⟩

/-- The routes are written in their order, by induction on the list. -/
theorem applyRoutes_writes {items : List Yaml}
    (returned : Returns (GitOpsService.applyRoutes networkId items) db () after)
    : Writes networkId [] (items.filterMap (declaredRoute db.cidrIn)) db after := by
  induction items generalizing db with
  | nil =>
      obtain ⟨_, rfl⟩ := returned.done
      exact (Undeclared.refl _).writes networkId
  | cons route rest ih =>
      rw [GitOpsService.applyRoutes] at returned
      cases addressed : route.str? "destination" with
      | none =>
          have none : declaredRoute db.cidrIn route = none := by
            simp only [declaredRoute, addressed, Option.map_none]
          rw [addressed] at returned
          rw [List.filterMap_cons_none none]
          exact ih returned
      | some dest =>
          simp only [addressed] at returned
          obtain ⟨passed, _, middle, ran, goesOn⟩ := returned.asks
          have own := ((undeclared_elapse passed db).writes networkId).trans
            (insertRoute_writes ran)
          have declared : declaredRoute db.cidrIn route
              = some ⟨db.cidrIn dest, route.str? "description"⟩ := by
            simp only [declaredRoute, addressed, Option.map_some]
          have later := ih goesOn
          rw [own.reads] at later
          rw [List.filterMap_cons_some declared]
          exact own.trans later

/-- The network of a name is the stored one, or has been made from a file. -/
structure Ensured (file : Yaml) (name : String) (db after : Db) (row : NetworkRow) : Prop where
  reads : after.cidrIn = db.cidrIn
  services : after.networkServices = db.networkServices
  routes : after.routes = db.routes
  network
    : (db.networkNamed name = some row ∧ after.networks = db.networks)
      ∨ (db.networkNamed name = none ∧ row.name = name
        ∧ row.content = declaredNetwork db.cidrIn file
        ∧ (∀ other ∈ db.networks, other.id ≠ row.id) ∧ after.networks = db.networks ++ [row])

theorem ensureNetwork_ensured {entry : DirEntry Yaml} {file : Yaml} {name cidr : String} {id : Uuid}
    (declared : file.str? "cidr" = some cidr)
    (returned : Returns (GitOpsService.ensureNetwork entry file name cidr) db id after)
    : ∃ row, row.id = id ∧ Ensured file name db after row := by
  rw [GitOpsService.ensureNetwork] at returned
  obtain ⟨existing, middle, looked, goesOn⟩ := returned.bind
  rw [NetworkService.getByName] at looked
  obtain ⟨passed, found, _, ran, answered⟩ := looked.asks
  obtain ⟨rfl, rfl⟩ := answered.done
  cases ran
  cases stored : db.networkNamed name with
  | some row =>
      have found : (elapse passed db).networks.find? (·.name == name) = some row := stored
      rw [found] at goesOn
      obtain ⟨rfl, rfl⟩ := goesOn.done
      exact ⟨row, rfl, rfl, rfl, rfl, Or.inl ⟨stored, rfl⟩⟩
  | none =>
      have found : (elapse passed db).networks.find? (·.name == name) = none := stored
      rw [found] at goesOn
      obtain ⟨network, _, made, last⟩ := goesOn.bind
      obtain ⟨rfl, rfl⟩ := last.done
      rw [NetworkService.create] at made
      obtain ⟨later, row, _, ran, shown⟩ := made.asks
      obtain ⟨rfl, rfl⟩ := shown.done
      obtain ⟨network, read, fresh, rfl, rfl⟩ := Statement.insertNetwork_ok ran
      let row : NetworkRow := ⟨entry.freshId, name, network,
        Yaml.strings (file.get? "dns") "servers", Yaml.strings (file.get? "dns") "domains"⟩
      refine ⟨row, rfl, rfl, rfl, rfl, Or.inr ⟨stored, rfl, ?_, fresh, rfl⟩⟩
      rw [NetworkRow.content, declaredNetwork, declared, Option.bind_some]
      exact congrArg (fun cidr => NetworkContent.mk cidr _ _) read.symm

/-- What applying a file does: its network is there, and its services and routes are written to it.
-/
def FileApplied (file : Yaml) (db after : Db) : Prop :=
  ∃ name row middle, file.str? "name" = some name ∧ Ensured file name db middle row
    ∧ Writes row.id (declaredServices db.cidrIn file) (declaredRoutes db.cidrIn file) middle after
    ∧ ∀ item ∈ fileServices file, ∃ content, declaredService db.cidrIn item = some content

theorem applyNetwork_applied {entry : DirEntry Yaml} {file : Yaml}
    (returned : Returns (GitOpsService.applyNetwork entry file) db () after)
    : FileApplied file db after := by
  rw [GitOpsService.applyNetwork] at returned
  cases named : file.str? "name" with
  | none =>
      rw [named] at returned
      exact returned.thrown.elim
  | some name =>
      cases addressed : file.str? "cidr" with
      | none =>
          simp only [named, addressed] at returned
          exact returned.thrown.elim
      | some cidr =>
          simp only [named, addressed] at returned
          obtain ⟨id, middle, first, goesOn⟩ := returned.bind
          obtain ⟨row, rfl, ensured⟩ := ensureNetwork_ensured addressed first
          obtain ⟨_, between, services, routes⟩ := goesOn.bind
          obtain ⟨stored, declared⟩ := applyServices_writes services
          have written := stored.trans (applyRoutes_writes routes)
          rw [List.append_nil, List.nil_append, stored.reads, ensured.reads] at written
          rw [ensured.reads] at declared
          exact ⟨name, row, middle, named, ensured, written, declared⟩

end File

-----------------------------------------------------------------------------------------
-- The loops over the directory
-----------------------------------------------------------------------------------------

/-- One document after the other has been applied. -/
def Applied {Document : Type} (applies : Document → Db → Db → Prop)
    : List Document → Db → Db → Prop
  | [], db, after => after = db
  | document :: rest, db, after =>
      ∃ middle, applies document db middle ∧ Applied applies rest middle after

/-- The loop applies every document of the directory, by induction on its entries. -/
theorem forYaml_applied {Document : Type} {describe : String → String}
    {body : DirEntry Document → Document → Call Unit} {applies : Document → Db → Db → Prop}
    (applied
      : ∀ entry document db after, Returns (body entry document) db () after
          → applies document db after)
    {entries : List (Option (DirEntry Document))} {db after : Db} {count : Nat}
    (returned : Returns (forYaml describe body entries) db count after)
    : Applied applies (yamlDocuments entries) db after := by
  induction entries generalizing db count with
  | nil => exact returned.done.2
  | cons entry rest ih =>
      cases entry with
      | none => exact returned.thrown.elim
      | some entry =>
          rw [forYaml] at returned
          by_cases yaml : entry.extension = some "yaml"
          · rw [if_neg (not_not.mpr yaml)] at returned
            cases read : entry.content with
            | unreadable =>
                rw [read] at returned
                exact returned.thrown.elim
            | malformed message =>
                rw [read] at returned
                exact returned.thrown.elim
            | parsed document =>
                simp only [read] at returned
                obtain ⟨_, middle, first, goesOn⟩ := returned.bind
                obtain ⟨_, _, later, last⟩ := goesOn.bind
                obtain ⟨_, rfl⟩ := last.done
                have listed : yamlDocuments (some entry :: rest)
                    = document :: yamlDocuments rest := by
                  simp [yamlDocuments, yaml, read]
                rw [listed]
                exact ⟨middle, applied _ _ _ _ first, ih later⟩
          · rw [if_pos yaml] at returned
            have skipped : yamlDocuments (some entry :: rest) = yamlDocuments rest := by
              simp [yamlDocuments, yaml]
            rw [skipped]
            exact ih returned

theorem forDirectory_applied {Document : Type} {describe : String → String}
    {body : DirEntry Document → Document → Call Unit} {applies : Document → Db → Db → Prop}
    (applied
      : ∀ entry document db after, Returns (body entry document) db () after
          → applies document db after)
    {listing : Option (Listing Document)} {db after : Db} {count : Nat}
    (returned : Returns (forDirectory describe body listing) db count after)
    : Applied applies (listedDocuments listing) db after := by
  cases listing with
  | none => exact returned.done.2
  | some listing =>
      cases listing with
      | unreadable => exact returned.thrown.elim
      | entries entries => exact forYaml_applied applied returned

theorem Applied.undeclared {Document : Type} {applies : Document → Db → Db → Prop}
    (each : ∀ document db after, applies document db after → Undeclared db after)
    {documents : List Document} {db after : Db} (applied : Applied applies documents db after)
    : Undeclared db after := by
  induction documents generalizing db with
  | nil =>
      rw [Applied] at applied
      rw [applied]
      exact Undeclared.refl db
  | cons document rest ih =>
      obtain ⟨middle, first, goesOn⟩ := applied
      exact (each _ _ _ first).trans (ih goesOn)

-----------------------------------------------------------------------------------------
-- The whole directory
-----------------------------------------------------------------------------------------

theorem applyGroup_undeclared {entry : DirEntry Yaml} {file : Yaml} {db after : Db}
    (returned : Returns (GitOpsService.applyGroup entry file) db () after)
    : Undeclared db after := by
  rw [GitOpsService.applyGroup] at returned
  cases named : file.str? "name" with
  | none =>
      rw [named] at returned
      rw [returned.done.2]
      exact Undeclared.refl db
  | some name =>
      simp only [named] at returned
      obtain ⟨passed, _, _, ran, last⟩ := returned.asks
      obtain ⟨_, rfl⟩ := last.done
      exact (undeclared_elapse passed db).trans (exec_undeclared rfl ran)

theorem applyPolicyFile_undeclared {gitCommit : Option String}
    {entry : DirEntry AccessPolicyDocument} {document : AccessPolicyDocument} {db after : Db}
    (returned : Returns (GitOpsService.applyPolicyFile gitCommit entry document) db () after)
    : Undeclared db after := by
  have step : ∀ {statement : Statement} {reply : statement.Reply} {db after : Db},
      statement.declares = false → Returns (query statement) db reply after
        → Undeclared db after := by
    intro statement reply db after other returned
    obtain ⟨passed, ran⟩ := returned.query
    exact (undeclared_elapse passed db).trans (exec_undeclared other ran)
  rw [GitOpsService.applyPolicyFile] at returned
  obtain ⟨_, middle, policy, revision⟩ := returned.bind
  refine Undeclared.trans ?_ (step rfl revision)
  rw [GitOpsService.applyPolicyYaml] at policy
  split at policy
  · exact policy.thrown.elim
  · obtain ⟨_, _, first, policy⟩ := policy.bind
    obtain ⟨_, _, second, policy⟩ := policy.bind
    obtain ⟨_, _, third, policy⟩ := policy.bind
    obtain ⟨_, _, fourth, last⟩ := policy.bind
    obtain ⟨_, rfl⟩ := last.done
    exact (((step rfl first).trans (step rfl second)).trans
      (step rfl third)).trans (step rfl fourth)

/-- The network files are applied in their order, and nothing else is declared. -/
theorem applyDirectory_applied {directory : GitOpsDirectory} {gitCommit : Option String}
    {count : Nat} {db after : Db}
    (returned : Returns (GitOpsService.applyDirectory directory gitCommit) db count after)
    : ∃ first second, Undeclared db first
        ∧ Applied FileApplied directory.networkFiles first second
        ∧ Undeclared second after := by
  rw [GitOpsService.applyDirectory] at returned
  cases policies : directory.policies with
  | none =>
      rw [policies] at returned
      exact returned.thrown.elim
  | some listing =>
      simp only [policies] at returned
      obtain ⟨_, first, groups, returned⟩ := returned.bind
      obtain ⟨_, second, networks, policies⟩ := returned.bind
      refine ⟨first, second, ?_, ?_, ?_⟩
      · exact (forDirectory_applied (fun _ _ _ _ => applyGroup_undeclared) groups).undeclared
          (fun _ _ _ same => same)
      · exact @forDirectory_applied _ _ _ FileApplied (fun _ _ _ _ => applyNetwork_applied)
          _ _ _ _ networks
      · exact (forDirectory_applied (fun _ _ _ _ => applyPolicyFile_undeclared) policies).undeclared
          (fun _ _ _ same => same)

/-- The primary key of the networks. -/
def Db.NetworkIds (db : Db) : Prop :=
  ∀ left ∈ db.networks, ∀ right ∈ db.networks, left.id = right.id → left = right

/-- What a list of files makes of the network of a name. -/
structure Outcome (name : String) (files : List Yaml) (db after : Db) (row : NetworkRow)
    : Prop where
  network
    : db.networkNamed name = some row
      ∨ (db.networkNamed name = none ∧ (∀ other ∈ db.networks, other.id ≠ row.id)
        ∧ ∃ first, (filesOf name files).head? = some first
          ∧ row.content = declaredNetwork db.cidrIn first)
  services
    : after.serviceSet row.id
      = putAll ServiceContent.name (db.serviceSet row.id)
          ((filesOf name files).flatMap (declaredServices db.cidrIn))
  routes
    : after.routeSet row.id
      = keepAll RouteContent.destination (db.routeSet row.id)
          ((filesOf name files).flatMap (declaredRoutes db.cidrIn))

/-- A network with a new id. -/
theorem networkIds_append {db after : Db} {row : NetworkRow} (ids : db.NetworkIds)
    (fresh : ∀ other ∈ db.networks, other.id ≠ row.id)
    (grown : after.networks = db.networks ++ [row])
    : after.NetworkIds := by
  intro left leftThere right rightThere equal
  rw [grown, List.mem_append, List.mem_singleton] at leftThere rightThere
  rcases leftThere with leftThere | rfl
  · rcases rightThere with rightThere | rfl
    · exact ids left leftThere right rightThere equal
    · exact absurd equal (fresh left leftThere)
  · rcases rightThere with rightThere | rfl
    · exact absurd equal.symm (fresh right rightThere)
    · rfl

section Ensured

variable {file : Yaml} {name : String} {db after : Db} {row : NetworkRow}

theorem Ensured.named (ensured : Ensured file name db after row)
    : after.networkNamed name = some row := by
  rcases ensured.network with ⟨stored, same⟩ | ⟨missing, named, _, _, grown⟩
  · rw [Db.networkNamed, same]
    exact stored
  · rw [Db.networkNamed] at missing
    rw [Db.networkNamed, grown, List.find?_append, missing, Option.none_or]
    simp [named]

theorem Ensured.namedOther (ensured : Ensured file name db after row) {other : String}
    (apart : name ≠ other)
    : after.networkNamed other = db.networkNamed other := by
  rcases ensured.network with ⟨_, same⟩ | ⟨_, named, _, _, grown⟩
  · rw [Db.networkNamed, same, Db.networkNamed]
  · rw [Db.networkNamed, grown, List.find?_append, Db.networkNamed]
    simp [named, apart]

theorem Ensured.subset (ensured : Ensured file name db after row) {stored : NetworkRow}
    (there : stored ∈ db.networks)
    : stored ∈ after.networks := by
  rcases ensured.network with ⟨_, same⟩ | ⟨_, _, _, _, grown⟩
  · rwa [same]
  · rw [grown]
    exact List.mem_append_left _ there

theorem Ensured.ids (ensured : Ensured file name db after row) (ids : db.NetworkIds)
    : after.NetworkIds := by
  rcases ensured.network with ⟨_, same⟩ | ⟨_, _, _, fresh, grown⟩
  · rw [Db.NetworkIds, same]
    exact ids
  · exact networkIds_append ids fresh grown

end Ensured

theorem networkNamed_mem {db : Db} {name : String} {row : NetworkRow}
    (stored : db.networkNamed name = some row)
    : row ∈ db.networks ∧ row.name = name := by
  refine ⟨List.mem_of_find?_eq_some stored, ?_⟩
  simpa using List.find?_some stored

/-- What the files make of a network, by induction on them. -/
theorem Applied.outcome {name : String} {files : List Yaml} {db after : Db} {row : NetworkRow}
    (ids : db.NetworkIds) (applied : Applied FileApplied files db after)
    (stored : after.networkNamed name = some row)
    : Outcome name files db after row := by
  induction files generalizing db with
  | nil =>
      rw [Applied] at applied
      subst applied
      exact ⟨Or.inl stored, rfl, rfl⟩
  | cons file rest ih =>
      obtain ⟨middle, ⟨fileName, fileRow, made, named, ensured, writes, _⟩, goesOn⟩ := applied
      have sameNetworks : ∀ name, middle.networkNamed name = made.networkNamed name := by
        intro name
        rw [Db.networkNamed, writes.networks, Db.networkNamed]
      have idsMade := ensured.ids ids
      have idsMiddle : middle.NetworkIds := by
        rw [Db.NetworkIds, writes.networks]
        exact idsMade
      have reads : middle.cidrIn = db.cidrIn := writes.reads.trans ensured.reads
      have later := ih idsMiddle goesOn
      have servicesMade : ∀ id, made.serviceSet id = db.serviceSet id := by
        intro id
        rw [Db.serviceSet, ensured.services, Db.serviceSet]
      have routesMade : ∀ id, made.routeSet id = db.routeSet id := by
        intro id
        rw [Db.routeSet, ensured.routes, Db.routeSet]
      by_cases same : fileName = name
      · subst same
        have mine : filesOf fileName (file :: rest) = file :: filesOf fileName rest := by
          simp [filesOf, named]
        -- the network that the file has ensured is the one at the end
        have isRow : fileRow = row := by
          have present := (sameNetworks fileName).trans ensured.named
          rcases later.network with stored | ⟨missing, _⟩
          · exact Option.some.inj (present.symm.trans stored)
          · rw [present] at missing
            cases missing
        subst isRow
        refine ⟨?_, ?_, ?_⟩
        · rcases ensured.network with ⟨stored, _⟩ | ⟨missing, _, content, fresh, _⟩
          · exact Or.inl stored
          · refine Or.inr ⟨missing, fresh, file, ?_, content⟩
            rw [mine, List.head?_cons]
        · rw [later.services, reads, mine, List.flatMap_cons, putAll_append, writes.services,
            servicesMade]
        · rw [later.routes, reads, mine, List.flatMap_cons, keepAll_append, writes.routes, routesMade]
      · have mine : filesOf name (file :: rest) = filesOf name rest := by
          simp [filesOf, named, same]
        have before := (sameNetworks name).trans (ensured.namedOther same)
        have apart : row.id ≠ fileRow.id := by
          obtain ⟨fileThere, fileNamed⟩ := networkNamed_mem ensured.named
          rcases later.network with stored | ⟨_, fresh, _⟩
          · rw [sameNetworks] at stored
            obtain ⟨there, rowNamed⟩ := networkNamed_mem stored
            intro equal
            have one := idsMade row there fileRow fileThere equal
            rw [one, fileNamed] at rowNamed
            exact same rowNamed
          · rw [writes.networks] at fresh
            exact (fresh fileRow fileThere).symm
        refine ⟨?_, ?_, ?_⟩
        · rcases later.network with stored | ⟨missing, fresh, first, head, content⟩
          · exact Or.inl (before.symm.trans stored)
          · refine Or.inr ⟨before.symm.trans missing, ?_, first, ?_, ?_⟩
            · intro other there
              refine fresh other ?_
              rw [writes.networks]
              exact ensured.subset there
            · rw [mine]
              exact head
            · rw [← reads]
              exact content
        · rw [later.services, reads, mine, writes.otherServices _ apart, servicesMade]
        · rw [later.routes, reads, mine, writes.otherRoutes _ apart, routesMade]

/-- A file that is applied leaves the network of any name that there is. -/
theorem FileApplied.keeps {file : Yaml} {db after : Db} {name : String} {row : NetworkRow}
    (applied : FileApplied file db after) (stored : db.networkNamed name = some row)
    : after.networkNamed name = some row := by
  obtain ⟨fileName, fileRow, made, _, ensured, writes, _⟩ := applied
  have unchanged : after.networkNamed name = made.networkNamed name := by
    rw [Db.networkNamed, writes.networks, Db.networkNamed]
  rw [unchanged]
  by_cases same : fileName = name
  · subst same
    rcases ensured.network with ⟨found, _⟩ | ⟨missing, _⟩
    · rw [ensured.named, ← found, stored]
    · rw [stored] at missing
      cases missing
  · exact (ensured.namedOther same).trans stored

/-- The network of every file that is applied is there at the end, by induction on the files. -/
theorem Applied.present {files : List Yaml} {db after : Db}
    (applied : Applied FileApplied files db after) {file : Yaml} (member : file ∈ files)
    : ∃ name row, file.str? "name" = some name ∧ after.networkNamed name = some row := by
  have stays : ∀ {files : List Yaml} {db : Db} {name : String} {row : NetworkRow},
      Applied FileApplied files db after → db.networkNamed name = some row
        → after.networkNamed name = some row := by
    intro files
    induction files with
    | nil =>
        intro db name row applied stored
        rw [Applied] at applied
        rwa [applied]
    | cons file rest ih =>
        intro db name row applied stored
        obtain ⟨middle, first, goesOn⟩ := applied
        exact ih goesOn (first.keeps stored)
  induction files generalizing db with
  | nil => cases member
  | cons head rest ih =>
      obtain ⟨middle, first, goesOn⟩ := applied
      rcases List.mem_cons.mp member with rfl | later
      · obtain ⟨name, row, made, named, ensured, writes, _⟩ := first
        refine ⟨name, row, named, stays goesOn ?_⟩
        rw [Db.networkNamed, writes.networks]
        exact ensured.named
      · exact ih goesOn later

/-- Every service of the files that are applied has a name and a destination, by induction on the files. -/
theorem Applied.declared {files : List Yaml} {db after : Db}
    (applied : Applied FileApplied files db after)
    : ∀ file ∈ files, ∀ item ∈ fileServices file,
        ∃ content, declaredService db.cidrIn item = some content := by
  induction files generalizing db with
  | nil => simp
  | cons head rest ih =>
      obtain ⟨middle, ⟨_, _, _, _, ensured, writes, declared⟩, goesOn⟩ := applied
      have later := ih goesOn
      rw [writes.reads, ensured.reads] at later
      exact List.forall_mem_cons.mpr ⟨declared, later⟩

/-- Databases that earlier applies of any directories lead to, from one whose networks have distinct
ids, whether they came to their ends or broke off.
-/
inductive Reached : Db → Prop
  | start {db : Db} (ids : db.NetworkIds) : Reached db
  | apply {db : Db} (reached : Reached db) (directory : GitOpsDirectory) (gitCommit : Option String)
    (passed : Nat → Nat) (fails : Nat → Bool)
    : Reached ((GitOpsService.applyDirectory directory gitCommit).execute
        (fun n => elapse (passed n)) fails 0 db).2

/-- Every statement keeps the ids of the networks distinct. -/
theorem networkIds_exec {statement : Statement} {db after : Db} {reply : statement.Reply}
    (ids : db.NetworkIds) (ran : statement.exec db = .ok (reply, after))
    : after.NetworkIds := by
  by_cases made : ∃ id request, statement = .insertNetwork id request
  · obtain ⟨id, request, rfl⟩ := made
    obtain ⟨network, _, fresh, rfl, grown⟩ := Statement.insertNetwork_ok ran
    exact networkIds_append ids fresh (congrArg Db.networks grown)
  · have same : after.networks = db.networks := by
      rw [(Statement.exec_effect ran).networks]
      cases statement with
      | insertNetwork id request => exact absurd ⟨id, request, rfl⟩ made
      | _ => rfl
    rw [Db.NetworkIds, same]
    exact ids

theorem Reached.ids {db : Db} (reached : Reached db) : db.NetworkIds := by
  induction reached with
  | start ids => exact ids
  | apply _ directory gitCommit passed fails ih =>
      have keeps : ∀ (statement : Statement) (db : Db) (reply : statement.Reply) (after : Db),
          db.NetworkIds → statement.exec db = .ok (reply, after) → after.NetworkIds :=
        fun _ _ _ _ ids ran => networkIds_exec ids ran
      exact @Program.execute_keeps Db DbError AppError Nat sql (fun n => elapse (passed n)) fails
        Db.NetworkIds (fun _ _ ids => ids) keeps _ _ _ ih

section Directory

variable {db after : Db} {directory : GitOpsDirectory} {gitCommit : Option String} {count : Nat}
  {name : String} {row : NetworkRow}

/-- The services that the files of a name list. -/
def GitOpsDirectory.servicesOf (directory : GitOpsDirectory) (name : String) : List Yaml :=
  (filesOf name directory.networkFiles).flatMap fileServices

theorem applyDirectory_outcome (reached : Reached db)
    (returned : Returns (GitOpsService.applyDirectory directory gitCommit) db count after)
    (stored : after.networkNamed name = some row)
    : Outcome name directory.networkFiles db after row := by
  obtain ⟨first, second, before, applied, behind⟩ := applyDirectory_applied returned
  have ids : first.NetworkIds := by
    rw [Db.NetworkIds, before.networks]
    exact reached.ids
  have namedAfter : after.networkNamed name = second.networkNamed name := by
    rw [Db.networkNamed, behind.networks, Db.networkNamed]
  have namedFirst : first.networkNamed name = db.networkNamed name := by
    rw [Db.networkNamed, before.networks, Db.networkNamed]
  have outcome := applied.outcome ids (namedAfter.symm.trans stored)
  have start := before.writes row.id
  have final := behind.writes row.id
  have servicesStart : first.serviceSet row.id = db.serviceSet row.id := start.services
  have servicesFinal : after.serviceSet row.id = second.serviceSet row.id := final.services
  have routesStart : first.routeSet row.id = db.routeSet row.id := start.routes
  have routesFinal : after.routeSet row.id = second.routeSet row.id := final.routes
  constructor
  · rw [← namedFirst, ← before.networks, ← before.reads]
    exact outcome.network
  · rw [servicesFinal, outcome.services, servicesStart, before.reads]
  · rw [routesFinal, outcome.routes, routesStart, before.reads]

theorem applyDirectory_present
    (returned : Returns (GitOpsService.applyDirectory directory gitCommit) db count after)
    {file : Yaml} (member : file ∈ directory.networkFiles)
    : ∃ name row, file.str? "name" = some name ∧ after.networkNamed name = some row := by
  obtain ⟨_, second, _, applied, behind⟩ := applyDirectory_applied returned
  obtain ⟨name, row, named, stored⟩ := applied.present member
  refine ⟨name, row, named, ?_⟩
  rw [Db.networkNamed, behind.networks]
  exact stored

theorem applyDirectory_declared
    (returned : Returns (GitOpsService.applyDirectory directory gitCommit) db count after)
    : ∀ item ∈ directory.servicesOf name,
        ∃ content, declaredService db.cidrIn item = some content
          ∧ item.str? "name" = some content.name := by
  obtain ⟨first, _, before, applied, _⟩ := applyDirectory_applied returned
  intro item listed
  obtain ⟨file, member, there⟩ := List.mem_flatMap.mp listed
  obtain ⟨content, declared⟩ := applied.declared file (List.mem_filter.mp member).1 item there
  rw [before.reads] at declared
  exact ⟨content, declared, (declares_of_declared declared).name⟩

end Directory

/-- What the services of a network are once the items have been written over those that were stored: each of
the last items of their names is there as it declares it, what has another name has been kept, and there is
nothing else.
-/
structure ServicesApplied (cidrIn : String → Option IpNetwork) (items : List Yaml)
    (stored after : Set ServiceContent) : Prop where
  declared
    : ∀ item, Last (Yaml.str? · "name") item items →
        ∃ service ∈ after, Declares cidrIn item service
          ∧ ∀ other ∈ after, other.name = service.name → other = service
  kept
    : ∀ service ∈ stored, (∀ item ∈ items, item.str? "name" ≠ some service.name) → service ∈ after
  only
    : ∀ service ∈ after,
        (∃ item, Last (Yaml.str? · "name") item items ∧ Declares cidrIn item service)
        ∨ (service ∈ stored ∧ ∀ item ∈ items, item.str? "name" ≠ some service.name)

theorem servicesApplied {cidrIn : String → Option IpNetwork} {items : List Yaml}
    {stored after : Set ServiceContent}
    (made
      : ∀ item ∈ items, ∃ content, declaredService cidrIn item = some content
          ∧ item.str? "name" = some content.name)
    (written
      : after = putAll ServiceContent.name stored (items.filterMap (declaredService cidrIn)))
    : ServicesApplied cidrIn items stored after := by
  have undeclared (service : ServiceContent)
      : (∀ other ∈ items.filterMap (declaredService cidrIn), other.name ≠ service.name)
        ↔ ∀ item ∈ items, item.str? "name" ≠ some service.name := by
    constructor
    · intro none item listed named
      obtain ⟨content, declared, own⟩ := made item listed
      rw [own] at named
      exact none content (List.mem_filterMap.mpr ⟨item, listed, declared⟩) (Option.some.inj named)
    · intro none content listed same
      obtain ⟨item, there, declared⟩ := List.mem_filterMap.mp listed
      exact none item there ((declares_of_declared declared).name.trans (congrArg some same))
  subst written
  constructor
  case declared =>
    intro item last
    obtain ⟨content, declared, _⟩ := made item last.mem
    have lastContent := (last_filterMap made).mpr ⟨item, last, declared⟩
    refine ⟨content, mem_putAll.mpr (Or.inl lastContent), declares_of_declared declared, ?_⟩
    intro other there same
    rcases mem_putAll.mp there with lastOther | ⟨_, none⟩
    · exact lastOther.unique lastContent same
    · exact absurd same.symm (none content lastContent.mem)
  case kept =>
    intro service held none
    exact mem_putAll.mpr (Or.inr ⟨held, (undeclared service).mpr none⟩)
  case only =>
    intro service there
    rcases mem_putAll.mp there with last | ⟨held, none⟩
    · obtain ⟨item, lastItem, declared⟩ := (last_filterMap made).mp last
      exact Or.inl ⟨item, lastItem, declares_of_declared declared⟩
    · exact Or.inr ⟨held, (undeclared service).mp none⟩

/-- Applying a directory adds: a network that is stored already keeps its range and its DNS settings,
and a new one has those of the first file that declares it. The services of the network are those
that its files declare, the last one of each name, and the stored ones whose names the files do not
declare. Its routes are the stored ones, and the first one declared of each other destination. So an
apply of the directory over any other state makes the same of the same services.
-/
theorem gitops_apply_adds {db after : Db} (reached : Reached db) {directory : GitOpsDirectory}
    {gitCommit : Option String} {count : Nat}
    (returned : Returns (GitOpsService.applyDirectory directory gitCommit) db count after)
    {file : Yaml} (member : file ∈ directory.networkFiles)
    : ∃ name row, file.str? "name" = some name ∧ after.networkNamed name = some row
        ∧ (db.networkNamed name = some row
          ∨ (db.networkNamed name = none
            ∧ ∃ first, (filesOf name directory.networkFiles).head? = some first
              ∧ row.content = declaredNetwork db.cidrIn first))
        ∧ ServicesApplied db.cidrIn (directory.servicesOf name) (db.serviceSet row.id)
            (after.serviceSet row.id)
        ∧ (∀ route, route ∈ after.routeSet row.id
            ↔ route ∈ db.routeSet row.id
              ∨ (First RouteContent.destination route
                  ((filesOf name directory.networkFiles).flatMap (declaredRoutes db.cidrIn))
                ∧ ∀ held ∈ db.routeSet row.id, held.destination ≠ route.destination))
        ∧ ∀ (other otherAfter : Db) (otherCount : Nat) (otherRow : NetworkRow),
            Reached other → other.cidrIn = db.cidrIn →
            Returns (GitOpsService.applyDirectory directory gitCommit) other otherCount otherAfter →
            otherAfter.networkNamed name = some otherRow →
            other.serviceSet otherRow.id = db.serviceSet row.id →
              otherAfter.serviceSet otherRow.id = after.serviceSet row.id := by
  obtain ⟨name, row, named, stored⟩ := applyDirectory_present returned member
  have outcome := applyDirectory_outcome reached returned stored
  have written : after.serviceSet row.id
      = putAll ServiceContent.name (db.serviceSet row.id)
          ((directory.servicesOf name).filterMap (declaredService db.cidrIn)) := by
    rw [outcome.services, GitOpsDirectory.servicesOf, List.filterMap_flatMap]
    rfl
  refine ⟨name, row, named, stored, ?_, ?_, ?_, ?_⟩
  · exact outcome.network.imp_right (fun made => ⟨made.1, made.2.2⟩)
  · exact servicesApplied (applyDirectory_declared returned) written
  · intro route
    rw [outcome.routes]
    exact mem_keepAll
  · intro other otherAfter otherCount otherRow otherReached reads otherReturned otherStored same
    have otherOutcome := applyDirectory_outcome otherReached otherReturned otherStored
    rw [otherOutcome.services, outcome.services, same, reads]

-----------------------------------------------------------------------------------------
-- A service that is no longer declared
-----------------------------------------------------------------------------------------

/-- The tables have exactly what a file declares. -/
def Converged (file : Yaml) (db : Db) : Prop :=
  ∃ name row, file.str? "name" = some name ∧ db.networkNamed name = some row
    ∧ row.content = declaredNetwork db.cidrIn file
    ∧ (∀ service ∈ db.serviceSet row.id, ∃ item ∈ fileServices file, Declares db.cidrIn item service)
    ∧ (∀ item ∈ fileServices file, ∃ service ∈ db.serviceSet row.id, Declares db.cidrIn item service)
    ∧ (∀ route, route ∈ db.routeSet row.id ↔ route ∈ declaredRoutes db.cidrIn file)

def labFile (services : List Yaml) : Yaml :=
  .mapping [
    (.string "name", .string "lab"),
    (.string "cidr", .string "10.8.1.0/24"),
    (.string "services", .sequence services)
  ]

def labService : Yaml :=
  .mapping [
    (.string "name", .string "db"),
    (.string "destination", .string "10.0.0.5/32"),
    (.string "ports", .sequence [.int 5432])
  ]

def labDirectory (services : List Yaml) : GitOpsDirectory where
  policiesPath := "gitops/policies"
  policies := some (.entries [])
  groups := none
  networks := some (.entries [some ⟨"gitops/networks/lab.yaml", some "yaml",
    .parsed (labFile services), 1⟩])

/-- Apply the directory without delay or loss. -/
def applyLab (services : List Yaml) (db : Db) : Except AppError Nat × Db :=
  (GitOpsService.applyDirectory (labDirectory services) none).execute (fun _ => elapse 0)
    (fun _ => false) 0 db

/-- The database after the directory has been applied with the service. -/
def labStored : Db := (applyLab [labService] (Db.empty 0)).2

theorem labStored_reached : Reached labStored :=
  .apply (.start (fun _ there => absurd there List.not_mem_nil)) (labDirectory [labService]) none
    (fun _ => 0) (fun _ => false)

theorem applyLab_returns {services : List Yaml} {db : Db}
    (fine : (applyLab services db).1 = .ok 0)
    : Returns (GitOpsService.applyDirectory (labDirectory services) none) db 0
        (applyLab services db).2 := by
  refine ⟨fun _ => 0, fun _ => false, 0, ?_⟩
  change applyLab services db = _
  exact Prod.ext fine rfl

/-- Applied again without the service, the directory leaves the services as they are. -/
theorem lab_keeps_services
    : ∃ row, (applyLab [] labStored).2.networkNamed "lab" = some row
        ∧ ∀ service, service ∈ (applyLab [] labStored).2.serviceSet row.id
            ↔ service ∈ labStored.serviceSet row.id := by
  have fine : (applyLab [] labStored).1 = .ok 0 := by decide +kernel
  have member : labFile [] ∈ (labDirectory []).networkFiles := List.mem_cons_self
  have lab : (labFile []).str? "name" = some "lab" := by decide +kernel
  obtain ⟨name, row, named, stored, _, services, _⟩ :=
    gitops_apply_adds labStored_reached (applyLab_returns fine) member
  obtain rfl := Option.some.inj (named.symm.trans lab)
  have none : ∀ item, item ∉ (labDirectory []).servicesOf "lab" := by
    intro item listed
    obtain ⟨file, there, inside⟩ := List.mem_flatMap.mp listed
    have only : file = labFile [] := List.mem_singleton.mp (List.mem_filter.mp there).1
    rw [only] at inside
    cases inside
  refine ⟨row, stored, ?_⟩
  intro service
  constructor
  · intro there
    rcases services.only service there with ⟨item, last, _⟩ | ⟨held, _⟩
    · exact absurd last.mem (none item)
    · exact held
  · exact fun held => services.kept service held (fun item listed => absurd listed (none item))

/-- So the database has a service that the directory does not declare. -/
theorem lab_service_stays
    : Reached labStored ∧ (applyLab [] labStored).1 = .ok 0
      ∧ labFile [] ∈ (labDirectory []).networkFiles
      ∧ ¬Converged (labFile []) (applyLab [] labStored).2 := by
  refine ⟨labStored_reached, by decide +kernel, List.mem_cons_self, ?_⟩
  intro converged
  obtain ⟨name, row, named, stored, _, services, _⟩ := converged
  have lab : (labFile []).str? "name" = some "lab" := by decide +kernel
  obtain rfl := Option.some.inj (named.symm.trans lab)
  have found : ((applyLab [] labStored).2.networkNamed "lab").map NetworkRow.id = some 1 := by
    decide +kernel
  rw [stored] at found
  have there : (applyLab [] labStored).2.networkServices.any (fun row => row.networkId == 1)
      = true := by
    decide +kernel
  obtain ⟨service, listed, home⟩ := List.any_eq_true.mp there
  have held : service.content ∈ (applyLab [] labStored).2.serviceSet row.id := by
    refine ⟨service, listed, ?_, rfl⟩
    rw [beq_iff_eq.mp home]
    exact (Option.some.inj found).symm
  obtain ⟨item, declares, _⟩ := services service.content held
  cases declares

end WslVpn
