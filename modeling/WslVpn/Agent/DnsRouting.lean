import WslVpn.Fallible.Commands
import WslVpn.Dns.Entries
import WslVpn.Dns.Resolver
import WslVpn.Agent.Launchd

/-! Keeping the local resolver running and routed to. The table is a file of the user, the resolver is a
job of launchd, and the routes are files that only the administrator can write.
-/

namespace WslVpn.Agent.DnsRouting

open Dns

/-- What there is on the machine. -/
structure Machine where
  /-- The text of the table's file, if there is one. -/
  hosts : Option Text
  /-- `/etc/resolver`. -/
  resolvers : Directory
  /-- The text of the job's file, if there is one. -/
  job : Option Text
  /-- The steps that were to be run with privilege so far. -/
  privileged : List Step

/-- Where a command finds things. -/
structure Site where
  /-- The system is one that has `/etc/resolver`. -/
  supported : Bool
  program : Text
  hosts : Text
  log : Text
  port : Fin 65536

namespace Site

variable (site : Site)

def plist : Text := renderPlist site.program site.hosts site.port site.log

def listenIp : AddressSpace.IpAddr := .v4 0x7f000001

end Site

/-- What comes of writing a file in place. -/
inductive Writing where
  | done
  /-- Nothing is written. -/
  | unopened
  /-- Only some of the text is written. -/
  | cut (left : Text)
  deriving DecidableEq

/-- What comes of a step that needs privilege. -/
inductive Escalated where
  /-- It is not run. -/
  | denied
  /-- It is run, but that cannot be told. -/
  | unknown
  | ran
  deriving DecidableEq

/-- What everything outside answers while a command runs. -/
structure Outside where
  /-- The table is written and put in the place of the old one. -/
  saved : Bool
  /-- The resolver answers before the command. -/
  running : Bool
  written : Writing
  /-- launchd takes the job. -/
  bootstrapped : Bool
  /-- The resolver answers in time once it is started. -/
  answers : Bool
  escalated : Escalated
  removed : Bool
  /-- The resolver answers behind the command. -/
  runs : Bool

inductive Failure where
  | unsupported
  | unreadable (error : ParseError)
  | unsaved
  | name (message : String)
  | noOverride
  | unwritten
  | notStarted
  | notAnswering
  | notPrivileged
  | notRemoved
  deriving DecidableEq

abbrev Act := Fallible.Command Machine Failure

-----------------------------------------------------------------------------------------
-- The table
-----------------------------------------------------------------------------------------

/-- The table in a file. -/
def tableIn (hosts : Option Text) : Except ParseError Overrides :=
  match hosts with
  | none => .ok Overrides.empty
  | some text => Overrides.parse text

def load : Act Overrides := do
  let machine ← get
  liftExcept ((tableIn machine.hosts).mapError Failure.unreadable)

/-- The resolver never sees half a file. -/
def save (outside : Outside) (overrides : Overrides) : Act PUnit :=
  if outside.saved then modify (fun machine => { machine with hosts := some overrides.render })
  else throw .unsaved

-----------------------------------------------------------------------------------------
-- The job
-----------------------------------------------------------------------------------------

def writeJob (written : Writing) (plist : Text) : Act PUnit :=
  match written with
  | .done => modify (fun machine => { machine with job := some plist })
  | .unopened => throw .unwritten
  | .cut left => do
      modify (fun machine => { machine with job := some left })
      throw .unwritten

/-- Install and start the job, and wait until the resolver answers. A job that is unchanged and running is
left alone.
-/
def start (site : Site) (outside : Outside) : Act PUnit :=
  if !site.supported then throw .unsupported
  else do
    let machine ← get
    if machine.job = some site.plist ∧ outside.running then pure ⟨⟩
    else do
      writeJob outside.written site.plist
      if !outside.bootstrapped then throw .notStarted
      else if !outside.answers then throw .notAnswering
      else pure ⟨⟩

/-- Stop the resolver and remove its job. -/
def stop (site : Site) (outside : Outside) : Act PUnit :=
  if !site.supported then pure ⟨⟩
  else do
    let machine ← get
    if machine.job.isNone then pure ⟨⟩
    else if outside.removed then modify (fun machine => { machine with job := none })
    else throw .notRemoved

-----------------------------------------------------------------------------------------
-- The routes
-----------------------------------------------------------------------------------------

/-- The file has the marker. -/
def ours (node : Node) : Bool := node.content.text.any (fun text => isOurs text.toList)

/-- The domains that are routed to the resolver: the names of the files with the marker. -/
def routed (resolvers : Directory) : List Text :=
  ((resolvers.nodes.filter ours).map (fun node => fromUtf8Lossy node.name)).insertionSort (· ≤ ·)

/-- What the privileged step does once it is run. -/
def syncResolvers (site : Site) (domains : List Text) : Act PUnit := do
  let machine ← get
  let synced := sync machine.resolvers domains Site.listenIp site.port
  modify (fun machine => { machine with resolvers := synced.2 })
  match synced.1 with
  | .error _ => throw .notPrivileged
  | .ok _ => pure ⟨⟩

def route (site : Site) (outside : Outside) (domains : List Text) : Act PUnit := do
  let step := syncStep site.program domains site.port
  modify (fun machine => { machine with privileged := machine.privileged ++ [step] })
  match outside.escalated with
  | .denied => throw .notPrivileged
  | .unknown => do
      syncResolvers site domains
      throw .notPrivileged
  | .ran => syncResolvers site domains

/-- Route the domains if others are routed. -/
def routeChanged (site : Site) (outside : Outside) (domains : List Text) : Act PUnit := do
  let machine ← get
  if routed machine.resolvers = domains then pure ⟨⟩ else route site outside domains

def unroute (site : Site) (outside : Outside) : Act PUnit :=
  if site.supported then routeChanged site outside [] else pure ⟨⟩

-----------------------------------------------------------------------------------------
-- The commands
-----------------------------------------------------------------------------------------

structure DnsStatus where
  supported : Bool
  /-- The job is installed. -/
  enabled : Bool
  /-- The resolver answered just now. -/
  running : Bool
  listen : Text
  entries : List Entry
  /-- The domains that should be routed. -/
  wanted : List Text
  routed : List Text
  inSync : Bool
  error : Option ParseError
  deriving DecidableEq

def status (site : Site) (outside : Outside) (machine : Machine) : DnsStatus :=
  let (entries, wanted, error) := match tableIn machine.hosts with
    | .ok overrides => (overrides.entries, overrides.routedDomains, none)
    | .error error => ([], [], some error)
  let routed := routed machine.resolvers
  let enabled := machine.job.isSome
  {
    supported := site.supported
    enabled
    running := outside.runs
    listen := listenAddr site.port
    entries
    wanted
    routed
    inSync := if enabled then routed = wanted else routed = []
    error
  }

/-- Turn overrides on, or bring them up to date. -/
def apply (site : Site) (outside : Outside) : Act DnsStatus :=
  if !site.supported then throw .unsupported
  else do
    let overrides ← load
    start site outside
    routeChanged site outside overrides.routedDomains
    let machine ← get
    pure (status site outside machine)

/-- Turn overrides off: unroute everything, then stop the resolver. -/
def disable (site : Site) (outside : Outside) : Act DnsStatus := do
  unroute site outside
  stop site outside
  let machine ← get
  pure (status site outside machine)

/-- After an edit: route the domains if overrides are on and they have changed. -/
def reconcile (site : Site) (outside : Outside) : Act Bool := do
  let machine ← get
  if !site.supported || machine.job.isNone then pure false
  else do
    let overrides ← load
    let wanted := overrides.routedDomains
    if routed machine.resolvers = wanted then pure false
    else do
      start site outside
      route site outside wanted
      pure true

/-- Point a name at an address, instead of whatever it pointed at. -/
def setOverride (site : Site) (outside : Outside) (name : Text) (address : AddressSpace.IpAddr)
    : Act Bool := do
  let overrides ← load
  let overrides ← liftExcept ((overrides.set name address).mapError Failure.name)
  save outside overrides
  reconcile site outside

/-- Remove every entry for a name. -/
def removeOverride (site : Site) (outside : Outside) (name : Text) : Act Bool := do
  let overrides ← load
  let removed := overrides.remove name
  if !removed.1 then throw .noOverride
  else do
    save outside removed.2
    reconcile site outside

/-- A command of the user. -/
inductive DnsCommand where
  | set (name : Text) (address : AddressSpace.IpAddr)
  | remove (name : Text)
  | apply
  | disable
  deriving DecidableEq

def runCommand (site : Site) (outside : Outside) : DnsCommand → Act PUnit
  | .set name address => do
      let _ ← setOverride site outside name address
      pure ⟨⟩
  | .remove name => do
      let _ ← removeOverride site outside name
      pure ⟨⟩
  | .apply => do
      let _ ← apply site outside
      pure ⟨⟩
  | .disable => do
      let _ ← disable site outside
      pure ⟨⟩

end WslVpn.Agent.DnsRouting
