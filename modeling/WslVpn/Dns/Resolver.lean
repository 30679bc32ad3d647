import Mathlib
import WslVpn.Utf8
import WslVpn.Dns.Hosts

/-! Routing overridden names to the local resolver: a file per domain in a directory that is shared with
others, so every file written here carries a marker line.
-/

namespace WslVpn.Dns

open AddressSpace

def marker : Text :=
  "# Managed by WSL Zero Trust (`wsl dns`). Do not edit; `wsl dns apply` rewrites it.".toList

/-- The file for one domain. -/
def render (address : IpAddr) (port : Fin 65536) : Text :=
  marker ++ "\nnameserver ".toList ++ address.render ++ "\nport ".toList ++ Nat.toDigits 10 port.val
    ++ ['\n']

def isOurs (text : Text) : Bool := (lines text).head? = some marker

-----------------------------------------------------------------------------------------
-- The directory
-----------------------------------------------------------------------------------------

abbrev FileName := List UInt8

/-- The file name of a domain. -/
def fileName (domain : Text) : FileName := (String.ofList domain).toByteArray.data.toList

inductive Content where
  | file (bytes : ByteArray) (readable writable : Bool)
  | directory
  deriving DecidableEq

namespace Content

/-- `std::fs::read_to_string`, if it succeeds. -/
def text : Content → Option String
  | file bytes true _ => String.fromUTF8? bytes
  | _ => none

def isFile : Content → Bool
  | file .. => true
  | directory => false

end Content

structure Node where
  name : FileName
  content : Content
  deriving DecidableEq

def foldByte (byte : UInt8) : UInt8 := if 65 ≤ byte ∧ byte ≤ 90 then byte + 32 else byte

/-- What the file system tells names apart by. -/
def fold (caseSensitive : Bool) (name : FileName) : FileName :=
  if caseSensitive then name else name.map foldByte

structure Directory where
  path : String
  caseSensitive : Bool
  nodes : List Node
  distinct : (nodes.map (fun node => fold caseSensitive node.name)).Nodup
  deriving DecidableEq

namespace Directory

variable (dir : Directory)

/-- The name leads to the node. -/
def Leads (name : FileName) (node : Node) : Prop :=
  fold dir.caseSensitive node.name = fold dir.caseSensitive name

instance (name : FileName) (node : Node) : Decidable (dir.Leads name node) :=
  inferInstanceAs (Decidable (_ = _))

def find (name : FileName) : Option Node := dir.nodes.find? (fun node => dir.Leads name node)

variable {dir} in
theorem find_eq_none {name : FileName}
    : dir.find name = none ↔ ∀ node ∈ dir.nodes, ¬ dir.Leads name node := by
  simp [find]

/-- The node of the name has this content from now on. -/
def put (name : FileName) (content : Content) : Directory :=
  if missing : dir.find name = none then
    { dir with
      nodes := dir.nodes ++ [⟨name, content⟩]
      distinct := by
        rw [List.map_append, List.nodup_append]
        refine ⟨dir.distinct, List.nodup_singleton _, ?_⟩
        intro first there second last same
        obtain ⟨node, member, rfl⟩ := List.mem_map.mp there
        exact find_eq_none.mp missing node member (same.trans (List.mem_singleton.mp last)) }
  else
    { dir with
      nodes := dir.nodes.map (fun node => if dir.Leads name node then { node with content } else node)
      distinct := by
        have names : dir.nodes.map (fun node => fold dir.caseSensitive
              (if dir.Leads name node then { node with content } else node).name)
            = dir.nodes.map (fun node => fold dir.caseSensitive node.name) :=
          List.map_congr_left (fun node _ => by split <;> rfl)
        rw [List.map_map]
        exact names ▸ dir.distinct }

def read (name : FileName) : Option String := (dir.find name).bind (·.content.text)

/-- `std::fs::write`, if it succeeds. -/
def write (name : FileName) (bytes : ByteArray) : Option Directory :=
  match (dir.find name).map Node.content with
  | none => some (dir.put name (.file bytes true true))
  | some (.file _ readable true) => some (dir.put name (.file bytes readable true))
  | some _ => none

def remove (name : FileName) : Directory :=
  { dir with
    nodes := dir.nodes.filter (fun node => ¬ dir.Leads name node)
    distinct := dir.distinct.sublist (List.filter_sublist.map _) }

end Directory

-----------------------------------------------------------------------------------------
-- The sync
-----------------------------------------------------------------------------------------

/-- What a sync did. -/
structure SyncReport where
  written : List Text
  removed : List Text
  skipped : List Text
  deriving DecidableEq

/-- The domains to route, each once and in order. -/
def wantedOf (domains : List Text) : Except String (List Text) := do
  let names ← domains.mapM normalise
  let wanted := names.dedup.insertionSort (· ≤ ·)
  match wanted.find? (fun domain => domain.head? = some '*') with
  | some wild => throw ("`" ++ String.ofList wild ++ "` is a wildcard; route its suffix instead")
  | none => return wanted

/-- The loop over the wanted domains. -/
def routeAll (body : String)
    : List Text → Directory → SyncReport → Except String SyncReport × Directory
  | [], dir, report => (.ok report, dir)
  | domain :: rest, dir, report =>
      let existing := dir.read (fileName domain)
      if existing.any (fun text => !isOurs text.toList) then
        routeAll body rest dir { report with skipped := report.skipped ++ [domain] }
      else if existing = some body then routeAll body rest dir report
      else
        match dir.write (fileName domain) body.toByteArray with
        | none => (.error ("writing " ++ dir.path ++ "/" ++ String.ofList domain), dir)
        | some dir => routeAll body rest dir { report with written := report.written ++ [domain] }

/-- The node is a file with the marker that is not wanted. -/
def Node.stale (wanted : List Text) (node : Node) : Bool :=
  !wanted.contains (fromUtf8Lossy node.name) && node.content.isFile
    && node.content.text.any (fun text => isOurs text.toList)

/-- Make `dir` route exactly `domains` to `address:port`. -/
def sync (dir : Directory) (domains : List Text) (address : IpAddr) (port : Fin 65536)
    : Except String SyncReport × Directory :=
  match wantedOf domains with
  | .error message => (.error message, dir)
  | .ok wanted =>
      match routeAll (String.ofList (render address port)) wanted dir ⟨[], [], []⟩ with
      | (.error message, dir) => (.error message, dir)
      | (.ok report, dir) =>
          let stale := dir.nodes.filter (Node.stale wanted)
          let removed := (stale.map (fun node => fromUtf8Lossy node.name)).insertionSort (· ≤ ·)
          (.ok { report with removed }, stale.foldl (fun dir node => dir.remove node.name) dir)

-----------------------------------------------------------------------------------------
-- Finding nodes
-----------------------------------------------------------------------------------------

namespace Directory

variable {dir : Directory} {name other : FileName} {node : Node} {content : Content}

/-- The names lead to the same place. -/
def Meet (dir : Directory) (name other : FileName) : Prop :=
  fold dir.caseSensitive name = fold dir.caseSensitive other

instance (dir : Directory) (name other : FileName) : Decidable (dir.Meet name other) :=
  inferInstanceAs (Decidable (_ = _))

theorem leads_self (dir : Directory) (node : Node) : dir.Leads node.name node := rfl

theorem find_eq_some : dir.find name = some node ↔ node ∈ dir.nodes ∧ dir.Leads name node := by
  constructor
  · intro found
    exact ⟨List.mem_of_find?_eq_some found, by simpa using List.find?_some found⟩
  · intro leads
    obtain ⟨member, leads⟩ := leads
    cases found : dir.find name with
    | none => exact absurd leads (find_eq_none.mp found node member)
    | some first =>
        have there := List.mem_of_find?_eq_some found
        have same : dir.Leads name first := by simpa using List.find?_some found
        rw [List.inj_on_of_nodup_map dir.distinct there member (same.trans leads.symm)]

theorem mem_nodes : node ∈ dir.nodes ↔ dir.find node.name = some node := by
  rw [find_eq_some]
  exact (and_iff_left (leads_self dir node)).symm

theorem find_leads (found : dir.find name = some node)
    : dir.Meet node.name name := (find_eq_some.mp found).2

theorem find_congr (meet : dir.Meet other name) : dir.find other = dir.find name := by
  have same : (fun node => decide (dir.Leads other node))
      = fun node => decide (dir.Leads name node) := by
    funext node
    refine decide_eq_decide.mpr ?_
    rw [Leads, Leads, show fold dir.caseSensitive other = fold dir.caseSensitive name from meet]
  rw [find, find, same]

@[simp] theorem put_caseSensitive : (dir.put name content).caseSensitive = dir.caseSensitive := by
  unfold put
  split <;> rfl

@[simp] theorem put_path : (dir.put name content).path = dir.path := by
  unfold put
  split <;> rfl

/-- The node that is there behind a write. -/
def written (dir : Directory) (name : FileName) (content : Content) : Node :=
  ⟨((dir.find name).map Node.name).getD name, content⟩

theorem written_leads : dir.Leads name (dir.written name content) := by
  unfold written
  cases found : dir.find name with
  | none => rfl
  | some node =>
      have meet : dir.Meet node.name name := find_leads found
      exact meet

theorem mem_put
    : node ∈ (dir.put name content).nodes
      ↔ node = dir.written name content ∨ (node ∈ dir.nodes ∧ ¬ dir.Leads name node) := by
  unfold put
  split
  · next missing =>
      have apart := find_eq_none.mp missing
      simp only [List.mem_append, List.mem_singleton, written, missing, Option.map_none,
        Option.getD_none]
      constructor
      · intro member
        rcases member with old | new
        · exact Or.inr ⟨old, apart node old⟩
        · exact Or.inl new
      · intro member
        rcases member with new | ⟨old, _⟩
        · exact Or.inr new
        · exact Or.inl old
  · next present =>
      obtain ⟨first, found⟩ := Option.ne_none_iff_exists'.mp present
      obtain ⟨there, leads⟩ := find_eq_some.mp found
      simp only [List.mem_map, written, found, Option.map_some, Option.getD_some]
      constructor
      · intro member
        obtain ⟨old, member, rfl⟩ := member
        split
        · next same =>
            have only := List.inj_on_of_nodup_map dir.distinct member there (same.trans leads.symm)
            rw [only]
            exact Or.inl rfl
        · next apart => exact Or.inr ⟨member, apart⟩
      · intro member
        rcases member with rfl | ⟨member, apart⟩
        · exact ⟨first, there, if_pos leads⟩
        · exact ⟨node, member, if_neg apart⟩

theorem find_put
    : (dir.put name content).find other
      = if dir.Meet other name then some (dir.written name content) else dir.find other := by
  split
  · next meet =>
      refine find_eq_some.mpr ⟨mem_put.mpr (Or.inl rfl), ?_⟩
      rw [Leads, put_caseSensitive]
      exact Eq.trans written_leads meet.symm
  · next apart =>
      have leads (node : Node) : (dir.put name content).Leads other node
          ↔ dir.Leads other node := by
        rw [Leads, Leads, put_caseSensitive]
      have elsewhere (node : Node) (here : dir.Leads other node) : ¬ dir.Leads name node :=
        fun there => apart (here.symm.trans there)
      cases found : dir.find other with
      | none =>
          refine find_eq_none.mpr ?_
          intro node member here
          rcases mem_put.mp member with rfl | ⟨member, _⟩
          · exact elsewhere _ ((leads _).mp here) written_leads
          · exact find_eq_none.mp found node member ((leads node).mp here)
      | some node =>
          obtain ⟨member, here⟩ := find_eq_some.mp found
          exact find_eq_some.mpr ⟨mem_put.mpr (Or.inr ⟨member, elsewhere node here⟩),
            (leads node).mpr here⟩

theorem find_remove
    : (dir.remove name).find other = if dir.Meet other name then none else dir.find other := by
  have mem_remove {node : Node} : node ∈ (dir.remove name).nodes
      ↔ node ∈ dir.nodes ∧ ¬ dir.Leads name node := by
    simp [remove]
  split
  · next meet =>
      refine find_eq_none.mpr ?_
      intro node member here
      exact (mem_remove.mp member).2 (Eq.trans here meet)
  · next apart =>
      cases found : dir.find other with
      | none =>
          refine find_eq_none.mpr ?_
          intro node member here
          exact find_eq_none.mp found node (mem_remove.mp member).1 here
      | some node =>
          obtain ⟨member, here⟩ := find_eq_some.mp found
          exact find_eq_some.mpr ⟨mem_remove.mpr ⟨member,
            fun there => apart (here.symm.trans there)⟩, here⟩

end Directory

end WslVpn.Dns
