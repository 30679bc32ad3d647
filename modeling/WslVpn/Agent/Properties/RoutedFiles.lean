import Mathlib
import WslVpn.Agent.DnsRouting
import WslVpn.Dns.Properties.RoutedNames

/-! What a sync does to the domains that are routed: it leaves none that is not wanted, and it leaves out
only those of which somebody else has the file.
-/

namespace WslVpn.Agent.DnsRouting

open AddressSpace
open Dns
open Dns.Directory

/-- Nobody else has the file of the domain. -/
def Free (resolvers : Directory) (domain : Text) : Prop :=
  ∀ node ∈ resolvers.nodes, resolvers.Leads (Dns.fileName domain) node →
    ours node = true ∧ node.name = Dns.fileName domain

/-- The routes are those that are wanted, as far as they are free. -/
structure Follows (before after : Directory) (wanted : List Text) : Prop where
  only : ∀ domain ∈ routed after, domain ∈ wanted
  all : ∀ domain ∈ wanted, Free before domain → domain ∈ routed after
  same : (∀ domain ∈ wanted, Free before domain) → routed after = wanted

section Routed

variable {resolvers after middle : Directory} {wanted domains : List Text} {domain : Text}
  {node : Node} {address : IpAddr} {port : Fin 65536} {report : SyncReport} {body : String}

theorem mem_routed
    : domain ∈ routed resolvers
      ↔ ∃ node ∈ resolvers.nodes, ours node = true ∧ fromUtf8Lossy node.name = domain := by
  rw [routed, List.mem_insertionSort, List.mem_map]
  simp only [List.mem_filter, and_assoc]

theorem ours_iff
    : ours node = true
      ↔ ∃ text writable, node.content = .file (String.toByteArray text) true writable
        ∧ isOurs text.toList = true := by
  rw [ours, Option.any_eq_true]
  simp only [text_eq_some]
  constructor
  · intro found
    obtain ⟨text, ⟨writable, content⟩, marked⟩ := found
    exact ⟨text, writable, content, marked⟩
  · intro found
    obtain ⟨text, writable, content, marked⟩ := found
    exact ⟨text, ⟨writable, content⟩, marked⟩

/-- A file with the marker that is not stale has the name of a wanted domain. -/
theorem wanted_of_fresh (isOurs : ours node = true) (fresh : node.stale wanted = false)
    : fromUtf8Lossy node.name ∈ wanted := by
  obtain ⟨text, writable, content, marked⟩ := ours_iff.mp isOurs
  have isFile : node.content.isFile = true := by
    rw [content]
    rfl
  by_contra unwanted
  have stale : node.stale wanted = true := by
    rw [Node.stale, isFile, Bool.and_eq_true, Bool.and_eq_true]
    exact ⟨⟨by simpa using unwanted, rfl⟩, isOurs⟩
  rw [stale] at fresh
  cases fresh

/-- Behind a sync there are no other routes than the wanted ones. -/
theorem only_wanted (ran : Dns.Ran resolvers wanted body report middle after)
    (routed : domain ∈ routed after) : domain ∈ wanted := by
  obtain ⟨node, member, isOurs, rfl⟩ := mem_routed.mp routed
  exact wanted_of_fresh isOurs (ran.find_iff.mp (mem_nodes.mp member)).2

/-- The file of a free domain is there behind a sync. -/
theorem free_routed (ran : Dns.Ran resolvers wanted (bodyOf address port) report middle after)
    (lowered : ∀ domain ∈ wanted, Lowered domain) (wants : domain ∈ wanted)
    (free : Free resolvers domain) : domain ∈ routed after := by
  have distinct : ∀ other ∈ wanted, resolvers.Meet (Dns.fileName domain) (Dns.fileName other)
      → domain = other :=
    fun other there => (meet_fileName (lowered domain wants) (lowered other there)).mp
  suffices there : ∃ writable, middle.find (Dns.fileName domain)
      = some ⟨Dns.fileName domain, .file (bodyOf address port).toByteArray true writable⟩ by
    obtain ⟨writable, found⟩ := there
    have kept := ran.find_iff.mpr ⟨found, fresh_of_wanted lowered wants _⟩
    refine mem_routed.mpr ⟨_, (find_eq_some.mp kept).1, ?_,
      (fromUtf8Lossy_eq_iff (lowered domain wants)).mpr rfl⟩
    exact ours_iff.mpr ⟨_, writable, rfl, isOurs_body address port⟩
  cases writes : resolvers.rewrites (bodyOf address port) domain with
  | true =>
      obtain ⟨node, rewritten, found⟩ := ran.routed.rewritten domain wants writes
      rcases rewritten with ⟨_, rfl⟩ | ⟨old, bytes, readable, before, content, rfl⟩
      · exact ⟨true, found⟩
      · obtain ⟨there, leads⟩ := find_eq_some.mp before
        obtain ⟨isOurs, name⟩ := free old there leads
        obtain ⟨text, writable, content', _⟩ := ours_iff.mp isOurs
        rw [content, Content.file.injEq] at content'
        obtain ⟨_, rfl, _⟩ := content'
        refine ⟨true, ?_⟩
        rw [found, name]
  | false =>
      have unskipped : resolvers.skips domain = false := by
        rw [Bool.eq_false_iff]
        intro skips
        obtain ⟨node, text, writable, found, content, foreign⟩ := skips_iff.mp skips
        obtain ⟨there, leads⟩ := find_eq_some.mp found
        obtain ⟨text', writable', content', marked⟩ := ours_iff.mp (free node there leads).1
        rw [content, Content.file.injEq] at content'
        rw [content'.1] at foreign
        exact foreign ((marked_iff text').mpr marked)
      have read : resolvers.read (Dns.fileName domain) = some (bodyOf address port) := by
        simpa [Directory.rewrites, unskipped] using writes
      obtain ⟨node, writable, found, content⟩ := read_eq_some.mp read
      obtain ⟨there, leads⟩ := find_eq_some.mp found
      refine ⟨writable, ?_⟩
      rw [ran.kept distinct writes, found, ← (free node there leads).2, ← content]

/-- The routes are in order, and each domain is routed once if its name is in lower case. -/
theorem routed_sorted : (routed resolvers).Pairwise (· ≤ ·) := List.pairwise_insertionSort _ _

theorem routed_nodup (lowered : ∀ domain ∈ routed resolvers, Lowered domain)
    : (routed resolvers).Nodup := by
  have nodes : resolvers.nodes.Nodup := List.Nodup.of_map _ resolvers.distinct
  refine (List.perm_insertionSort _ _).nodup_iff.mpr ((nodes.filter _).map_on ?_)
  intro first member second member' same
  have inside {node : Node} (member : node ∈ resolvers.nodes.filter ours)
      : fromUtf8Lossy node.name ∈ routed resolvers :=
    mem_routed.mpr ⟨node, List.mem_of_mem_filter member, List.of_mem_filter member, rfl⟩
  have name := (fromUtf8Lossy_eq_iff (lowered _ (inside member'))).mp same
  have name' := (fromUtf8Lossy_eq_iff (lowered _ (inside member'))).mp rfl
  refine List.inj_on_of_nodup_map resolvers.distinct (List.mem_of_mem_filter member)
    (List.mem_of_mem_filter member') ?_
  rw [name, ← name']

theorem follows (accepted : wantedOf domains = .ok wanted)
    (sorted : wanted.Pairwise (· ≤ ·))
    (ran : Dns.Ran resolvers wanted (bodyOf address port) report middle after)
    : Follows resolvers after wanted := by
  obtain ⟨distinct, lowered⟩ := wantedOf_spec accepted
  have only : ∀ domain ∈ routed after, domain ∈ wanted := fun domain => only_wanted ran
  have all : ∀ domain ∈ wanted, Free resolvers domain → domain ∈ routed after :=
    fun domain wants free => free_routed ran lowered wants free
  refine ⟨only, all, ?_⟩
  intro free
  have once := routed_nodup (fun domain routed => lowered domain (only domain routed))
  have perm : (routed after).Perm wanted := by
    rw [List.perm_ext_iff_of_nodup once distinct]
    exact fun domain => ⟨only domain, fun wants => all domain wants (free domain wants)⟩
  exact perm.eq_of_pairwise' routed_sorted sorted

/-- Nothing is routed where nothing is wanted. -/
theorem sync_nothing (address : IpAddr) (port : Fin 65536)
    : (∃ report, (sync resolvers [] address port).1 = .ok report)
      ∧ routed (sync resolvers [] address port).2 = [] := by
  have accepted : wantedOf [] = .ok [] := rfl
  have done : ∃ report, (sync resolvers [] address port).1 = .ok report := ⟨_, rfl⟩
  obtain ⟨report, result⟩ := done
  refine ⟨⟨report, result⟩, ?_⟩
  obtain ⟨middle, ran⟩ := sync_ran accepted (Prod.ext result rfl)
  exact List.eq_nil_iff_forall_not_mem.mpr (fun domain routed => by simpa using only_wanted ran routed)

end Routed

end WslVpn.Agent.DnsRouting
