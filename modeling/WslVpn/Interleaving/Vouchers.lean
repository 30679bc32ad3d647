import Mathlib.Data.List.Perm.Subperm
import WslVpn.Interleaving.Log

/-! Rows that are handed out once: what takes one away returns it. In a run, all that is handed out and
all that is left has been put there.
-/

namespace Interleaving

open List (Subperm)

variable {State Fault Error Value Env Row Key : Type} {sig : Signature State Fault}

/-- Rows that some operations issue and others redeem. -/
structure Vouchers (sig : Signature State Fault) (Row : Type) where
  rows : State → List Row
  issued : sig.Op → Option Row
  redeemed : (op : sig.Op) → sig.Reply op → Option Row
  conserved
    : ∀ {op state reply after}, sig.exec op state = .ok (reply, after)
        → Subperm ((redeemed op reply).toList ++ rows after) (rows state ++ (issued op).toList)

namespace Vouchers

variable (vouchers : Vouchers sig Row)

/-- The row that the operation of the entry has issued. -/
def issues : Entry sig → Option Row
  | ⟨_, op, .ok _⟩ => vouchers.issued op
  | ⟨_, _, .error _⟩ => none

/-- The row that the operation of the entry has redeemed. -/
def redeems : Entry sig → Option Row
  | ⟨_, op, .ok reply⟩ => vouchers.redeemed op reply
  | ⟨_, _, .error _⟩ => none

theorem issued_of_issues {entry : Entry sig} {row : Row} (issues : vouchers.issues entry = some row)
    : vouchers.issued entry.op = some row := by
  obtain ⟨call, op, reply⟩ := entry
  cases reply with
  | ok reply => exact issues
  | error fault => cases issues

section Run

variable {vouchers} {effect : Env → State → State}
  (drops : ∀ change state, Subperm (vouchers.rows (effect change state)) (vouchers.rows state))
  {system : System sig Error Value} {events : List (Event Env)}

include drops

/-- By cases on the move. -/
theorem conserved_step (event : Event Env)
    : Subperm
        (( System.entry? system event).toList.filterMap vouchers.redeems
          ++ vouchers.rows (system.handle effect event).state)
        (vouchers.rows system.state ++ ( System.entry? system event).toList.filterMap vouchers.issues) := by
  have moves := System.handle_moves effect system event
  generalize system.handle effect event = after at moves ⊢
  cases moves with
  | @replied call op next reply after issued answer =>
      rw [@System.entry?_replied _ _ _ _ Env _ system call op next issued reply after answer]
      have kept := vouchers.conserved answer
      cases out : vouchers.redeemed op reply <;> cases new : vouchers.issued op <;>
        simpa [redeems, issues, out, new] using kept
  | @refused call op next fault issued answer =>
      rw [@System.entry?_refused _ _ _ _ Env _ system call op next issued fault answer]
      change Subperm ([] ++ vouchers.rows system.state) (vouchers.rows system.state ++ [])
      rw [List.append_nil]
      exact Subperm.refl _
  | @lost call op next issued =>
      rw [@System.entry?_lost _ _ _ _ Env _ system call op next issued]
      change Subperm ([] ++ vouchers.rows system.state) (vouchers.rows system.state ++ [])
      rw [List.append_nil]
      exact Subperm.refl _
  | env change => simpa [ System.entry?] using drops change system.state
  | idle named ended =>
      rw [System.entry?_idle named ended]
      simpa using Subperm.refl _

/-- What has been redeemed and what is left are among what was there and what has been issued, by
induction on the run.
-/
theorem conserved_run
    : Subperm
        ((system.log effect events).filterMap vouchers.redeems
          ++ vouchers.rows (system.run effect events).state)
        (vouchers.rows system.state ++ (system.log effect events).filterMap vouchers.issues) := by
  induction events generalizing system with
  | nil => simpa [System.log] using Subperm.refl _
  | cons event rest ih =>
      have first := @conserved_step _ _ _ _ _ _ _ vouchers effect drops system event
      have later := @ih (system.handle effect event)
      rw [System.log, List.filterMap_append, List.filterMap_append, System.run_cons,
        List.append_assoc,
        ← List.append_assoc (vouchers.rows system.state)]
      refine Subperm.trans ((List.subperm_append_left _).mpr later) ?_
      rw [← List.append_assoc]
      exact (List.subperm_append_right _).mpr first

variable (empty : vouchers.rows system.state = [])

include empty

theorem redeemed_subperm
    : Subperm ((system.log effect events).filterMap vouchers.redeems)
        ((system.log effect events).filterMap vouchers.issues) := by
  have all := @conserved_run _ _ _ _ _ _ _ vouchers effect drops system events
  rw [empty, List.nil_append] at all
  exact (List.sublist_append_left _ _).subperm.trans all

/-- Whatever is redeemed has been issued. -/
theorem issued_of_redeemed {entry : Entry sig} {row : Row}
    (member : entry ∈ system.log effect events)
    (redeemed : vouchers.redeems entry = some row)
    : ∃ issuer ∈ system.log effect events, vouchers.issues issuer = some row := by
  have out : row ∈ (system.log effect events).filterMap vouchers.redeems :=
    List.mem_filterMap.mpr ⟨entry, member, redeemed⟩
  exact List.mem_filterMap.mp ((redeemed_subperm drops empty).subset out)

/-- When each call issues at most one row, and two calls issue rows with different keys, each key is
redeemed at most once.
-/
theorem redeemed_once {key : Row → Key}
    (once : system.AllOnce (system.log effect events) (fun op => (vouchers.issued op).isSome))
    (own
      : ∀ first ∈ system.log effect events, ∀ second ∈ system.log effect events, ∀ row other,
          vouchers.issues first = some row → vouchers.issues second = some other
            → key row = key other
            → first.call = second.call)
    : (((system.log effect events).filterMap vouchers.redeems).map key).Nodup := by
  have fresh : (((system.log effect events).filterMap vouchers.issues).map key).Nodup := by
    refine List.pairwise_map.mpr (List.pairwise_filterMap.mpr ?_)
    refine List.Pairwise.imp_of_mem ?_ (System.AllOnce.log (fun _ member => member) once)
    intro first second firstIn secondIn apart row made other madeToo same
    have issued : (vouchers.issued first.op).isSome :=
      Option.isSome_of_eq_some (vouchers.issued_of_issues made)
    have issuedToo : (vouchers.issued second.op).isSome :=
      Option.isSome_of_eq_some (vouchers.issued_of_issues madeToo)
    exact apart issued issuedToo (own first firstIn second secondIn row other made madeToo same)
  obtain ⟨some', perm, sublist⟩ := redeemed_subperm drops empty
  exact ((perm.map key).nodup_iff).mp ((sublist.map key).nodup fresh)

end Run

end Vouchers

end Interleaving
