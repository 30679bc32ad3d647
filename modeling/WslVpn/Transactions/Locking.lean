import WslVpn.Records.Unique

/-! Transactions that write under locks. What a transaction has written is its own until it commits, and
a write that clashes with a pending one of another transaction does not get through.
-/

namespace Transactions.Locking

/-- The writes of a database: what is wrong with one, what it makes of the tables, and which ones
exclude each other while one of them is pending.
-/
structure Writes (Tables Write Fault : Type) where
  check : Tables → Write → Option Fault
  apply : Tables → Write → Tables
  clash : Write → Write → Bool

/-- The transaction that a connection has open, with what it has written so far. -/
structure Pending (Write : Type) where
  connection : Nat
  writes : List Write

/-- The tables as they are committed, and the open transactions. -/
structure Shared (Tables Write : Type) where
  committed : Tables
  pending : List (Pending Write)

variable {Tables Write Fault : Type}

namespace Writes

variable (rules : Writes Tables Write Fault)

def applyAll (tables : Tables) (writes : List Write) : Tables := writes.foldl rules.apply tables

/-- What is wrong with the first of the writes that the tables do not admit. -/
def checkAll : Tables → List Write → Option Fault
  | _, [] => none
  | tables, write :: rest => (rules.check tables write).or (checkAll (rules.apply tables write) rest)

def clashes (held new : List Write) : Bool := held.any (fun write => new.any (rules.clash write))

end Writes

namespace Shared

variable (rules : Writes Tables Write Fault) (shared : Shared Tables Write)

def start (tables : Tables) : Shared Tables Write := ⟨tables, []⟩

/-- What the transaction of the connection has written, if it has one open. -/
def written (connection : Nat) : Option (List Write) :=
  (shared.pending.find? (·.connection == connection)).map (·.writes)

/-- The tables as the transaction of the connection sees them. -/
def view (connection : Nat) : Tables :=
  rules.applyAll shared.committed ((shared.written connection).getD [])

/-- A transaction of another connection holds a lock that the writes need. -/
def blocked (connection : Nat) (writes : List Write) : Bool :=
  shared.pending.any
    (fun other => other.connection != connection && rules.clashes other.writes writes)

def begin (connection : Nat) : Shared Tables Write :=
  { shared with pending := shared.pending ++ [⟨connection, []⟩] }

def append (connection : Nat) (writes : List Write) : Shared Tables Write :=
  { shared with
    pending :=
      shared.pending.map (fun held =>
        if held.connection = connection then { held with writes := held.writes ++ writes }
        else held) }

/-- The end of a transaction, with its writes lost. -/
def rollback (connection : Nat) : Shared Tables Write :=
  { shared with pending := shared.pending.filter (·.connection != connection) }

/-- The end of a transaction, with its writes made. -/
def commit (connection : Nat) : Shared Tables Write :=
  { shared.rollback connection with committed := shared.view rules connection }

/-- Writes that are committed at once. -/
def write (writes : List Write) : Shared Tables Write :=
  { shared with committed := rules.applyAll shared.committed writes }

end Shared

-----------------------------------------------------------------------------------------
-- Lawful locks
-----------------------------------------------------------------------------------------

/-- Locks that keep apart what depends on each other. `same` says which tables cannot be told apart.
-/
structure Lawful (rules : Writes Tables Write Fault) where
  same : Tables → Tables → Prop
  clash_symm : ∀ first second, rules.clash first second = rules.clash second first
  check_same
    : ∀ {left right write}, same left right → rules.check left write = none
        → rules.check right write = none
  apply_same
    : ∀ {left right} (write), same left right
      → same (rules.apply left write) (rules.apply right write)
  /-- A write does not spoil another one that it does not clash with. -/
  stable
    : ∀ {tables first second}, rules.clash first second = false → rules.check tables first = none
        → rules.check tables second = none → rules.check (rules.apply tables second) first = none
  swap
    : ∀ {tables first second}, rules.clash first second = false → rules.check tables first = none
        → rules.check tables second = none
        → same (rules.apply (rules.apply tables first) second)
            (rules.apply (rules.apply tables second) first)

variable {rules : Writes Tables Write Fault} {tables : Tables} {writes more : List Write}

section CheckAll

theorem checkAll_cons {write : Write}
    : rules.checkAll tables (write :: writes) = none
      ↔ rules.check tables write = none ∧ rules.checkAll (rules.apply tables write) writes = none :=
  Option.or_eq_none_iff

/-- Writes one after the other, by induction on the first ones. -/
theorem checkAll_append
    : rules.checkAll tables (writes ++ more) = none
      ↔ rules.checkAll tables writes = none
        ∧ rules.checkAll (rules.applyAll tables writes) more = none := by
  induction writes generalizing tables with
  | nil => simp [Writes.checkAll, Writes.applyAll]
  | cons write rest ih =>
      rw [List.cons_append, checkAll_cons, checkAll_cons, ih, and_assoc]
      rfl

/-- What each admitted write keeps is kept by all of them, by induction. -/
theorem applyAll_keeps {good : Tables → Prop}
    (keeps
      : ∀ tables write, good tables → rules.check tables write = none
          → good (rules.apply tables write))
    (start : good tables) (fine : rules.checkAll tables writes = none)
    : good (rules.applyAll tables writes) := by
  induction writes generalizing tables with
  | nil => exact start
  | cons write rest ih =>
      obtain ⟨here, fine⟩ := checkAll_cons.mp fine
      exact ih (keeps tables write start here) fine

end CheckAll

section Laws

variable (lawful : Lawful rules)

include lawful

/-- Tables that cannot be told apart admit the same writes, by induction on them. -/
theorem checkAll_same {other : Tables} (same : lawful.same tables other)
    (fine : rules.checkAll tables writes = none)
    : rules.checkAll other writes = none := by
  induction writes generalizing tables other with
  | nil => rfl
  | cons write rest ih =>
      obtain ⟨here, fine⟩ := checkAll_cons.mp fine
      exact checkAll_cons.mpr
        ⟨lawful.check_same same here, ih (lawful.apply_same write same) fine⟩

/-- Pending writes survive one that none of them clashes with, by induction on them. -/
theorem checkAll_after {write : Write} (fine : rules.checkAll tables writes = none)
    (free : ∀ held ∈ writes, rules.clash held write = false)
    (admitted : rules.check tables write = none)
    : rules.checkAll (rules.apply tables write) writes = none := by
  induction writes generalizing tables with
  | nil => rfl
  | cons first rest ih =>
      obtain ⟨here, fine⟩ := checkAll_cons.mp fine
      obtain ⟨apart, free⟩ := List.forall_mem_cons.mp free
      have crossed : rules.check (rules.apply tables first) write = none :=
        lawful.stable ((lawful.clash_symm write first).trans apart) admitted here
      refine checkAll_cons.mpr ⟨lawful.stable apart here admitted, ?_⟩
      exact checkAll_same lawful (lawful.swap apart here admitted) (ih fine free crossed)

/-- Pending writes survive any number of such writes, by induction on these. -/
theorem checkAll_afterAll (fine : rules.checkAll tables writes = none)
    (free : rules.clashes writes more = false) (admitted : rules.checkAll tables more = none)
    : rules.checkAll (rules.applyAll tables more) writes = none := by
  induction more generalizing tables with
  | nil => exact fine
  | cons write rest ih =>
      obtain ⟨here, admitted⟩ := checkAll_cons.mp admitted
      have apart : ∀ held ∈ writes, ∀ other ∈ write :: rest, rules.clash held other = false := by
        simpa [Writes.clashes] using free
      have first : ∀ held ∈ writes, rules.clash held write = false :=
        fun held member => apart held member write List.mem_cons_self
      refine ih (checkAll_after lawful fine first here) ?_ admitted
      simpa [Writes.clashes]
        using fun held member other later => apart held member other (List.mem_cons_of_mem _ later)

end Laws

-----------------------------------------------------------------------------------------
-- Open transactions stay admissible
-----------------------------------------------------------------------------------------

/-- Each open transaction could commit now, and no two of them are in each other's way. -/
structure Sound (rules : Writes Tables Write Fault) (shared : Shared Tables Write) : Prop where
  connections : Records.Unique Pending.connection shared.pending
  admitted : ∀ held ∈ shared.pending, rules.checkAll shared.committed held.writes = none
  apart
    : ∀ held ∈ shared.pending, ∀ other ∈ shared.pending, held.connection ≠ other.connection
        → rules.clashes held.writes other.writes = false

section Operations

variable {shared : Shared Tables Write} {connection : Nat}

theorem Sound.start (tables : Tables) : Sound rules (.start tables) := by
  refine ⟨List.nodup_nil, ?_, ?_⟩
  · intro held member
    cases member
  · intro held member
    cases member

theorem written_mem {held : Pending Write} (sound : Sound rules shared)
    (member : held ∈ shared.pending)
    : shared.written held.connection = some held.writes := by
  rw [Shared.written, sound.connections.find? member]
  rfl

theorem mem_of_written (opened : shared.written connection = some writes)
    : (⟨connection, writes⟩ : Pending Write) ∈ shared.pending := by
  obtain ⟨held, found, rfl⟩ := Option.map_eq_some_iff.mp opened
  have named : held.connection = connection := by simpa using List.find?_some found
  rw [← named]
  exact List.mem_of_find?_eq_some found

theorem not_mem_of_written (closed : shared.written connection = none)
    : ∀ held ∈ shared.pending, held.connection ≠ connection := by
  intro held member same
  have missed := List.find?_eq_none.mp (Option.map_eq_none_iff.mp closed) held member
  exact missed (beq_iff_eq.mpr same)

theorem not_blocked
    : shared.blocked rules connection writes = false
      ↔ ∀ held ∈ shared.pending, held.connection ≠ connection
          → rules.clashes held.writes writes = false := by
  simp [Shared.blocked]

/-- What a transaction has written is admitted, as far as it has come. -/
theorem Sound.view_admitted (sound : Sound rules shared)
    : ∃ writes, rules.checkAll shared.committed writes = none
        ∧ shared.view rules connection = rules.applyAll shared.committed writes := by
  refine ⟨(shared.written connection).getD [], ?_, rfl⟩
  cases opened : shared.written connection with
  | none => rfl
  | some writes => exact sound.admitted _ (mem_of_written opened)

theorem Sound.begin (sound : Sound rules shared) (closed : shared.written connection = none)
    : Sound rules (shared.begin connection) := by
  have others : ∀ held ∈ (shared.begin connection).pending,
      held ∈ shared.pending ∨ held = ⟨connection, []⟩ := by
    intro held member
    rcases List.mem_append.mp member with old | new
    · exact Or.inl old
    · exact Or.inr (List.mem_singleton.mp new)
  refine ⟨sound.connections.concat (not_mem_of_written closed), ?_, ?_⟩
  · intro held member
    rcases others held member with old | rfl
    · exact sound.admitted held old
    · rfl
  · intro held member other otherMember different
    rcases others held member with old | rfl
    · rcases others other otherMember with otherOld | rfl
      · exact sound.apart held old other otherOld different
      · simp [Writes.clashes]
    · rfl

theorem Sound.rollback (sound : Sound rules shared) : Sound rules (shared.rollback connection) := by
  have fewer : ∀ held ∈ (shared.rollback connection).pending, held ∈ shared.pending :=
    fun held member => List.mem_of_mem_filter member
  refine ⟨sound.connections.filter _, ?_, ?_⟩
  · exact fun held member => sound.admitted held (fewer held member)
  · intro held member other otherMember different
    exact sound.apart held (fewer held member) other (fewer other otherMember) different

theorem clashes_append {held new : List Write}
    : rules.clashes (held ++ new) writes
      = (rules.clashes held writes || rules.clashes new writes) :=
  List.any_append

theorem clashes_comm (lawful : Lawful rules) {held new : List Write}
    : rules.clashes held new = rules.clashes new held := by
  rw [Bool.eq_iff_iff]
  simp only [Writes.clashes, List.any_eq_true]
  constructor
  · intro clash
    obtain ⟨first, firstIn, second, secondIn, clash⟩ := clash
    exact ⟨second, secondIn, first, firstIn, (lawful.clash_symm second first).trans clash⟩
  · intro clash
    obtain ⟨second, secondIn, first, firstIn, clash⟩ := clash
    exact ⟨first, firstIn, second, secondIn, (lawful.clash_symm first second).trans clash⟩

/-- A transaction writes what its view admits and what no lock keeps it from. -/
theorem Sound.append (lawful : Lawful rules) (sound : Sound rules shared)
    (fine : rules.checkAll (shared.view rules connection) writes = none)
    (free : shared.blocked rules connection writes = false)
    : Sound rules (shared.append connection writes) := by
  have origin : ∀ held ∈ (shared.append connection writes).pending, ∃ old ∈ shared.pending,
      held.connection = old.connection
        ∧ held.writes = old.writes ++ if old.connection = connection then writes else [] := by
    intro held member
    obtain ⟨old, there, rfl⟩ := List.mem_map.mp member
    refine ⟨old, there, ?_⟩
    split <;> simp
  have free := not_blocked.mp free
  refine ⟨?_, ?_, ?_⟩
  · refine sound.connections.map ?_
    intro held
    split <;> rfl
  · intro held member
    obtain ⟨old, there, _, written⟩ := origin held member
    rw [written, checkAll_append]
    refine ⟨sound.admitted old there, ?_⟩
    split
    · next own =>
        rw [Shared.view, ← own, written_mem sound there, Option.getD_some] at fine
        exact fine
    · rfl
  · intro held member other otherMember different
    obtain ⟨old, there, named, written⟩ := origin held member
    obtain ⟨old', there', named', written'⟩ := origin other otherMember
    rw [named, named'] at different
    have before := sound.apart old there old' there' different
    rw [written, written']
    by_cases own : old.connection = connection
    · have others : ¬ old'.connection = connection := fun same => different (own.trans same.symm)
      rw [if_pos own, if_neg others, List.append_nil, clashes_append, before,
        clashes_comm lawful, free old' there' others]
      rfl
    · rw [if_neg own, List.append_nil]
      split
      · rw [clashes_comm lawful, clashes_append, clashes_comm lawful, before, clashes_comm lawful,
          free old there own]
        rfl
      · rw [List.append_nil]
        exact before

/-- Writes that are committed at once leave the open transactions admissible. -/
theorem Sound.write (lawful : Lawful rules) (sound : Sound rules shared)
    (fine : rules.checkAll shared.committed writes = none)
    (free : ∀ held ∈ shared.pending, rules.clashes held.writes writes = false)
    : Sound rules (shared.write rules writes) := by
  refine ⟨sound.connections, ?_, sound.apart⟩
  intro held member
  exact checkAll_afterAll lawful (sound.admitted held member) (free held member) fine

theorem Sound.commit (lawful : Lawful rules) (sound : Sound rules shared)
    : Sound rules (shared.commit rules connection) := by
  have rolledBack : Sound rules (shared.rollback connection) := sound.rollback
  cases opened : shared.written connection with
  | none =>
      have same : shared.commit rules connection = shared.rollback connection := by
        rw [Shared.commit, Shared.view, opened]
        rfl
      rw [same]
      exact rolledBack
  | some writes =>
      have own := mem_of_written opened
      have same : shared.commit rules connection
          = (shared.rollback connection).write rules writes := by
        rw [Shared.commit, Shared.view, opened]
        rfl
      rw [same]
      refine rolledBack.write lawful (sound.admitted _ own) ?_
      intro held member
      obtain ⟨there, other⟩ := List.mem_filter.mp member
      exact sound.apart held there _ own (by simpa using other)

end Operations

-----------------------------------------------------------------------------------------
-- What the others do leaves a transaction alone
-----------------------------------------------------------------------------------------

section Others

variable {shared : Shared Tables Write} {connection other : Nat}

/-- What a transaction has written once some connection has written more. -/
theorem written_after_append
    : (shared.append other more).written connection
      = (shared.pending.find? (·.connection == connection)).map
          (fun held => if held.connection = other then held.writes ++ more else held.writes) := by
  have named : ∀ held : Pending Write,
      (if held.connection = other then { held with writes := held.writes ++ more } else held).connection
        = held.connection := by
    intro held
    split <;> rfl
  simp only [Shared.written, Shared.append, List.find?_map, Option.map_map, Function.comp_def,
    named,
    apply_ite Pending.writes]

theorem written_append (opened : shared.written connection = some writes)
    : (shared.append connection more).written connection = some (writes ++ more) := by
  obtain ⟨held, found, rfl⟩ := Option.map_eq_some_iff.mp opened
  have own : held.connection = connection := by simpa using List.find?_some found
  rw [written_after_append, found, Option.map_some, if_pos own]

variable (apart : other ≠ connection)

include apart

theorem written_begin_other
    : (shared.begin other).written connection = shared.written connection := by
  simp [Shared.written, Shared.begin, apart]

theorem written_append_other
    : (shared.append other more).written connection = shared.written connection := by
  rw [written_after_append, Shared.written]
  refine Option.map_congr ?_
  intro held found
  have own : held.connection = connection := by simpa using List.find?_some (Option.mem_def.mp found)
  exact if_neg (fun same => apart (same.symm.trans own))

theorem written_rollback_other
    : (shared.rollback other).written connection = shared.written connection := by
  rw [Shared.written, Shared.written, Shared.rollback, List.find?_filter]
  congr 2
  funext held
  by_cases own : held.connection = connection
  · simp [own, apart.symm]
  · simp [own]

theorem written_commit_other
    : (shared.commit rules other).written connection = shared.written connection :=
  written_rollback_other apart

end Others

-----------------------------------------------------------------------------------------
-- One more transaction than there are
-----------------------------------------------------------------------------------------

/-- The transaction of the connection is open besides the others, and has written this. -/
def Shared.opened (shared : Shared Tables Write) (connection : Nat) (writes : List Write)
    : Shared Tables Write :=
  { shared with pending := shared.pending ++ [⟨connection, writes⟩] }

section Opened

variable {shared : Shared Tables Write} {connection : Nat}

variable (closed : shared.written connection = none)

include closed

theorem written_opened : (shared.opened connection writes).written connection = some writes := by
  have missed := Option.map_eq_none_iff.mp closed
  rw [Shared.written, Shared.opened, List.find?_append, missed]
  simp

theorem view_opened
    : (shared.opened connection writes).view rules connection
      = rules.applyAll shared.committed writes := by
  rw [Shared.view, written_opened closed]
  rfl

theorem append_opened
    : (shared.opened connection writes).append connection more
      = shared.opened connection (writes ++ more) := by
  have others : shared.pending.map (fun held =>
      if held.connection = connection then { held with writes := held.writes ++ more } else held)
      = shared.pending := by
    refine (List.map_congr_left ?_).trans (List.map_id _)
    intro held member
    exact if_neg (not_mem_of_written closed held member)
  simp [Shared.append, Shared.opened, others]

theorem rollback_opened : (shared.opened connection writes).rollback connection = shared := by
  have others : shared.pending.filter (·.connection != connection) = shared.pending := by
    refine List.filter_eq_self.mpr ?_
    intro held member
    simpa using not_mem_of_written closed held member
  simp [Shared.rollback, Shared.opened, others]

theorem commit_opened
    : (shared.opened connection writes).commit rules connection = shared.write rules writes := by
  rw [Shared.commit, view_opened closed, rollback_opened closed]
  rfl

/-- The locks of the others alone are in the way. -/
theorem blocked_opened
    : (shared.opened connection writes).blocked rules connection more
      = shared.pending.any (fun held => rules.clashes held.writes more) := by
  have others : ∀ held ∈ shared.pending, held.connection ≠ connection := not_mem_of_written closed
  rw [Bool.eq_iff_iff, List.any_eq_true]
  simp only [Shared.blocked, Shared.opened, List.any_append, List.any_cons, List.any_nil,
    bne_self_eq_false, Bool.false_and, Bool.or_false, List.any_eq_true, Bool.and_eq_true, bne_iff_ne]
  constructor
  · intro clash
    obtain ⟨held, member, _, clash⟩ := clash
    exact ⟨held, member, clash⟩
  · intro clash
    obtain ⟨held, member, clash⟩ := clash
    exact ⟨held, member, others held member, clash⟩

end Opened

end Transactions.Locking
