import Mathlib.Data.List.Sort
import WslVpn.Control.Schema
import WslVpn.Transactions.Table

/-! The hash chain over the rows of `audit_events`, as the database builds and verifies it. -/

namespace WslVpn

open AddressSpace

/-- What a row of the audit log records. A `jsonb` value is the text that shows it. -/
structure AuditContent where
  action : String
  decision : Option String
  actorType : ActorType
  actorId : Option String
  userId : Option Uuid
  deviceId : Option Uuid
  resource : Option String
  policyId : Option Uuid
  policyVersion : Option Int
  gitCommit : Option String
  sourceIp : Option IpNetwork
  requestId : Option String
  details : String
  createdAt : Timestamp
  deriving DecidableEq

/-- A row as an `INSERT` gives it. -/
structure AuditInsert extends AuditContent where
  id : Uuid
  deriving DecidableEq

/-- A row as it is stored. -/
structure AuditRow extends AuditInsert where
  seq : Int
  prevHash : String
  entryHash : String
  deriving DecidableEq

/-- How a session shows values as text. -/
structure Formats where
  uuid : Uuid → String
  inet : IpNetwork → String
  timestamp : Timestamp → String

/-- What the verification reports. -/
structure AuditBreak where
  seq : Int
  id : Uuid
  createdAt : Timestamp
  problem : String
  deriving DecidableEq

def ActorType.asStr : ActorType → String
  | user => "user"
  | service => "service"
  | gateway => "gateway"
  | system => "system"

/-- `COALESCE(value::text, '')`. -/
def orEmpty {Value : Type} (show_ : Value → String) (value : Option Value) : String :=
  (value.map show_).getD ""

/-- The link of the first row: `repeat('0', 64)`. -/
def genesis : String := String.ofList (List.replicate 64 '0')

def bigintMax : Int := 2 ^ 63 - 1

section Chain

variable (formats : Formats) (sha256 : String → String)

/-- The text that is hashed for a row. -/
def auditEntryText (prev : String) (seq : Int) (row : AuditContent) : String :=
  prev
  ++ toString seq ++ "|"
  ++ row.action ++ "|"
  ++ orEmpty id row.decision ++ "|"
  ++ row.actorType.asStr ++ "|"
  ++ orEmpty id row.actorId ++ "|"
  ++ orEmpty formats.uuid row.userId ++ "|"
  ++ orEmpty formats.uuid row.deviceId ++ "|"
  ++ orEmpty id row.resource ++ "|"
  ++ orEmpty formats.uuid row.policyId ++ "|"
  ++ orEmpty toString row.policyVersion ++ "|"
  ++ orEmpty id row.gitCommit ++ "|"
  ++ orEmpty formats.inet row.sourceIp ++ "|"
  ++ orEmpty id row.requestId ++ "|"
  ++ row.details ++ "|"
  ++ formats.timestamp row.createdAt

/-- `audit_entry_hash`, where `sha256` gives the digest in hexadecimal. -/
def auditEntryHash (prev : String) (seq : Int) (row : AuditContent) : String :=
  sha256 (auditEntryText formats prev seq row)

/-- `ORDER BY seq`. -/
def bySeq (rows : List AuditRow) : List AuditRow := rows.insertionSort (·.seq ≤ ·.seq)

/-- The new row follows one given by its sequence number and its hash. -/
def chained (previousSeq : Int) (previous : String) (new : AuditInsert) : AuditRow where
  toAuditInsert := new
  seq := previousSeq + 1
  prevHash := previous
  entryHash := auditEntryHash formats sha256 previous (previousSeq + 1) new.toAuditContent

/-- Chain the rows that are older than the chain. -/
def backfillFrom (previousSeq : Int) (previous : String) : List AuditInsert → List AuditRow
  | [] => []
  | row :: rest =>
      let row := chained formats sha256 previousSeq previous row
      row :: backfillFrom row.seq row.entryHash rest

/-- `ORDER BY created_at, id`. -/
def backfill (rows : List AuditInsert) : List AuditRow :=
  backfillFrom formats sha256 0 genesis (rows.insertionSort fun left right =>
    left.createdAt < right.createdAt
      ∨ (left.createdAt = right.createdAt ∧ left.id ≤ right.id))

/-- The trigger `audit_events_chain`, once it has the lock. The sum may leave the range of `BIGINT`.
-/
def auditEventsChain (rows : List AuditRow) (new : AuditInsert) : Option AuditRow :=
  let last := (bySeq rows).getLast?
  let row := chained formats sha256 ((last.map (·.seq)).getD 0)
    ((last.map (·.entryHash)).getD genesis) new
  if row.seq ≤ bigintMax then some row else none

/-- The table `audit_events`: its trigger, its primary key and the unique index on `seq`. -/
def auditEvents : Transactions.Rules AuditInsert AuditRow where
  trigger := auditEventsChain formats sha256
  clash row other := row.id = other.id ∨ row.seq = other.seq

def AuditRow.breakAt (row : AuditRow) (problem : String) : AuditBreak :=
  ⟨row.seq, row.id, row.createdAt, problem⟩

/-- The loop of `audit_verify`, behind the row of the given sequence number and hash. -/
def verifyFrom (expected : Int) (previous : String) : List AuditRow → Option AuditBreak
  | [] => none
  | row :: rest =>
      let expected := expected + 1
      if row.seq ≠ expected then
        some (row.breakAt ("gap in sequence: expected " ++ toString expected))
      else if row.prevHash ≠ previous then
        some (row.breakAt "link does not match the preceding entry")
      else if row.entryHash ≠ auditEntryHash formats sha256 row.prevHash row.seq row.toAuditContent then
        some (row.breakAt "contents do not match the recorded hash")
      else verifyFrom expected row.entryHash rest

/-- The first row that does not verify. -/
def auditVerify (rows : List AuditRow) : Option AuditBreak :=
  verifyFrom formats sha256 0 genesis (bySeq rows)

end Chain

-----------------------------------------------------------------------------------------
-- Rows in place
-----------------------------------------------------------------------------------------

/-- The rows are numbered on from a sequence number, and linked on from a hash. -/
def Linked (seq : Int) (previous : String) : List AuditRow → Prop
  | [] => True
  | row :: rest =>
      row.seq = seq + 1 ∧ row.prevHash = previous ∧ Linked (seq + 1) row.entryHash rest

section Linked

variable {seq : Int} {previous : String} {rows : List AuditRow}

/-- The sequence number of a linked row is its place. -/
theorem Linked.seq_eq (linked : Linked seq previous rows) {index : Nat} {row : AuditRow}
    (found : rows[index]? = some row)
    : row.seq = seq + index + 1 := by
  induction rows generalizing seq previous index with
  | nil => cases found
  | cons head rest ih =>
      obtain ⟨numbered, _, follow⟩ := linked
      cases index with
      | zero =>
          cases found
          rw [numbered]
          simp
      | succ index =>
          have place := ih follow found
          rw [place]
          push_cast
          ring

theorem Linked.link (linked : Linked seq previous rows) {index : Nat}
    {row next : AuditRow} (found : rows[index]? = some row) (after : rows[index + 1]? = some next)
    : next.prevHash = row.entryHash := by
  induction rows generalizing seq previous index with
  | nil => cases found
  | cons head rest ih =>
      obtain ⟨_, _, follow⟩ := linked
      cases index with
      | zero =>
          cases found
          cases rest with
          | nil => cases after
          | cons second rest =>
              cases after
              exact follow.2.1
      | succ index => exact ih follow found after

/-- The order of linked rows is strict. -/
theorem Linked.strict (linked : Linked seq previous rows) : rows.Pairwise (·.seq < ·.seq) := by
  rw [List.pairwise_iff_getElem]
  intro first second before within order
  have low := linked.seq_eq (List.getElem?_eq_getElem before)
  have high := linked.seq_eq (List.getElem?_eq_getElem within)
  omega

/-- The order of the sequence numbers is the order of the links. -/
theorem Linked.bySeq_eq (linked : Linked seq previous rows) : bySeq rows = rows :=
  (linked.strict.imp le_of_lt).insertionSort_eq

theorem Linked.append {first second : List AuditRow}
    : Linked seq previous (first ++ second)
      ↔ Linked seq previous first
        ∧ Linked (seq + first.length) ((first.getLast?.map (·.entryHash)).getD previous) second := by
  induction first generalizing seq previous with
  | nil => simp [Linked]
  | cons row rest ih =>
      have last : ((row :: rest).getLast?.map (·.entryHash)).getD previous
          = (rest.getLast?.map (·.entryHash)).getD row.entryHash := by
        cases rest with
        | nil => rfl
        | cons second rest => rw [List.getLast?_cons_cons]; simp [List.getLast?_cons]
      have length : seq + 1 + (rest.length : Int) = seq + ((row :: rest).length : Int) := by
        rw [List.length_cons]
        push_cast
        ring
      rw [List.cons_append, Linked, Linked, ih, last, length]
      simp only [and_assoc]

/-- The trigger reads the last of linked rows, and puts the new row behind it. -/
theorem Linked.auditEventsChain {formats : Formats} {sha256 : String → String}
    (linked : Linked 0 genesis rows) {new : AuditInsert} {row : AuditRow}
    (made : auditEventsChain formats sha256 rows new = some row)
    : row = chained formats sha256 rows.length
        ((rows.getLast?.map (·.entryHash)).getD genesis) new := by
  have last : ((rows.getLast?).map (·.seq)).getD 0 = (rows.length : Int) := by
    rw [List.getLast?_eq_getElem?]
    cases found : rows[rows.length - 1]? with
    | none =>
        have short := List.getElem?_eq_none_iff.mp found
        have empty : rows.length = 0 := by omega
        rw [empty]
        rfl
    | some last =>
        have inside := (List.getElem?_eq_some_iff.mp found).1
        have place := linked.seq_eq found
        rw [Option.map_some, Option.getD_some, place]
        omega
  rw [WslVpn.auditEventsChain, linked.bySeq_eq] at made
  simp only [last] at made
  split at made
  · exact (Option.some.inj made).symm
  · cases made

end Linked

-----------------------------------------------------------------------------------------
-- Rows that verify
-----------------------------------------------------------------------------------------

/-- The rows continue a chain that has come to a sequence number and a hash. -/
def Chains (formats : Formats) (sha256 : String → String) (seq : Int) (previous : String)
    : List AuditRow → Prop
  | [] => True
  | row :: rest =>
      row.seq = seq + 1 ∧ row.prevHash = previous
      ∧ row.entryHash = auditEntryHash formats sha256 previous (seq + 1) row.toAuditContent
      ∧ Chains formats sha256 (seq + 1) row.entryHash rest

section Chains

variable {formats : Formats} {sha256 : String → String} {seq : Int} {previous : String}
  {rows : List AuditRow}

theorem verifyFrom_eq_none
    : verifyFrom formats sha256 seq previous rows = none
      ↔ Chains formats sha256 seq previous rows := by
  induction rows generalizing seq previous with
  | nil => exact iff_of_true rfl trivial
  | cons row rest ih =>
      rw [verifyFrom, Chains]
      by_cases numbered : row.seq = seq + 1
      · by_cases linked : row.prevHash = previous
        · by_cases hashed : row.entryHash
              = auditEntryHash formats sha256 previous (seq + 1) row.toAuditContent
          · simp [numbered, linked, hashed, ih]
          · simp [numbered, linked, hashed]
        · simp [numbered, linked]
      · simp [numbered]

/-- Rows that verify are linked, and each has the hash of its own contents. -/
theorem chains_iff
    : Chains formats sha256 seq previous rows
      ↔ Linked seq previous rows
        ∧ ∀ row ∈ rows,
            row.entryHash = auditEntryHash formats sha256 row.prevHash row.seq row.toAuditContent := by
  induction rows generalizing seq previous with
  | nil => simp [Chains, Linked]
  | cons row rest ih =>
      rw [Chains, Linked, ih, List.forall_mem_cons]
      constructor
      · intro given
        obtain ⟨numbered, linked, hashed, follow, others⟩ := given
        refine ⟨⟨numbered, linked, follow⟩, ?_, others⟩
        rw [linked, numbered]
        exact hashed
      · intro given
        obtain ⟨⟨numbered, linked, follow⟩, hashed, others⟩ := given
        rw [linked, numbered] at hashed
        exact ⟨numbered, linked, hashed, follow, others⟩

theorem Chains.linked (chains : Chains formats sha256 seq previous rows)
    : Linked seq previous rows :=
  (chains_iff.mp chains).1

theorem Chains.backfillFrom (inserts : List AuditInsert)
    : Chains formats sha256 seq previous (backfillFrom formats sha256 seq previous inserts) := by
  induction inserts generalizing seq previous with
  | nil => trivial
  | cons insert rest ih => exact ⟨rfl, rfl, rfl, ih⟩

/-- The order of the sequence numbers is the order of the chain. -/
theorem Chains.bySeq_eq (chains : Chains formats sha256 seq previous rows) : bySeq rows = rows :=
  chains.linked.bySeq_eq

theorem Chains.append {first second : List AuditRow}
    : Chains formats sha256 seq previous (first ++ second)
      ↔ Chains formats sha256 seq previous first
        ∧ Chains formats sha256 (seq + first.length)
            ((first.getLast?.map (·.entryHash)).getD previous) second := by
  simp only [chains_iff, Linked.append, List.forall_mem_append]
  exact and_and_and_comm

end Chains

end WslVpn
