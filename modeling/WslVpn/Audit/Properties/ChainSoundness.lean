import WslVpn.Audit.Chain
import WslVpn.Transactions.Serialised

/-! The committed log is one unbroken chain, whatever transactions write to it at the same time. -/

namespace WslVpn

variable {formats : Formats} {sha256 : String → String}

/-- The rows are a chain from its beginning. -/
def Unbroken (formats : Formats) (sha256 : String → String) (rows : List AuditRow) : Prop :=
  Chains formats sha256 0 genesis rows

/-- The table's trigger and its index on `seq` keep the log a chain. -/
theorem auditEvents_serial (formats : Formats) (sha256 : String → String)
    : Transactions.Serial (auditEvents formats sha256) (Unbroken formats sha256) := by
  refine ⟨?_, fun unbroken => (Chains.append.mp unbroken).1, ?_⟩
  · intro rows new row unbroken made
    have last := unbroken.linked.auditEventsChain made
    refine Chains.append.mpr ⟨unbroken, ?_⟩
    rw [last, zero_add]
    exact ⟨rfl, rfl, rfl, trivial⟩
  · intro rows more new row unbroken missed made
    have seen : Unbroken formats sha256 rows := (Chains.append.mp unbroken).1
    have last := seen.linked.auditEventsChain made
    -- the first row that the view lacks has the number that the new row is given
    cases more with
    | nil => exact absurd rfl missed
    | cons first rest =>
        refine ⟨first, List.mem_cons_self, Or.inr ?_⟩
        have place := (Chains.append.mp unbroken).2.1
        rw [place, last, zero_add]
        rfl

/-- From a log that a migration has chained, transactions may insert rows in any interleaving and at
any isolation level, commit, and roll back in full or to a savepoint: the committed rows are numbered
from one on without gaps, each is linked to the one before it, and the verification finds nothing.
-/
theorem audit_chain_sound {earlier : List AuditInsert}
    {state : Transactions.State AuditInsert AuditRow}
    (run
      : Transactions.Run (auditEvents formats sha256)
          (.start (backfill formats sha256 earlier)) state)
    : (bySeq state.committed).map (·.seq)
        = (List.range state.committed.length).map (fun index : Nat => (index : Int) + 1)
      ∧ (∀ index row next,
          (bySeq state.committed)[index]? = some row
          → (bySeq state.committed)[index + 1]? = some next
          → next.prevHash = row.entryHash)
      ∧ auditVerify formats sha256 state.committed = none := by
  have unbroken : Unbroken formats sha256 state.committed :=
    Transactions.run_good (auditEvents_serial formats sha256) (Chains.backfillFrom _) run
  have order := unbroken.bySeq_eq
  rw [auditVerify, order]
  refine ⟨?_, fun index row next found after => unbroken.linked.link found after, ?_⟩
  · apply List.ext_getElem?
    intro index
    rw [List.getElem?_map, List.getElem?_map]
    cases found : state.committed[index]? with
    | none =>
        have beyond := List.getElem?_eq_none_iff.mp found
        rw [List.getElem?_eq_none_iff.mpr (by rwa [List.length_range])]
        rfl
    | some row =>
        have inside := (List.getElem?_eq_some_iff.mp found).1
        rw [List.getElem?_range inside, Option.map_some, Option.map_some,
          unbroken.linked.seq_eq found,
          zero_add]
  · exact verifyFrom_eq_none.mpr unbroken

/-- A session that shows the one time in use the way PostgreSQL does. -/
def labFormats : Formats where
  uuid := toString
  inet := networkText
  timestamp time := if time = 0 then "1970-01-01 00:00:00+00" else toString time

def labContent : AuditContent where
  action := "group.create"
  decision := none
  actorType := .user
  actorId := some "admin@example.com"
  userId := none
  deviceId := none
  resource := some "engineering"
  policyId := none
  policyVersion := none
  gitCommit := none
  sourceIp := none
  requestId := none
  details := "{}"
  createdAt := 0

/-- SHA-256 of the one text in use, and an injective function elsewhere. -/
def labSha256 (text : String) : String :=
  if text = auditEntryText labFormats genesis 1 labContent then
    "72aa915f01cfc62e0d37039e381233e139e5c638d2b83584b2ab44434c9da9de"
  else "x" ++ text

def labRow (id : Uuid) : AuditRow := chained labFormats labSha256 0 genesis ⟨labContent, id⟩

/-- The row behind the first one. -/
def labSecond : AuditRow := chained labFormats labSha256 1 (labRow 1).entryHash ⟨labContent, 2⟩

/-- A transaction inserts two rows. Another one begins in between, with a snapshot that has neither, and
is given the number of the first row when it gets the lock: its insert is refused, and it rolls back.
-/
theorem two_writers_run
    : Transactions.Run (auditEvents labFormats labSha256)
        (.start (backfill labFormats labSha256 []))
        ⟨[labRow 1, labSecond],
          [⟨.readCommitted, none, [], .ended⟩, ⟨.repeatableRead, some [], [], .ended⟩], none⟩ := by
  have clash : ∀ (row other : AuditRow),
      (auditEvents labFormats labSha256).clash row other → row.id = other.id ∨ row.seq = other.seq :=
    fun _ _ clashes => clashes
  refine .head (.begin .readCommitted) ?_
  refine .head (@Transactions.Step.insert _ _ _ _ 0 _ rfl rfl ⟨labContent, 1⟩) ?_
  refine .head (@Transactions.Step.lock _ _ _ _ 0 _ _ rfl rfl (Or.inl rfl)) ?_
  refine .head (@Transactions.Step.fill _ _ _ _ 0 _ _ (labRow 1) rfl rfl rfl) ?_
  refine .head (@Transactions.Step.store _ _ _ _ 0 _ _ rfl rfl ?_ ?_) ?_
  · intro other present
    cases present
  · intro index tx found apart
    match index with
    | 0 => exact absurd rfl apart
    | index + 1 => cases found
  refine .head (.begin .repeatableRead) ?_
  refine .head (@Transactions.Step.insert _ _ _ _ 1 _ rfl rfl ⟨labContent, 3⟩) ?_
  refine .head (@Transactions.Step.insert _ _ _ _ 0 _ rfl rfl ⟨labContent, 2⟩) ?_
  refine .head (@Transactions.Step.lock _ _ _ _ 0 _ _ rfl rfl (Or.inr rfl)) ?_
  refine .head (@Transactions.Step.fill _ _ _ _ 0 _ _ labSecond rfl rfl rfl) ?_
  refine .head (@Transactions.Step.store _ _ _ _ 0 _ _ rfl rfl ?_ ?_) ?_
  · intro other present clashes
    cases List.mem_singleton.mp present
    rcases clash _ _ clashes with same | same
    · exact absurd same (by decide)
    · exact absurd same (by decide)
  · intro index tx found apart other written
    match index with
    | 0 => exact absurd rfl apart
    | 1 =>
        cases found
        cases written
    | index + 2 => cases found
  refine .head (@Transactions.Step.commit _ _ _ _ 0 _ rfl rfl) ?_
  refine .head (@Transactions.Step.lock _ _ _ _ 1 _ _ rfl rfl (Or.inl rfl)) ?_
  refine .head (@Transactions.Step.fill _ _ _ _ 1 _ _ (labRow 3) rfl rfl rfl) ?_
  refine .head (@Transactions.Step.refuse _ _ _ _ 1 _ _ (labRow 1) rfl rfl List.mem_cons_self
    (Or.inr rfl)) ?_
  refine .head (@Transactions.Step.rollback _ _ _ _ 1 _ rfl) ?_
  exact .refl

/-- What the first writer has committed verifies. -/
theorem two_writers_verify
    : ([labRow 1, labSecond].map (·.seq)) = [1, 2]
      ∧ labSecond.prevHash = (labRow 1).entryHash
      ∧ auditVerify labFormats labSha256 [labRow 1, labSecond] = none := by
  obtain ⟨_, linked, verified⟩ := @audit_chain_sound labFormats labSha256 _ _ two_writers_run
  exact ⟨rfl, linked 0 _ _ rfl rfl, verified⟩

end WslVpn
