import WslVpn.Audit.Properties.EditDetection

/-! Whether the verification depends on the session that asks for it. The hashed text shows the time of
a row in the time zone and the date style of the session that hashes it.
-/

namespace WslVpn

variable {Settings : Type}

/-- A row with the settings of the session that inserted it, which the table itself does not record.
-/
structure WrittenRow (Settings : Type) extends AuditRow where
  writer : Settings

/-- The table `audit_events`, where each session hashes its rows under its own settings. -/
def auditEventsOf (shows : Settings → Formats) (sha256 : String → String)
    : Transactions.Rules (Settings × AuditInsert) (WrittenRow Settings) where
  trigger rows new :=
    (auditEventsChain (shows new.1) sha256 (rows.map (·.toAuditRow)) new.2).map
      (fun row => ⟨row, new.1⟩)
  clash row other := row.id = other.id ∨ row.seq = other.seq

/-- The rows that a migration chains, under the settings of its session. -/
def writtenBackfill (shows : Settings → Formats) (sha256 : String → String) (migration : Settings)
    (rows : List AuditInsert) : List (WrittenRow Settings) :=
  (backfill (shows migration) sha256 rows).map (fun row => ⟨row, migration⟩)

/-- What `audit_verify` reports to a session. -/
def auditVerifyFor (shows : Settings → Formats) (sha256 : String → String) (session : Settings)
    (rows : List (WrittenRow Settings)) : Option AuditBreak :=
  auditVerify (shows session) sha256 (rows.map (·.toAuditRow))

variable {shows : Settings → Formats} {sha256 : String → String}

/-- The hash of a row, computed in a session. -/
def WrittenRow.hashFor (shows : Settings → Formats) (sha256 : String → String)
    (row : WrittenRow Settings) (session : Settings) : String :=
  auditEntryHash (shows session) sha256 row.prevHash row.seq row.toAuditContent

-----------------------------------------------------------------------------------------
-- The log of many sessions
-----------------------------------------------------------------------------------------

/-- The rows are linked from the beginning, and each has the hash that its writer computed. -/
structure Untampered (shows : Settings → Formats) (sha256 : String → String)
    (rows : List (WrittenRow Settings)) : Prop where
  linked : Linked 0 genesis (rows.map (·.toAuditRow))
  hashed : ∀ row ∈ rows, row.entryHash = row.hashFor shows sha256 row.writer

theorem untampered_backfill (migration : Settings) (earlier : List AuditInsert)
    : Untampered shows sha256 (writtenBackfill shows sha256 migration earlier) := by
  have chains : Chains (shows migration) sha256 0 genesis
      (backfill (shows migration) sha256 earlier) := Chains.backfillFrom _
  refine ⟨?_, ?_⟩
  · rw [writtenBackfill, List.map_map]
    exact (List.map_id' _).symm ▸ chains.linked
  · intro row member
    obtain ⟨plain, there, rfl⟩ := List.mem_map.mp member
    exact (chains_iff.mp chains).2 plain there

/-- The trigger and the index on `seq` keep the log untampered, whatever the settings of the
sessions.
-/
theorem auditEventsOf_serial (shows : Settings → Formats) (sha256 : String → String)
    : Transactions.Serial (auditEventsOf shows sha256) (Untampered shows sha256) := by
  have made_eq : ∀ {rows : List (WrittenRow Settings)} {new : Settings × AuditInsert}
      {row : WrittenRow Settings}, Linked 0 genesis (rows.map (·.toAuditRow))
        → (auditEventsOf shows sha256).trigger rows new = some row
        → row = ⟨chained (shows new.1) sha256 rows.length
            (((rows.map (·.toAuditRow)).getLast?.map (·.entryHash)).getD genesis) new.2, new.1⟩ := by
    intro rows new row linked made
    obtain ⟨plain, inserted, rfl⟩ := Option.map_eq_some_iff.mp made
    have last := linked.auditEventsChain inserted
    rw [List.length_map] at last
    rw [last]
  refine ⟨?_, ?_, ?_⟩
  · intro rows new row untampered made
    have last := made_eq untampered.linked made
    refine ⟨?_, ?_⟩
    · rw [List.map_append, Linked.append]
      refine ⟨untampered.linked, ?_⟩
      rw [List.map_singleton, last, List.length_map, zero_add]
      exact ⟨rfl, rfl, trivial⟩
    · intro other member
      rcases List.mem_append.mp member with old | new
      · exact untampered.hashed other old
      · obtain rfl := List.mem_singleton.mp new
        rw [last]
        rfl
  · intro rows more untampered
    have linked := untampered.linked
    rw [List.map_append, Linked.append] at linked
    exact ⟨linked.1, fun row member => untampered.hashed row (List.mem_append_left _ member)⟩
  · intro rows more new row untampered missed made
    have linked := untampered.linked
    rw [List.map_append, Linked.append] at linked
    have last := made_eq linked.1 made
    -- The first row that the view lacks has the number that the new row is given.
    cases more with
    | nil => exact absurd rfl missed
    | cons first rest =>
        refine ⟨first, List.mem_cons_self, Or.inr ?_⟩
        have place := linked.2.1
        rw [List.length_map, zero_add] at place
        rw [place, last]
        rfl

-----------------------------------------------------------------------------------------
-- The session that verifies
-----------------------------------------------------------------------------------------

/-- The settings decide how a time is shown, and nothing else that is hashed. -/
def TimesOnly (shows : Settings → Formats) : Prop :=
  ∀ left right, (shows left).uuid = (shows right).uuid ∧ (shows left).inet = (shows right).inet

/-- Barred texts that differ in the last one at most, by induction on the others. -/
theorem barred_concat_inj (texts : List String) {left right : String}
    : barred (texts ++ [left]) = barred (texts ++ [right]) ↔ left = right := by
  induction texts with
  | nil => exact String.toList_inj
  | cons text rest ih =>
      have step : ∀ last, barred (text :: rest ++ [last])
          = text.toList ++ '|' :: barred (rest ++ [last]) := by
        intro last
        cases rest <;> rfl
      rw [step, step, List.append_cancel_left_eq, List.cons_inj_right, ih]

/-- The recorded columns before the time, in order. -/
def AuditContent.timeless (formats : Formats) (row : AuditContent) : List String :=
  [ row.action, orEmpty id row.decision, row.actorType.asStr, orEmpty id row.actorId,
    orEmpty formats.uuid row.userId, orEmpty formats.uuid row.deviceId, orEmpty id row.resource,
    orEmpty formats.uuid row.policyId, orEmpty toString row.policyVersion,
    orEmpty id row.gitCommit, orEmpty formats.inet row.sourceIp, orEmpty id row.requestId,
    row.details ]

theorem fields_eq (formats : Formats) (row : AuditContent)
    : row.fields formats = row.timeless formats ++ [formats.timestamp row.createdAt] := rfl

/-- Two sessions agree on the hash of a row where they show its time alike. -/
theorem hashFor_eq_iff (injective : Function.Injective sha256) (timesOnly : TimesOnly shows)
    (row : WrittenRow Settings) (left right : Settings)
    : row.hashFor shows sha256 left = row.hashFor shows sha256 right
      ↔ (shows left).timestamp row.createdAt = (shows right).timestamp row.createdAt := by
  obtain ⟨uuid, inet⟩ := timesOnly left right
  have timeless : row.timeless (shows left) = row.timeless (shows right) := by
    rw [AuditContent.timeless, AuditContent.timeless, uuid, inet]
  refine injective.eq_iff.trans ?_
  rw [← String.toList_inj, auditEntryText_toList, auditEntryText_toList, fields_eq, fields_eq,
    timeless, List.append_cancel_left_eq, List.cons_inj_right, barred_concat_inj]

/-- After any run of transactions from any sessions, behind a migration in any other: the log verifies
in a session exactly when that session shows the time of every row as its writer did, and this is when
it computes every stored hash anew.
-/
theorem verifies_for_iff (injective : Function.Injective sha256) (timesOnly : TimesOnly shows)
    {migration : Settings} {earlier : List AuditInsert}
    {state : Transactions.State (Settings × AuditInsert) (WrittenRow Settings)}
    (run
      : Transactions.Run (auditEventsOf shows sha256)
          (.start (writtenBackfill shows sha256 migration earlier)) state)
    (session : Settings)
    : (auditVerifyFor shows sha256 session state.committed = none
        ↔ ∀ row ∈ state.committed,
            (shows session).timestamp row.createdAt = (shows row.writer).timestamp row.createdAt)
      ∧ ((∀ row ∈ state.committed, row.hashFor shows sha256 session = row.entryHash)
        ↔ ∀ row ∈ state.committed,
            (shows session).timestamp row.createdAt
              = (shows row.writer).timestamp row.createdAt) := by
  have untampered : Untampered shows sha256 state.committed :=
    Transactions.run_good (auditEventsOf_serial shows sha256) (untampered_backfill _ _) run
  have hashes
      : (∀ row ∈ state.committed, row.hashFor shows sha256 session = row.entryHash)
        ↔ ∀ row ∈ state.committed,
            (shows session).timestamp row.createdAt
              = (shows row.writer).timestamp row.createdAt := by
    refine forall₂_congr ?_
    intro row member
    rw [untampered.hashed row member]
    exact hashFor_eq_iff injective timesOnly row session row.writer
  refine ⟨?_, hashes⟩
  rw [auditVerifyFor, auditVerify, untampered.linked.bySeq_eq, verifyFrom_eq_none, chains_iff,
    and_iff_right untampered.linked, List.forall_mem_map, ← hashes]
  refine forall₂_congr ?_
  intro row _
  exact eq_comm

-----------------------------------------------------------------------------------------
-- Three time zones
-----------------------------------------------------------------------------------------

/-- The time zones of three sessions. -/
inductive LabZone where
  | utc
  | berlin
  | oslo

/-- How the sessions show the one time in use. -/
def labZoneFormats : LabZone → Formats
  | .utc => labFormats
  | .berlin | .oslo => {
      labFormats with
      timestamp := fun time => if time = 0 then "1970-01-01 01:00:00+01" else toString time
    }

/-- The digests of the one row under either zone, the way the database computes them. -/
def zoneSha256 (text : String) : String :=
  if text = auditEntryText (labZoneFormats .utc) genesis 1 labContent then
    "72aa915f01cfc62e0d37039e381233e139e5c638d2b83584b2ab44434c9da9de"
  else if text = auditEntryText (labZoneFormats .berlin) genesis 1 labContent then
    "46c5661fc98bebf0aee68558eb1d078643975a62d17e46bf80cefc9b4f98ba43"
  else "x" ++ text

theorem zoneSha256_injective : Function.Injective zoneSha256 := by
  have listed : ∀ digest text : String, digest.toList.head? ≠ some 'x' → digest ≠ "x" ++ text := by
    intro digest text other same
    rw [same, String.toList_append] at other
    exact other rfl
  intro left right same
  rw [zoneSha256, zoneSha256] at same
  split at same
  · next isLeft =>
      split at same
      · next isRight => rw [isLeft, isRight]
      · split at same
        · exact absurd same (by decide)
        · exact absurd same (listed _ _ (by decide))
  · split at same
    · next isLeft =>
        split at same
        · exact absurd same (by decide)
        · split at same
          · next isRight => rw [isLeft, isRight]
          · exact absurd same (listed _ _ (by decide))
    · split at same
      · exact absurd same.symm (listed _ _ (by decide))
      · split at same
        · exact absurd same.symm (listed _ _ (by decide))
        · exact String.append_right_inj _ |>.mp same

/-- Who inserts the one row. -/
def zoneRow (writer : LabZone) : WrittenRow LabZone :=
  ⟨chained (labZoneFormats writer) zoneSha256 0 genesis ⟨labContent, 1⟩, writer⟩

theorem zones_timesOnly : TimesOnly labZoneFormats := by
  intro left right
  cases left <;> cases right <;> exact ⟨rfl, rfl⟩

/-- One transaction of a session in this zone inserts the row. -/
theorem zoneRow_run (writer : LabZone)
    : ∃ state : Transactions.State (LabZone × AuditInsert) (WrittenRow LabZone),
        state.committed = [zoneRow writer]
        ∧ Transactions.Run (auditEventsOf labZoneFormats zoneSha256)
            (.start (writtenBackfill labZoneFormats zoneSha256 .utc [])) state := by
  have room : (0 : Int) + 1 ≤ bigintMax := by decide
  have chains : auditEventsChain (labZoneFormats writer) zoneSha256 [] ⟨labContent, 1⟩
      = some (zoneRow writer).toAuditRow := @if_pos _ _ room _ _ none
  have made : (auditEventsOf labZoneFormats zoneSha256).trigger [] (writer, ⟨labContent, 1⟩)
      = some (zoneRow writer) :=
    congrArg (Option.map (fun row => (⟨row, writer⟩ : WrittenRow LabZone))) chains
  exact Transactions.run_alone .readCommitted made
    (fun other present => absurd present List.not_mem_nil)

/-- A session in Oslo verifies what one in Berlin wrote. -/
theorem neighbour_verifies
    : ∃ state : Transactions.State (LabZone × AuditInsert) (WrittenRow LabZone),
        state.committed = [zoneRow .berlin]
        ∧ auditVerifyFor labZoneFormats zoneSha256 .oslo state.committed = none := by
  obtain ⟨state, committed, run⟩ := zoneRow_run .berlin
  refine ⟨state, committed, ?_⟩
  refine (verifies_for_iff zoneSha256_injective zones_timesOnly run .oslo).1.mpr ?_
  intro row member
  rw [committed, List.mem_singleton] at member
  rw [member]
  rfl

/-- A session in UTC reports that its contents do not match. -/
theorem other_zone_reports
    : ∃ state : Transactions.State (LabZone × AuditInsert) (WrittenRow LabZone),
        Transactions.Run (auditEventsOf labZoneFormats zoneSha256)
          (.start (writtenBackfill labZoneFormats zoneSha256 .utc [])) state
        ∧ state.committed = [zoneRow .berlin]
        ∧ (auditVerifyFor labZoneFormats zoneSha256 .utc state.committed).map (·.problem)
            = some "contents do not match the recorded hash" := by
  obtain ⟨state, committed, run⟩ := zoneRow_run .berlin
  refine ⟨state, run, committed, ?_⟩
  rw [committed]
  decide +kernel

end WslVpn
