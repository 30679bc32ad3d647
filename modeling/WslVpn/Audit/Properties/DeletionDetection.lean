import WslVpn.Audit.Properties.EditDetection
import WslVpn.Control.Statements

/-! Which deletions the verification notices. Behind its last row the log has no other record of how
long it was.
-/

namespace WslVpn

variable {formats : Formats} {sha256 : String → String}

-----------------------------------------------------------------------------------------
-- A chain with rows taken out
-----------------------------------------------------------------------------------------

/-- Two rows of a chain with one number are one row. -/
theorem Chains.same {seq : Int} {previous : String} {rows : List AuditRow}
    (chains : Chains formats sha256 seq previous rows) {left right : AuditRow}
    (leftThere : left ∈ rows) (rightThere : right ∈ rows) (same : left.seq = right.seq)
    : left = right := by
  obtain ⟨first, leftFound⟩ := List.mem_iff_getElem?.mp leftThere
  obtain ⟨second, rightFound⟩ := List.mem_iff_getElem?.mp rightThere
  have low := chains.linked.seq_eq leftFound
  have high := chains.linked.seq_eq rightFound
  have place : first = second := by omega
  rw [place, rightFound] at leftFound
  exact (Option.some.inj leftFound).symm

/-- Rows of a log that verifies are in order when the others are gone. -/
theorem bySeq_deleteWhere {rows : List AuditRow}
    (chains : Chains formats sha256 0 genesis (bySeq rows)) (removed : AuditRow → Bool)
    : bySeq (deleteWhere removed rows) = deleteWhere removed (bySeq rows) := by
  have strict : (deleteWhere removed (bySeq rows)).Pairwise (·.seq < ·.seq) :=
    chains.linked.strict.filter _
  have sorted : (deleteWhere removed (bySeq rows)).Pairwise (·.seq ≤ ·.seq) :=
    strict.imp le_of_lt
  have same : (deleteWhere removed rows).Perm (deleteWhere removed (bySeq rows)) :=
    (List.perm_insertionSort _ rows).symm.filter _
  have total : Std.Total (fun left right : AuditRow => left.seq ≤ right.seq) :=
    ⟨fun left right => le_total left.seq right.seq⟩
  have trans : IsTrans AuditRow (fun left right => left.seq ≤ right.seq) :=
    ⟨fun _ _ _ => le_trans⟩
  refine List.Perm.eq_of_pairwise ?_ (List.pairwise_insertionSort _ _) sorted
    ((List.perm_insertionSort _ _).trans same)
  intro left right leftThere rightThere low high
  have leftKept := same.mem_iff.mp ((List.mem_insertionSort _).mp leftThere)
  exact chains.same (mem_deleteWhere.mp leftKept).1 (mem_deleteWhere.mp rightThere).1
    (le_antisymm low high)

/-- What is left of a chain is a chain exactly when no row is left behind a gap. -/
theorem Chains.deleteWhere_iff {seq : Int} {previous : String} {rows : List AuditRow}
    (chains : Chains formats sha256 seq previous rows) (removed : AuditRow → Bool)
    : Chains formats sha256 seq previous (deleteWhere removed rows)
      ↔ rows.Pairwise (fun before after => removed before = true → removed after = true) := by
  induction rows generalizing seq previous with
  | nil => exact iff_of_true trivial List.Pairwise.nil
  | cons row rest ih =>
      obtain ⟨numbered, linked, hashed, follow⟩ := chains
      rw [List.pairwise_cons]
      cases gone : removed row with
      | false =>
          have kept : deleteWhere removed (row :: rest) = row :: deleteWhere removed rest := by
            simp [deleteWhere, gone]
          rw [kept, Chains]
          simp only [numbered, linked, hashed, true_and]
          rw [← hashed, ih follow]
          simp
      | true =>
          have left : deleteWhere removed (row :: rest) = deleteWhere removed rest := by
            simp [deleteWhere, gone]
          rw [left]
          constructor
          · intro stays
            have none : deleteWhere removed rest = [] := by
              cases remains : deleteWhere removed rest with
              | nil => rfl
              | cons next others =>
                  -- The first row that is left has a higher number than its place asks for.
                  rw [remains] at stays
                  have member : next ∈ deleteWhere removed rest := by
                    rw [remains]
                    exact List.mem_cons_self
                  have above := follow.lt (mem_deleteWhere.mp member).1
                  have place := stays.1
                  omega
            have all : ∀ later ∈ rest, removed later = true := by
              intro later there
              cases goes : removed later with
              | true => rfl
              | false =>
                  have member := mem_deleteWhere.mpr ⟨there, goes⟩
                  rw [none] at member
                  cases member
            refine ⟨fun later there _ => all later there, ?_⟩
            exact List.pairwise_of_forall_mem_list (fun _ _ after there _ => all after there)
          · intro given
            obtain ⟨all, _⟩ := given
            have none : deleteWhere removed rest = [] := by
              refine List.filter_eq_nil_iff.mpr ?_
              intro later there
              simp [all later there rfl]
            rw [none]
            trivial

-----------------------------------------------------------------------------------------
-- The deletions that the verification notices
-----------------------------------------------------------------------------------------

/-- In a log that verifies, the deletion of any rows is noticed exactly when a row with a higher number
than one of them is left: the end of the log can be cut off.
-/
theorem deletion_detected_iff {rows : List AuditRow}
    (verified : auditVerify formats sha256 rows = none) (removed : AuditRow → Bool)
    : (auditVerify formats sha256 (deleteWhere removed rows)).isSome = true
      ↔ ∃ gone ∈ rows, removed gone = true
          ∧ ∃ kept ∈ rows, removed kept = false ∧ gone.seq < kept.seq := by
  have chains := verifyFrom_eq_none.mp verified
  have stays : auditVerify formats sha256 (deleteWhere removed rows) = none
      ↔ (bySeq rows).Pairwise (fun before after => removed before = true → removed after = true) := by
    rw [auditVerify, bySeq_deleteWhere chains, verifyFrom_eq_none]
    exact chains.deleteWhere_iff removed
  have listed : ∀ {row}, row ∈ bySeq rows ↔ row ∈ rows := List.mem_insertionSort _
  rw [← not_iff_not, Bool.not_eq_true, Option.isSome_eq_false_iff, Option.isNone_iff_eq_none, stays]
  constructor
  · intro ordered given
    obtain ⟨gone, goneThere, goes, kept, keptThere, stays, before⟩ := given
    obtain ⟨first, inside, rfl⟩ := List.mem_iff_getElem.mp (listed.mpr goneThere)
    obtain ⟨second, within, rfl⟩ := List.mem_iff_getElem.mp (listed.mpr keptThere)
    have low := chains.linked.seq_eq (List.getElem?_eq_getElem inside)
    have high := chains.linked.seq_eq (List.getElem?_eq_getElem within)
    have goesToo := List.pairwise_iff_getElem.mp ordered first second inside within (by omega) goes
    rw [stays] at goesToo
    cases goesToo
  · intro none
    refine chains.linked.strict.imp_of_mem ?_
    intro before after beforeThere afterThere order goes
    by_contra stays
    exact none ⟨before, listed.mp beforeThere, goes, after, listed.mp afterThere,
      Bool.eq_false_iff.mpr stays, order⟩

/-- The digests of the two rows in use, the way the database computes them. -/
def pairSha256 (text : String) : String :=
  if text = auditEntryText labFormats genesis 1 labContent then
    "72aa915f01cfc62e0d37039e381233e139e5c638d2b83584b2ab44434c9da9de"
  else if text = auditEntryText labFormats
      "72aa915f01cfc62e0d37039e381233e139e5c638d2b83584b2ab44434c9da9de" 2 labContent then
    "cf135ccde6903a2a1a74dff1876d7abc0b85646ff9a559c63f83485b69aecd60"
  else "x" ++ text

def pairFirst : AuditRow := chained labFormats pairSha256 0 genesis ⟨labContent, 1⟩

def pairSecond : AuditRow := chained labFormats pairSha256 1 pairFirst.entryHash ⟨labContent, 2⟩

theorem pairLog_verifies : auditVerify labFormats pairSha256 [pairFirst, pairSecond] = none := by
  have chains : Chains labFormats pairSha256 0 genesis [pairFirst, pairSecond] :=
    @Chains.backfillFrom labFormats pairSha256 0 genesis [⟨labContent, 1⟩, ⟨labContent, 2⟩]
  rw [auditVerify, chains.bySeq_eq]
  exact verifyFrom_eq_none.mpr chains

/-- Without its first row the log of two rows does not verify. -/
theorem first_deletion_detected
    : (auditVerify labFormats pairSha256
        (deleteWhere (·.id == 1) [pairFirst, pairSecond])).isSome = true := by
  refine (deletion_detected_iff pairLog_verifies _).mpr ?_
  exact ⟨pairFirst, List.mem_cons_self, rfl, pairSecond, List.mem_cons_of_mem _ List.mem_cons_self,
    rfl, by decide⟩

/-- Without its last row it does. -/
theorem last_deletion_missed
    : auditVerify labFormats pairSha256 [pairFirst, pairSecond] = none
      ∧ pairSecond ∈ [pairFirst, pairSecond]
      ∧ auditVerify labFormats pairSha256 (deleteWhere (·.id == 2) [pairFirst, pairSecond])
          = none := by
  refine ⟨pairLog_verifies, List.mem_cons_of_mem _ List.mem_cons_self, ?_⟩
  have chains : Chains labFormats pairSha256 0 genesis [pairFirst] :=
    @Chains.backfillFrom labFormats pairSha256 0 genesis [⟨labContent, 1⟩]
  have left : deleteWhere (·.id == 2) [pairFirst, pairSecond] = [pairFirst] := rfl
  rw [left, auditVerify, chains.bySeq_eq]
  exact verifyFrom_eq_none.mpr chains

end WslVpn
