import WslVpn.Audit.Properties.ChainSoundness

/-! Which edits of a recorded row the verification notices. -/

namespace WslVpn

variable {formats : Formats} {sha256 : String → String}

/-- The recorded columns as they enter the hashed text, in order. -/
def AuditContent.fields (formats : Formats) (row : AuditContent) : List String :=
  [ row.action, orEmpty id row.decision, row.actorType.asStr, orEmpty id row.actorId,
    orEmpty formats.uuid row.userId, orEmpty formats.uuid row.deviceId, orEmpty id row.resource,
    orEmpty formats.uuid row.policyId, orEmpty toString row.policyVersion,
    orEmpty id row.gitCommit, orEmpty formats.inet row.sourceIp, orEmpty id row.requestId,
    row.details, formats.timestamp row.createdAt ]

/-- The text of a field between its bars. -/
def cuts (text : String) : List (List Char) := text.toList.splitOn '|'

/-- What the bars leave of all fields, one after the other. -/
def AuditContent.pieces (formats : Formats) (row : AuditContent) : List (List Char) :=
  (row.fields formats).flatMap cuts

/-- The row of a sequence number records something else, and keeps its place in the chain. -/
def AuditRow.edit (seq : Int) (content : AuditContent) (row : AuditRow) : AuditRow :=
  if row.seq = seq then { row with toAuditContent := content } else row

def edit (rows : List AuditRow) (seq : Int) (content : AuditContent) : List AuditRow :=
  rows.map (AuditRow.edit seq content)

-----------------------------------------------------------------------------------------
-- The hashed text
-----------------------------------------------------------------------------------------

/-- Texts with bars between them, the last one apart. -/
def barred : List String → List Char
  | [] => []
  | [text] => text.toList
  | text :: rest => text.toList ++ '|' :: barred rest

/-- The bars between the texts cut as those within them do. -/
theorem splitOn_barred (texts : List String) (some : texts ≠ [])
    : (barred texts).splitOn '|' = texts.flatMap cuts := by
  induction texts with
  | nil => exact absurd rfl some
  | cons text rest ih =>
      cases rest with
      | nil => simp [barred, cuts]
      | cons next rest =>
          rw [barred, List.splitOn_append_cons_self, ih nofun]
          · rfl
          · nofun

theorem barred_inj {left right : List String} (leftSome : left ≠ []) (rightSome : right ≠ [])
    : barred left = barred right ↔ left.flatMap cuts = right.flatMap cuts := by
  rw [← splitOn_barred left leftSome, ← splitOn_barred right rightSome]
  constructor
  · intro same
    rw [same]
  · intro same
    rw [← @List.intercalate_splitOn _ (barred left) _ _ '|', same, List.intercalate_splitOn]

/-- Fourteen texts behind a link and a number, over any texts, so that none is unfolded. -/
theorem toList_joined (prev seq a b c d e f g h i j k l m n : String)
    : (prev ++ seq ++ "|" ++ a ++ "|" ++ b ++ "|" ++ c ++ "|" ++ d ++ "|" ++ e ++ "|" ++ f ++ "|" ++ g
        ++ "|" ++ h ++ "|" ++ i ++ "|" ++ j ++ "|" ++ k ++ "|" ++ l ++ "|" ++ m ++ "|" ++ n).toList
      = prev.toList ++ seq.toList ++ '|' :: barred [a, b, c, d, e, f, g, h, i, j, k, l, m, n] := by
  have bar : "|".toList = ['|'] := rfl
  simp only [barred, String.toList_append, bar, List.append_assoc, List.cons_append,
    List.nil_append]

/-- The hashed text is the link, the number and the fields. -/
theorem auditEntryText_toList (prev : String) (seq : Int) (row : AuditContent)
    : (auditEntryText formats prev seq row).toList
      = prev.toList ++ (toString seq).toList ++ '|' :: barred (row.fields formats) :=
  toList_joined prev (toString seq) _ _ _ _ _ _ _ _ _ _ _ _ _ _

/-- The digest of a row at its place tells contents apart that differ in their pieces, and no
others.
-/
theorem auditEntryHash_inj (injective : Function.Injective sha256) (prev : String) (seq : Int)
    {left right : AuditContent}
    : auditEntryHash formats sha256 prev seq left = auditEntryHash formats sha256 prev seq right
      ↔ left.pieces formats = right.pieces formats := by
  have texts : auditEntryText formats prev seq left = auditEntryText formats prev seq right
      ↔ barred (left.fields formats) = barred (right.fields formats) := by
    rw [← String.toList_inj, auditEntryText_toList, auditEntryText_toList]
    simp only [List.append_cancel_left_eq, List.cons_inj_right]
  exact injective.eq_iff.trans (texts.trans (barred_inj nofun nofun))

-----------------------------------------------------------------------------------------
-- The chain around an edited row
-----------------------------------------------------------------------------------------

@[simp] theorem seq_edit (seq : Int) (content : AuditContent) (row : AuditRow)
    : (row.edit seq content).seq = row.seq := by
  rw [AuditRow.edit]
  split <;> rfl

theorem edit_of_ne {seq : Int} {row : AuditRow} (other : row.seq ≠ seq) (content : AuditContent)
    : row.edit seq content = row := if_neg other

theorem bySeq_edit (rows : List AuditRow) (seq : Int) (content : AuditContent)
    : bySeq (edit rows seq content) = edit (bySeq rows) seq content := by
  refine (List.map_insertionSort _ _ _ _ ?_).symm
  intro left _ right _
  rw [seq_edit, seq_edit]

/-- A chain goes on with higher numbers. -/
theorem Chains.lt {seq : Int} {previous : String} {rows : List AuditRow}
    (chains : Chains formats sha256 seq previous rows) {row : AuditRow} (member : row ∈ rows)
    : seq < row.seq := by
  obtain ⟨index, found⟩ := List.mem_iff_getElem?.mp member
  rw [chains.linked.seq_eq found]
  omega

/-- An edited row stands in the chain exactly where its digest is the one it had. -/
theorem Chains.edit_iff {seq : Int} {previous : String} {rows : List AuditRow}
    (chains : Chains formats sha256 seq previous rows) {row : AuditRow} (member : row ∈ rows)
    (content : AuditContent)
    : Chains formats sha256 seq previous (edit rows row.seq content)
      ↔ auditEntryHash formats sha256 row.prevHash row.seq row.toAuditContent
        = auditEntryHash formats sha256 row.prevHash row.seq content := by
  induction rows generalizing seq previous with
  | nil => cases member
  | cons head rest ih =>
      obtain ⟨numbered, linked, hashed, follow⟩ := chains
      rw [edit, List.map_cons]
      rcases List.mem_cons.mp member with rfl | later
      · have same : rest.map (AuditRow.edit row.seq content) = rest := by
          have others : ∀ other ∈ rest, other.edit row.seq content = other := by
            intro other present
            have above := follow.lt present
            exact edit_of_ne (by omega) content
          exact (List.map_congr_left others).trans (List.map_id' rest)
        rw [same, AuditRow.edit, if_pos rfl, Chains, ← linked, ← numbered]
        rw [← linked, ← numbered] at hashed
        rw [← numbered] at follow
        simp only [hashed, true_and]
        exact and_iff_left (hashed ▸ follow)
      · have apart : head.seq ≠ row.seq := by
          have above := follow.lt later
          omega
        rw [edit_of_ne apart, Chains]
        simp only [numbered, linked, ← hashed, true_and]
        exact ih follow later

-----------------------------------------------------------------------------------------
-- The edits that the verification notices
-----------------------------------------------------------------------------------------

/-- In a log that verifies, an edit of one row stays unnoticed where the bars leave the same pieces of
the row's fields.
-/
theorem auditVerify_edit (injective : Function.Injective sha256) {rows : List AuditRow}
    (verified : auditVerify formats sha256 rows = none) {row : AuditRow} (member : row ∈ rows)
    (content : AuditContent)
    : auditVerify formats sha256 (edit rows row.seq content) = none
      ↔ row.pieces formats = content.pieces formats := by
  have chains := verifyFrom_eq_none.mp verified
  have listed : row ∈ bySeq rows := (List.mem_insertionSort _).mpr member
  rw [auditVerify, bySeq_edit, verifyFrom_eq_none, chains.edit_iff listed content,
    auditEntryHash_inj injective]

theorem pieces_of_plain {row : AuditContent}
    (plain : ∀ text ∈ row.fields formats, '|' ∉ text.toList)
    : row.pieces formats = (row.fields formats).map String.toList := by
  rw [AuditContent.pieces, ← List.flatMap_singleton' ((row.fields formats).map String.toList),
    List.flatMap_map]
  refine List.flatMap_congr ?_
  intro text member
  exact List.splitOn_eq_singleton (plain text member)

/-- Where no field has a bar in it, every edit that changes the text of a field is noticed. -/
theorem plain_edit_detected (injective : Function.Injective sha256) {rows : List AuditRow}
    (verified : auditVerify formats sha256 rows = none) {row : AuditRow} (member : row ∈ rows)
    {content : AuditContent} (plain : ∀ text ∈ row.fields formats, '|' ∉ text.toList)
    (plain' : ∀ text ∈ content.fields formats, '|' ∉ text.toList)
    (changed : content.fields formats ≠ row.fields formats)
    : auditVerify formats sha256 (edit rows row.seq content) ≠ none := by
  rw [Ne, auditVerify_edit injective verified member, pieces_of_plain plain, pieces_of_plain plain',
    (List.map_injective_iff.mpr (fun _ _ => String.toList_inj.mp)).eq_iff]
  exact changed.symm

/-- In a log that verifies, an edit of one row is noticed exactly when it changes the pieces that the
bars leave of the row's fields, a missing value counting as an empty text.
-/
theorem edit_detected_iff (injective : Function.Injective sha256) {rows : List AuditRow}
    (verified : auditVerify formats sha256 rows = none) {row : AuditRow} (member : row ∈ rows)
    (content : AuditContent)
    : (auditVerify formats sha256 (edit rows row.seq content)).isSome = true
      ↔ content.pieces formats ≠ row.pieces formats := by
  rw [← not_iff_not, not_not, Bool.not_eq_true, Option.isSome_eq_false_iff,
    Option.isNone_iff_eq_none, auditVerify_edit injective verified member]
  exact eq_comm

theorem labSha256_injective : Function.Injective labSha256 := by
  have digest : ∀ text : String,
      "72aa915f01cfc62e0d37039e381233e139e5c638d2b83584b2ab44434c9da9de" ≠ "x" ++ text := by
    intro text same
    have first := congrArg (fun text => text.toList.head?) same
    rw [String.toList_append] at first
    cases first
  intro left right same
  rw [labSha256, labSha256] at same
  split at same
  · split at same
    · next isLeft isRight => rw [isLeft, isRight]
    · exact absurd same (digest right)
  · split at same
    · exact absurd same.symm (digest left)
    · exact String.append_right_inj _ |>.mp same

/-- The log of one row. -/
def labLog : List AuditRow := backfill labFormats labSha256 [⟨labContent, 1⟩]

theorem labLog_verifies : auditVerify labFormats labSha256 labLog = none := by
  have chains : Chains labFormats labSha256 0 genesis labLog := Chains.backfillFrom _
  rw [auditVerify, chains.bySeq_eq]
  exact verifyFrom_eq_none.mpr chains

/-- Another resource in the row is noticed. -/
theorem resource_edit_detected
    : (auditVerify labFormats labSha256
        (edit labLog 1 { labContent with resource := some "covered-up" })).isSome = true := by
  have member : labRow 1 ∈ labLog := List.mem_cons_self
  refine (edit_detected_iff labSha256_injective labLog_verifies member _).mpr ?_
  decide

/-- An empty decision instead of none is not. -/
theorem decision_edit_missed
    : Function.Injective labSha256
      ∧ auditVerify labFormats labSha256 labLog = none
      ∧ labRow 1 ∈ labLog
      ∧ { labContent with decision := some "" } ≠ labContent
      ∧ auditVerify labFormats labSha256
          (edit labLog (labRow 1).seq { labContent with decision := some "" }) = none := by
  have member : labRow 1 ∈ labLog := List.mem_cons_self
  refine ⟨labSha256_injective, labLog_verifies, member, nofun, ?_⟩
  exact (auditVerify_edit labSha256_injective labLog_verifies member _).mpr rfl

end WslVpn
