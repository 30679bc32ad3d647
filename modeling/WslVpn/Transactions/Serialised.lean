import WslVpn.Transactions.Table

/-! The lock and one unique index keep the committed table in good order, at every isolation level. -/

namespace Transactions

variable {Draft Row : Type} {rules : Rules Draft Row} {Good : List Row → Prop}

/-- The trigger puts a row onto a table in good order, the last rows of which may go again. A row made
from an outdated view of the table clashes with one that the view lacks.
-/
structure Serial (rules : Rules Draft Row) (Good : List Row → Prop) : Prop where
  grows
    : ∀ {rows : List Row} {draft : Draft} {row : Row},
        Good rows → rules.trigger rows draft = some row → Good (rows ++ [row])
  shrinks : ∀ {rows more : List Row}, Good (rows ++ more) → Good rows
  outdated
    : ∀ {rows more : List Row} {draft : Draft} {row : Row},
        Good (rows ++ more)
        → more ≠ []
        → rules.trigger rows draft = some row
        → ∃ other ∈ more, rules.clash row other

/-- The transaction has rows of its own, or is about to have one. -/
def Transaction.Engaged (tx : Transaction Draft Row) : Prop :=
  tx.written ≠ [] ∨ (∃ draft, tx.phase = .locked draft) ∨ ∃ row, tx.phase = .filled row

/-- How an open transaction stands to the committed rows and to the lock. -/
structure Fits (rules : Rules Draft Row) (Good : List Row → Prop) (committed : List Row)
    (owner : Option Nat) (index : Nat) (tx : Transaction Draft Row) : Prop where
  earlier : ∀ rows, tx.snapshot = some rows → rows <+: committed
  owns : tx.Engaged → owner = some index
  current : tx.written ≠ [] → ∀ rows, tx.snapshot = some rows → rows = committed
  good : Good (committed ++ tx.written)
  filled
    : ∀ row, tx.phase = .filled row → ∃ draft, rules.trigger (tx.view committed) draft = some row

/-- The invariant of the table. -/
structure Sound (rules : Rules Draft Row) (Good : List Row → Prop) (state : State Draft Row)
    : Prop where
  good : Good state.committed
  fits
    : ∀ index tx, state.transactions[index]? = some tx
        → Fits rules Good state.committed state.owner index tx

-----------------------------------------------------------------------------------------
-- What a step leaves to the other transactions
-----------------------------------------------------------------------------------------

/-- The table may grow and the lock may change hands around a transaction that is not engaged. -/
theorem Fits.around {committed committed' : List Row} {owner owner' : Option Nat} {index : Nat}
    {tx : Transaction Draft Row} (fits : Fits rules Good committed owner index tx)
    (grown : committed <+: committed') (good : Good committed')
    (kept : tx.Engaged → owner' = some index ∧ committed' = committed)
    : Fits rules Good committed' owner' index tx := by
  refine ⟨?_, fun engaged => (kept engaged).1, ?_, ?_, ?_⟩
  · intro rows taken
    exact (fits.earlier rows taken).trans grown
  · intro wrote rows taken
    rw [(kept (Or.inl wrote)).2]
    exact fits.current wrote rows taken
  · by_cases wrote : tx.written = []
    · rw [wrote, List.append_nil]
      exact good
    · rw [(kept (Or.inl wrote)).2]
      exact fits.good
  · intro row ready
    rw [(kept (Or.inr (Or.inr ⟨row, ready⟩))).2]
    exact fits.filled row ready

/-- Only one transaction is engaged at a time. -/
theorem Sound.alone {state : State Draft Row} (sound : Sound rules Good state) {index index' : Nat}
    {tx tx' : Transaction Draft Row} (found : state.transactions[index]? = some tx)
    (found' : state.transactions[index']? = some tx') (engaged : tx.Engaged)
    (engaged' : tx'.Engaged)
    : index' = index := by
  have owns := (sound.fits index tx found).owns engaged
  have owns' := (sound.fits index' tx' found').owns engaged'
  rw [owns] at owns'
  exact (Option.some.inj owns').symm

/-- One transaction moves, and the others fit as they did. -/
theorem Sound.move {state : State Draft Row} (sound : Sound rules Good state) {index : Nat}
    {tx tx' : Transaction Draft Row} {committed' : List Row} {owner' : Option Nat}
    (found : state.transactions[index]? = some tx) (grown : state.committed <+: committed')
    (good : Good committed') (fits : Fits rules Good committed' owner' index tx')
    (kept
      : ∀ index' other, state.transactions[index']? = some other → index' ≠ index → other.Engaged
          → owner' = some index' ∧ committed' = state.committed)
    : Sound rules Good ⟨committed', state.transactions.set index tx', owner'⟩ := by
  have inside : index < state.transactions.length := (List.getElem?_eq_some_iff.mp found).1
  refine ⟨good, ?_⟩
  intro index' other at_
  by_cases same : index' = index
  · subst same
    rw [List.getElem?_set_self inside] at at_
    cases at_
    exact fits
  · rw [List.getElem?_set_ne (fun eq => same eq.symm)] at at_
    exact (sound.fits index' other at_).around grown good (kept index' other at_ same)

/-- A move that leaves the table and the lock alone. -/
theorem Sound.put {state : State Draft Row} (sound : Sound rules Good state) {index : Nat}
    {tx tx' : Transaction Draft Row} (found : state.transactions[index]? = some tx)
    (fits : Fits rules Good state.committed state.owner index tx')
    : Sound rules Good (state.put index tx') := by
  refine sound.move found (List.prefix_refl _) sound.good fits ?_
  intro index' other at_ _ engaged
  exact ⟨(sound.fits index' other at_).owns engaged, rfl⟩

/-- Closing a transaction keeps the lock of any other one. -/
theorem Sound.kept_release {state : State Draft Row} (sound : Sound rules Good state)
    {index index' : Nat} {other : Transaction Draft Row}
    (at_ : state.transactions[index']? = some other) (apart : index' ≠ index)
    (engaged : other.Engaged)
    : State.release state.owner index = some index' := by
  have owns := (sound.fits index' other at_).owns engaged
  rw [State.release, owns, if_neg (fun eq => apart (Option.some.inj eq))]

-----------------------------------------------------------------------------------------
-- What a transaction does itself
-----------------------------------------------------------------------------------------

section Own

variable {committed : List Row} {owner : Option Nat} {index : Nat} {tx : Transaction Draft Row}

theorem fits_start (good : Good committed) (isolation : Isolation)
    : Fits rules Good committed owner index (.start isolation) := by
  refine ⟨nofun, ?_, fun wrote => absurd rfl wrote, ?_, nofun⟩
  · intro engaged
    rcases engaged with wrote | ⟨draft, locked⟩ | ⟨row, ready⟩
    · exact absurd rfl wrote
    · cases locked
    · cases ready
  · rw [Transaction.start, List.append_nil]
    exact good

/-- A transaction that is closed wants nothing. -/
theorem fits_close (good : Good committed)
    (earlier : ∀ rows, tx.snapshot = some rows → rows <+: committed)
    : Fits rules Good committed owner index tx.close := by
  refine ⟨earlier, ?_, fun wrote => absurd rfl wrote, ?_, nofun⟩
  · intro engaged
    rcases engaged with wrote | ⟨draft, locked⟩ | ⟨row, ready⟩
    · exact absurd rfl wrote
    · cases locked
    · cases ready
  · rw [Transaction.close, List.append_nil]
    exact good

/-- The phase changes and no row is made. -/
theorem Fits.setPhase (fits : Fits rules Good committed owner index tx) {phase : Phase Draft Row}
    (owns : tx.written ≠ [] ∨ (∃ draft, phase = .locked draft) → owner = some index)
    (empty : ∀ row, phase ≠ .filled row)
    : Fits rules Good committed owner index { tx with phase := phase } := by
  refine ⟨fits.earlier, ?_, fits.current, fits.good, ?_⟩
  · intro engaged
    rcases engaged with wrote | locked | ⟨row, ready⟩
    · exact owns (Or.inl wrote)
    · exact owns (Or.inr locked)
    · exact absurd ready (empty row)
  · intro row ready
    exact absurd ready (empty row)

/-- The snapshot that a statement takes is of the present rows. -/
theorem Fits.query (fits : Fits rules Good committed owner index tx) (idle : tx.phase = .idle)
    : Fits rules Good committed owner index (tx.query committed) := by
  rw [Transaction.query]
  split
  · refine ⟨?_, fits.owns, ?_, fits.good, ?_⟩
    · intro rows taken
      cases taken
      exact List.prefix_refl _
    · intro _ rows taken
      cases taken
      rfl
    · intro row ready
      have clash := idle.symm.trans ready
      cases clash
  · exact fits

/-- A row that the unique index lets in was made from a view of all there is. -/
theorem Fits.view_current (serial : Serial rules Good)
    (fits : Fits rules Good committed owner index tx) (good : Good committed) {row : Row}
    (ready : tx.phase = .filled row)
    (unique : ∀ other ∈ committed ++ tx.written, ¬rules.clash row other)
    : ∀ rows, tx.snapshot = some rows → rows = committed := by
  intro rows taken
  obtain ⟨more, whole⟩ := fits.earlier rows taken
  by_cases wrote : tx.written = []
  · by_contra older
    have missed : more ≠ [] := by
      intro none
      rw [none, List.append_nil] at whole
      exact older whole
    obtain ⟨draft, made⟩ := fits.filled row ready
    rw [Transaction.view, taken, wrote, Option.getD_some, List.append_nil] at made
    rw [← whole] at good
    obtain ⟨other, present, clashes⟩ := serial.outdated good missed made
    refine unique other ?_ clashes
    rw [← whole]
    exact List.mem_append_left _ (List.mem_append_right _ present)
  · exact fits.current wrote rows taken

theorem Fits.store (serial : Serial rules Good)
    (fits : Fits rules Good committed owner index tx) (good : Good committed) {row : Row}
    (ready : tx.phase = .filled row)
    (unique : ∀ other ∈ committed ++ tx.written, ¬rules.clash row other)
    : Fits rules Good committed owner index
        { tx with written := tx.written ++ [row], phase := .idle } := by
  have current := fits.view_current serial good ready unique
  have whole : tx.view committed = committed ++ tx.written := by
    rw [Transaction.view]
    cases taken : tx.snapshot with
    | none => rfl
    | some rows => rw [current rows taken, Option.getD_some]
  obtain ⟨draft, made⟩ := fits.filled row ready
  rw [whole] at made
  have owns := fits.owns (Or.inr (Or.inr ⟨row, ready⟩))
  refine ⟨fits.earlier, fun _ => owns, fun _ => current, ?_, nofun⟩
  rw [← List.append_assoc]
  exact serial.grows fits.good made

end Own

-----------------------------------------------------------------------------------------
-- The invariant over whole runs
-----------------------------------------------------------------------------------------

theorem Sound.start {committed : List Row} (good : Good committed)
    : Sound rules Good (.start committed) := by
  refine ⟨good, ?_⟩
  intro index tx found
  rw [State.start, List.getElem?_nil] at found
  cases found

/-- Every step keeps the table in good order, by cases on the step. -/
theorem Sound.step (serial : Serial rules Good) {state next : State Draft Row}
    (sound : Sound rules Good state) (moved : Step rules state next)
    : Sound rules Good next := by
  cases moved with
  | begin isolation =>
      refine ⟨sound.good, ?_⟩
      intro index tx found
      rcases lt_or_ge index state.transactions.length with before | after
      · rw [List.getElem?_append_left before] at found
        exact sound.fits index tx found
      · rw [List.getElem?_append_right after] at found
        have new := List.mem_of_getElem? found
        rw [List.mem_singleton] at new
        rw [new]
        exact fits_start sound.good isolation
  | query found idle => exact sound.put found ((sound.fits _ _ found).query idle)
  | insert found idle draft =>
      have fits := (sound.fits _ _ found).query idle
      refine sound.put found (fits.setPhase ?_ nofun)
      intro held
      rcases held with wrote | ⟨_, locked⟩
      · exact fits.owns (Or.inl wrote)
      · cases locked
  | @lock index tx draft found waits free =>
      have fits := sound.fits _ _ found
      refine sound.move found (List.prefix_refl _) sound.good ?_ ?_
      · refine ⟨fits.earlier, fun _ => rfl, fits.current, fits.good, nofun⟩
      · intro index' other at_ apart engaged
        have owns := (sound.fits index' other at_).owns engaged
        rcases free with free | free
        · rw [owns] at free
          cases free
        · rw [owns] at free
          exact absurd (Option.some.inj free) apart
  | fill found ready made =>
      have fits := sound.fits _ _ found
      have owns := fits.owns (Or.inr (Or.inl ⟨_, ready⟩))
      refine sound.put found ⟨fits.earlier, fun _ => owns, fits.current, fits.good, ?_⟩
      intro row filled
      cases filled
      exact ⟨_, made⟩
  | raise found ready made =>
      have fits := sound.fits _ _ found
      have owns := fits.owns (Or.inr (Or.inl ⟨_, ready⟩))
      exact sound.put found (fits.setPhase (fun _ => owns) nofun)
  | store found ready unique alone =>
      exact sound.put found ((sound.fits _ _ found).store serial sound.good ready unique)
  | refuse found ready present clashes =>
      have fits := sound.fits _ _ found
      have owns := fits.owns (Or.inr (Or.inr ⟨_, ready⟩))
      exact sound.put found (fits.setPhase (fun _ => owns) nofun)
  | @commit index tx found idle =>
      have fits := sound.fits _ _ found
      have grown : state.committed <+: state.committed ++ tx.written := List.prefix_append _ _
      refine sound.move found grown fits.good ?_ ?_
      · exact fits_close fits.good (fun rows taken => (fits.earlier rows taken).trans grown)
      · intro index' other at_ apart engaged
        refine ⟨sound.kept_release at_ apart engaged, ?_⟩
        -- who commits rows is the one engaged, and that is another transaction
        by_cases wrote : tx.written = []
        · rw [wrote, List.append_nil]
        · exact absurd (sound.alone found at_ (Or.inl wrote) engaged) apart
  | rollback found =>
      have fits := sound.fits _ _ found
      refine sound.move found (List.prefix_refl _) sound.good ?_ ?_
      · exact fits_close sound.good fits.earlier
      · intro index' other at_ apart engaged
        exact ⟨sound.kept_release at_ apart engaged, rfl⟩
  | @rollbackTo index tx kept dropped owner found going split lock =>
      have fits := sound.fits _ _ found
      have wrote : kept ≠ [] → tx.written ≠ [] := by
        intro some
        rw [split]
        exact List.append_ne_nil_of_left_ne_nil some dropped
      refine sound.move found (List.prefix_refl _) sound.good ⟨fits.earlier, ?_, ?_, ?_, nofun⟩ ?_
      · intro engaged
        rcases engaged with some | ⟨_, locked⟩ | ⟨_, ready⟩
        · rcases lock with same | ⟨none, _⟩
          · rw [same]
            exact fits.owns (Or.inl (wrote some))
          · exact absurd none some
        · cases locked
        · cases ready
      · intro some
        exact fits.current (wrote some)
      · have good := fits.good
        rw [split, ← List.append_assoc] at good
        exact serial.shrinks good
      · intro index' other at_ apart engaged
        refine ⟨?_, rfl⟩
        rcases lock with same | ⟨_, released⟩
        · rw [same]
          exact (sound.fits index' other at_).owns engaged
        · rw [released]
          exact sound.kept_release at_ apart engaged

/-- Whatever the interleaving, the committed table stays in good order. -/
theorem run_good (serial : Serial rules Good) {committed : List Row} {state : State Draft Row}
    (good : Good committed) (run : Run rules (.start committed) state)
    : Good state.committed := by
  have sound : Sound rules Good state := by
    induction run with
    | refl => exact Sound.start good
    | tail _ moved ih => exact ih.step serial moved
  exact sound.good

/-- A transaction that nobody disturbs commits its row, whatever its isolation level. -/
theorem run_alone (isolation : Isolation) {committed : List Row} {draft : Draft} {row : Row}
    (made : rules.trigger committed draft = some row)
    (unique : ∀ other ∈ committed, ¬rules.clash row other)
    : ∃ state, state.committed = committed ++ [row] ∧ Run rules (.start committed) state := by
  let tx : Transaction Draft Row := (Transaction.start isolation).query committed
  have written : tx.written = [] := by
    cases isolation <;> rfl
  have view : tx.view committed = committed := by
    cases isolation <;> exact List.append_nil committed
  have begun : Step rules (.start committed) ⟨committed, [.start isolation], none⟩ :=
    .begin isolation
  have inserts : Step rules ⟨committed, [.start isolation], none⟩
      ⟨committed, [{ tx with phase := .waiting draft }], none⟩ :=
    @Step.insert _ _ _ _ 0 (.start isolation) rfl rfl draft
  have locks : Step rules ⟨committed, [{ tx with phase := .waiting draft }], none⟩
      ⟨committed, [{ tx with phase := .locked draft }], some 0⟩ :=
    @Step.lock _ _ _ _ 0 { tx with phase := .waiting draft } _ rfl rfl (Or.inl rfl)
  have fills : Step rules ⟨committed, [{ tx with phase := .locked draft }], some 0⟩
      ⟨committed, [{ tx with phase := .filled row }], some 0⟩ := by
    rw [← view] at made
    exact @Step.fill _ _ _ _ 0 { tx with phase := .locked draft } _ _ rfl rfl made
  have stores : Step rules ⟨committed, [{ tx with phase := .filled row }], some 0⟩
      ⟨committed, [{ tx with written := tx.written ++ [row], phase := .idle }], some 0⟩ := by
    refine @Step.store _ _ _ _ 0 { tx with phase := .filled row } _ rfl rfl ?_ ?_
    · intro other present
      rw [written, List.append_nil] at present
      exact unique other present
    · intro index' tx' found apart
      cases index' with
      | zero => exact absurd rfl apart
      | succ index' => cases found
  have commits : Step rules
      ⟨committed, [{ tx with written := tx.written ++ [row], phase := .idle }], some 0⟩
      ⟨committed ++ (tx.written ++ [row]), [tx.close], none⟩ :=
    @Step.commit _ _ _ _ 0 { tx with written := tx.written ++ [row], phase := .idle } rfl rfl
  refine ⟨_, ?_,
    ((((Relation.ReflTransGen.single begun).tail inserts |>.tail locks).tail fills).tail stores).tail
      commits⟩
  rw [written, List.nil_append]

end Transactions
