import Mathlib.Order.Nat
import WslVpn.Interleaving.Contracts

/-! A cache in front of a source that is slow and may fail, with any number of callers at once.
A caller that misses asks the source and puts into the cache what it has been answered; until it does,
others may ask and put as well.
-/

namespace Interleaving.Caches

-----------------------------------------------------------------------------------------
-- The cache
-----------------------------------------------------------------------------------------

structure Cached (Value : Type) where
  value : Value
  fetchedAt : Nat

/-- A document that a source has answered with. -/
structure Served (Source Document : Type) where
  source : Source
  document : Document
  time : Nat

/-- A value that was put into the cache. -/
structure Inserted (Key Value : Type) where
  key : Key
  value : Value
  time : Nat

structure World (Key Source Document Value Fault : Type) where
  now : Nat
  /-- What each source answers at the moment. -/
  publishes : Source → Except Fault Document
  cache : Key → Option (Cached Value)
  /-- Everything that has been answered, and everything that has been put into the cache, so far. -/
  served : List (Served Source Document)
  inserted : List (Inserted Key Value)

inductive Op (Key Source Value : Type) where
  | read (key : Key)
  | clock
  | get (source : Source)
  | insert (key : Key) (value : Value)

inductive Change (Source Document Fault : Type) where
  | passes (time : Nat)
  | publishes (source : Source) (answer : Except Fault Document)

section Signature

variable {Key Source Document Value Fault Error : Type}

abbrev Op.Reply (Document : Type) : Op Key Source Value → Type
  | .read _ => Option (Cached Value)
  | .clock => Nat
  | .get _ => Document
  | .insert _ _ => Unit

variable [DecidableEq Key]

def World.put (world : World Key Source Document Value Fault) (key : Key) (value : Value)
    : World Key Source Document Value Fault :=
  { world with
    cache := fun other => if other = key then some ⟨value, world.now⟩ else world.cache other
    inserted := world.inserted ++ [⟨key, value, world.now⟩] }

def exec : (op : Op Key Source Value) → World Key Source Document Value Fault
    → Except Fault (op.Reply Document × World Key Source Document Value Fault)
  | .read key, world => .ok (world.cache key, world)
  | .clock, world => .ok (world.now, world)
  | .get source, world =>
      match world.publishes source with
      | .error fault => .error fault
      | .ok document =>
          .ok (document, { world with served := world.served ++ [⟨source, document, world.now⟩] })
  | .insert key value, world => .ok ((), world.put key value)

/-- The operations on one cache. A caller that is lost never gets an answer. -/
def signature (Key Source Document Value : Type) [DecidableEq Key] {Fault : Type} (lost : Fault)
    : Signature (World Key Source Document Value Fault) Fault where
  Op := Op Key Source Value
  Reply := Op.Reply Document
  exec := exec
  lost := lost

def Change.effect [DecidableEq Source] : Change Source Document Fault
    → World Key Source Document Value Fault → World Key Source Document Value Fault
  | .passes time, world => { world with now := world.now + time }
  | .publishes source answer, world =>
      { world with
        publishes := fun other => if other = source then answer else world.publishes other }

variable {lost : Fault} (convert : Fault → Error)

/-- One operation on the cache, or on a source. -/
abbrev ask (op : Op Key Source Value)
    : Program (signature Key Source Document Value lost) Error (op.Reply Document) :=
  @Program.request _ _ _ (signature Key Source Document Value lost) convert op

/-- Put what has come of an answer into the cache. -/
def store (key : Key) : Except Error Value → Program (signature Key Source Document Value lost) Error Value
  | .error error => throw error
  | .ok value => do
      let () ← ask convert (.insert key value)
      pure value

/-- Ask the source, and put what it comes to into the cache. -/
def refresh (key : Key) (source : Source) (accept : Document → Except Error Value)
    : Program (signature Key Source Document Value lost) Error Value := do
  let document ← ask convert (.get source)
  store convert key (accept document)

/-- Reuse the value of the cache for as long as it lasts. -/
def readThrough (key : Key) (lasts : Value → Option Nat) (source : Source)
    (accept : Document → Except Error Value)
    : Program (signature Key Source Document Value lost) Error Value := do
  let hit ← ask convert (.read key)
  match hit with
  | none => refresh convert key source accept
  | some cached =>
      match lasts cached.value with
      | none => pure cached.value
      | some span => do
          let now : Nat ← ask convert .clock
          if now - cached.fetchedAt < span then pure cached.value
          else refresh convert key source accept

end Signature

-----------------------------------------------------------------------------------------
-- Where values come from
-----------------------------------------------------------------------------------------

section Provenance

variable {Key Source Document Value Fault Error : Type}
  {vouches : Key → Value → Served Source Document → Prop}
  {world after : World Key Source Document Value Fault} {lost : Fault}

/-- The document was answered by then, and it is one that the value of the key comes from. -/
def Answered (vouches : Key → Value → Served Source Document → Prop)
    (world : World Key Source Document Value Fault) (key : Key) (value : Value) (time : Nat)
    : Prop :=
  ∃ served ∈ world.served, vouches key value served ∧ served.time ≤ time

/-- Everything in the cache was put there, and everything that was put there had been answered. -/
structure Backed (vouches : Key → Value → Served Source Document → Prop)
    (world : World Key Source Document Value Fault)
    : Prop where
  served : ∀ served ∈ world.served, served.time ≤ world.now
  inserted
    : ∀ inserted ∈ world.inserted, inserted.time ≤ world.now
        ∧ Answered vouches world inserted.key inserted.value inserted.time
  cache
    : ∀ key cached, world.cache key = some cached →
        ⟨key, cached.value, cached.fetchedAt⟩ ∈ world.inserted

/-- Time goes on, and what has happened has happened. -/
structure Later (world after : World Key Source Document Value Fault) : Prop where
  now : world.now ≤ after.now
  served : world.served ⊆ after.served
  inserted : world.inserted ⊆ after.inserted

theorem Later.refl (world : World Key Source Document Value Fault) : Later world world where
  now := le_rfl
  served := List.Subset.refl _
  inserted := List.Subset.refl _

theorem Later.trans {last : World Key Source Document Value Fault} (first : Later world after)
    (second : Later after last) : Later world last where
  now := first.now.trans second.now
  served := List.Subset.trans first.served second.served
  inserted := List.Subset.trans first.inserted second.inserted

theorem Answered.later {key : Key} {value : Value} {time : Nat}
    (answered : Answered vouches world key value time) (later : Later world after)
    : Answered vouches after key value time := by
  obtain ⟨served, member, vouched, before⟩ := answered
  exact ⟨served, later.served member, vouched, before⟩

/-- The value was answered since the time, or it had been in the cache for no longer than it lasts. -/
def Current (vouches : Key → Value → Served Source Document → Prop) (since : Nat) (key : Key)
    (lasts : Value → Option Nat) (value : Value) (world : World Key Source Document Value Fault)
    : Prop :=
  (∃ served ∈ world.served, vouches key value served ∧ since ≤ served.time)
  ∨ ∃ time, ⟨key, value, time⟩ ∈ world.inserted ∧ Answered vouches world key value time
    ∧ ∀ span, lasts value = some span → since < time + span

/-- Another account of where the value comes from. -/
theorem Current.vouched {other : Key → Value → Served Source Document → Prop} {since : Nat} {key : Key}
    {lasts : Value → Option Nat} {value : Value}
    (current : Current vouches since key lasts value world)
    (implies : ∀ served, vouches key value served → other key value served)
    : Current other since key lasts value world := by
  refine current.imp ?_ ?_
  · rintro ⟨served, member, vouched, since⟩
    exact ⟨served, member, implies served vouched, since⟩
  · rintro ⟨time, member, ⟨served, there, vouched, before⟩, fresh⟩
    exact ⟨time, member, ⟨served, there, implies served vouched, before⟩, fresh⟩

theorem Current.later {since : Nat} {key : Key} {lasts : Value → Option Nat} {value : Value}
    (current : Current vouches since key lasts value world) (later : Later world after)
    : Current vouches since key lasts value after := by
  refine current.imp ?_ ?_
  · rintro ⟨served, member, rest⟩
    exact ⟨served, later.served member, rest⟩
  · rintro ⟨time, member, answered, fresh⟩
    exact ⟨time, later.inserted member, answered.later later, fresh⟩

theorem effect_backed [DecidableEq Source] (change : Change Source Document Fault)
    (backed : Backed vouches world)
    : Backed vouches (change.effect world) ∧ Later world (change.effect world) := by
  cases change with
  | passes time =>
      have later : Later world ((Change.passes time : Change Source Document Fault).effect world) :=
        ⟨Nat.le_add_right _ _, List.Subset.refl _, List.Subset.refl _⟩
      refine ⟨⟨?_, ?_, backed.cache⟩, later⟩
      · exact fun served member => (backed.served served member).trans later.now
      · intro inserted member
        obtain ⟨past, answered⟩ := backed.inserted inserted member
        exact ⟨past.trans later.now, answered.later later⟩
  | publishes source answer =>
      exact ⟨⟨backed.served, backed.inserted, backed.cache⟩, le_rfl, List.Subset.refl _,
        List.Subset.refl _⟩

variable [DecidableEq Key]

/-- Nobody puts anything into the cache that has not been answered. -/
def promises (vouches : Key → Value → Served Source Document → Prop)
    : Op Key Source Value → World Key Source Document Value Fault → Prop
  | .insert key value, world => Answered vouches world key value world.now
  | _, _ => True

theorem exec_backed {op : Op Key Source Value} {reply : op.Reply Document}
    (backed : Backed vouches world) (promised : promises vouches op world)
    (ran : exec op world = .ok (reply, after))
    : Backed vouches after ∧ Later world after := by
  cases op with
  | read key =>
      cases ran
      exact ⟨backed, .refl _⟩
  | clock =>
      cases ran
      exact ⟨backed, .refl _⟩
  | get source =>
      rw [exec] at ran
      cases published : world.publishes source with
      | error fault =>
          rw [published] at ran
          cases ran
      | ok document =>
          rw [published] at ran
          cases ran
          have later : Later world { world with
              served := world.served ++ [⟨source, reply, world.now⟩] } :=
            ⟨le_rfl, List.subset_append_left _ _, List.Subset.refl _⟩
          refine ⟨⟨?_, fun inserted member => ?_, backed.cache⟩, later⟩
          · exact List.forall_mem_append.mpr ⟨backed.served, by simp⟩
          · obtain ⟨past, answered⟩ := backed.inserted inserted member
            exact ⟨past, answered.later later⟩
  | insert key value =>
      cases ran
      have later : Later world (world.put key value) :=
        ⟨le_rfl, List.Subset.refl _, List.subset_append_left _ _⟩
      refine ⟨⟨backed.served, ?_, ?_⟩, later⟩
      · refine List.forall_mem_append.mpr ⟨fun inserted member => ?_, ?_⟩
        · obtain ⟨past, answered⟩ := backed.inserted inserted member
          exact ⟨past, answered.later later⟩
        · exact List.forall_mem_singleton.mpr ⟨le_rfl, Answered.later promised later⟩
      · intro other cached found
        simp only [World.put] at found
        split at found
        · next same =>
            cases found
            rw [same]
            exact List.mem_append_right _ (List.mem_singleton_self _)
        · exact List.mem_append_left _ (backed.cache other cached found)

/-- Callers may come and go as they like. -/
def provenance (vouches : Key → Value → Served Source Document → Prop) (lost : Fault)
    : Contract (signature Key Source Document Value lost) where
  possible := Backed vouches
  later _ := Later
  may _ _ := True
  mayLose _ _ := True
  asserts _ := promises vouches
  later_refl _ := Later.refl
  later_trans := Later.trans
  exec_sound backed _ promised ran :=
    ⟨(exec_backed backed promised ran).1, fun _ _ => (exec_backed backed promised ran).2⟩

-----------------------------------------------------------------------------------------
-- What a caller is told
-----------------------------------------------------------------------------------------

variable {convert : Fault → Error} {key : Key} {source : Source} {lasts : Value → Option Nat}
  {accept : Document → Except Error Value} {call since : Nat}

/-- What is fetched is put into the cache as it was answered. -/
theorem refresh_keeps
    (accepts : ∀ document value time, accept document = .ok value →
      vouches key value ⟨source, document, time⟩)
    (early : since ≤ world.now)
    : (refresh convert key source accept : Program (signature Key Source Document Value lost) Error Value).Keeps
        (provenance vouches lost) call (Current vouches since key lasts) world := by
  refine Program.Keeps.request ?_
  intro now passed backed _
  refine ⟨trivial, fun document after ran served => ?_⟩
  have answered : (⟨source, document, now.now⟩ : Served Source Document) ∈ after.served
      ∧ after.now = now.now := by
    change exec (.get source) now = _ at ran
    rw [exec] at ran
    cases published : now.publishes source with
    | error fault =>
        rw [published] at ran
        cases ran
    | ok found =>
        rw [published] at ran
        cases ran
        exact ⟨List.mem_append_right _ (List.mem_singleton_self _), rfl⟩
  cases accepted : accept document with
  | error error => trivial
  | ok value =>
      have vouched := accepts document value now.now accepted
      refine Program.Keeps.request ?_
      intro now' passed' backed' _
      have member := passed'.served answered.1
      have inTime : now.now ≤ now'.now := answered.2 ▸ passed'.now
      refine ⟨⟨_, member, vouched, inTime⟩, fun _ after' ran' _ => ?_⟩
      intro last passed'' _
      refine Current.later (Or.inl ⟨_, ?_, vouched, early.trans passed.now⟩) passed''
      cases ran'
      exact member

/-- A caller is told what has just been answered, or what is in the cache and still lasts. -/
theorem readThrough_keeps
    (accepts : ∀ document value time, accept document = .ok value →
      vouches key value ⟨source, document, time⟩)
    (early : since ≤ world.now)
    : (readThrough convert key lasts source accept
        : Program (signature Key Source Document Value lost) Error Value).Keeps
        (provenance vouches lost) call (Current vouches since key lasts) world := by
  refine Program.Keeps.request ?_
  intro now passed backed _
  refine ⟨trivial, fun hit after ran _ => ?_⟩
  cases ran
  have early := early.trans passed.now
  cases found : now.cache key with
  | none => exact refresh_keeps accepts early
  | some cached =>
      have there := backed.cache key cached found
      have answered := (backed.inserted _ there).2
      cases spans : lasts cached.value with
      | none =>
          simp only [spans]
          intro last passed' _
          refine Current.later (Or.inr ⟨_, there, answered, fun span lasting => ?_⟩) passed'
          rw [spans] at lasting
          cases lasting
      | some span =>
          simp only [spans]
          refine Program.Keeps.request ?_
          intro now' passed' backed' _
          refine ⟨trivial, fun clock after ran _ => ?_⟩
          cases ran
          have early := early.trans passed'.now
          split
          · next young =>
              intro last passed'' _
              refine Current.later (Or.inr ⟨_, passed'.inserted there, answered.later passed', ?_⟩) passed''
              intro span' lasting
              rw [spans] at lasting
              cases lasting
              have old := (backed'.inserted _ (passed'.inserted there)).1
              dsimp only at old
              omega
          · exact refresh_keeps accepts early

/-- By induction on the events. -/
theorem admits_all [DecidableEq Source]
    {system : System (signature Key Source Document Value lost) Error Value}
    {events : List (Event (Change Source Document Fault))}
    : system.Meets Change.effect (System.Admits (provenance vouches lost)) events := by
  induction events generalizing system with
  | nil => trivial
  | cons event rest ih =>
      refine ⟨?_, ih⟩
      cases event with
      | run call => exact fun _ _ _ => trivial
      | lose call => exact fun _ _ _ => trivial
      | env change => trivial

theorem kept_run [DecidableEq Source] {post : Nat → Value → World Key Source Document Value Fault → Prop}
    {system : System (signature Key Source Document Value lost) Error Value}
    (kept : system.Kept (provenance vouches lost) post)
    (events : List (Event (Change Source Document Fault)))
    : (system.run Change.effect events).Kept (provenance vouches lost) post :=
  kept.run
    (fun change _ backed => ⟨(effect_backed change backed).1, fun _ => (effect_backed change backed).2⟩)
    admits_all

end Provenance

-----------------------------------------------------------------------------------------
-- Any number of callers
-----------------------------------------------------------------------------------------

section Callers

variable {Key Source Document Value Fault Error : Type}

/-- One caller's way of reading through the cache. -/
structure Caller (Key Source Document Value Error : Type) where
  key : Key
  lasts : Value → Option Nat
  source : Source
  accept : Document → Except Error Value

/-- Nothing has been fetched yet. -/
structure Cold (world : World Key Source Document Value Fault) : Prop where
  cache : ∀ key, world.cache key = none
  served : world.served = []
  inserted : world.inserted = []

/-- The value is what one of the callers accepts, who asks for this key, of what the source answered. -/
def Accepted (callers : List (Caller Key Source Document Value Error)) (key : Key) (value : Value)
    (served : Served Source Document)
    : Prop :=
  ∃ caller ∈ callers, caller.key = key ∧ caller.source = served.source
    ∧ caller.accept served.document = .ok value

theorem Cold.backed {world : World Key Source Document Value Fault}
    {vouches : Key → Value → Served Source Document → Prop} (cold : Cold world)
    : Backed vouches world where
  served served member := by
    rw [cold.served] at member
    cases member
  inserted inserted member := by
    rw [cold.inserted] at member
    cases member
  cache key cached found := by
    rw [cold.cache key] at found
    cases found

variable [DecidableEq Key] [DecidableEq Source] {lost : Fault} {convert : Fault → Error}
  {callers : List (Caller Key Source Document Value Error)}

def Caller.program (caller : Caller Key Source Document Value Error) (convert : Fault → Error)
    : Program (signature Key Source Document Value lost) Error Value :=
  readThrough convert caller.key caller.lasts caller.source caller.accept

/-- Callers that share a cache in which there is nothing yet. -/
def start (lost : Fault) (convert : Fault → Error) (callers : List (Caller Key Source Document Value Error))
    (world : World Key Source Document Value Fault)
    : System (signature Key Source Document Value lost) Error Value where
  state := world
  calls := callers.map (fun caller => caller.program convert)

/-- Whoever else asks or puts, is lost or comes late: what a caller is told was accepted for its own key,
and since it began it is no older than the cache allows.
-/
theorem callers_current {world : World Key Source Document Value Fault} (cold : Cold world)
    {index : Nat} {caller : Caller Key Source Document Value Error}
    (made : callers[index]? = some caller)
    {before after : List (Event (Change Source Document Fault))} {value : Value}
    (begins
      : ((start lost convert callers world).run Change.effect before).calls[index]?
        = some (caller.program convert))
    (answered
      : ((start lost convert callers world).run Change.effect (before ++ after)).calls[index]?
        = some (.done (.ok value)))
    : Current (Accepted callers)
        ((start lost convert callers world).run Change.effect before).state.now
        caller.key caller.lasts value
        ((start lost convert callers world).run Change.effect (before ++ after)).state := by
  have accepts {caller : Caller Key Source Document Value Error} (member : caller ∈ callers)
      (document : Document) (value : Value) (time : Nat) (accepted : caller.accept document = .ok value)
      : Accepted callers caller.key value ⟨caller.source, document, time⟩ :=
    ⟨caller, member, rfl, rfl, accepted⟩
  have warm : (start lost convert callers world).Kept (provenance (Accepted callers) lost)
      (fun _ _ _ => True) := by
    refine ⟨cold.backed, fun other program found => ?_⟩
    rw [start, List.getElem?_map] at found
    obtain ⟨caller, there, rfl⟩ := Option.map_eq_some_iff.mp found
    exact (readThrough_keeps (accepts (List.mem_of_getElem? there)) le_rfl).mono (fun _ _ _ => trivial)
  have kept := kept_run warm before
  have here : ((start lost convert callers world).run Change.effect before).Kept
      (provenance (Accepted callers) lost)
      (fun other value now => other = index → Current (Accepted callers)
        ((start lost convert callers world).run Change.effect before).state.now
        caller.key caller.lasts value now) := by
    refine ⟨kept.possible, fun other program found => ?_⟩
    by_cases same : other = index
    · subst same
      rw [begins] at found
      cases found
      exact (readThrough_keeps (accepts (List.mem_of_getElem? made)) le_rfl).mono
        (fun _ _ current _ => current)
    · exact (kept.calls other program found).mono (fun _ _ _ is => absurd is same)
  rw [System.run_append] at answered ⊢
  exact (kept_run here after).answered answered rfl

end Callers

end Interleaving.Caches
