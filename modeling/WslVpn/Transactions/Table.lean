import Mathlib.Data.List.Infix
import Mathlib.Logic.Relation

/-! Concurrent transactions that append to one table. A trigger completes each new row from the rows
it sees, under a lock that is held until the transaction ends.
-/

namespace Transactions

inductive Isolation where
  | readUncommitted
  | readCommitted
  | repeatableRead
  | serializable
  deriving DecidableEq

/-- All statements of the transaction see the rows of one snapshot. -/
def Isolation.keepsSnapshot : Isolation → Bool
  | readUncommitted | readCommitted => false
  | repeatableRead | serializable => true

/-- Where a transaction stands with the row that it inserts. -/
inductive Phase (Draft Row : Type) where
  | idle
  | waiting (draft : Draft)
  | locked (draft : Draft)
  | filled (row : Row)
  | failed
  | ended

/-- A transaction, with the rows that it has written and not committed yet. -/
structure Transaction (Draft Row : Type) where
  isolation : Isolation
  snapshot : Option (List Row)
  written : List Row
  phase : Phase Draft Row

/-- The table with its transactions, in the order in which they began. -/
structure State (Draft Row : Type) where
  committed : List Row
  transactions : List (Transaction Draft Row)
  owner : Option Nat

/-- What the table lays down: the trigger, and which rows a unique index keeps apart. -/
structure Rules (Draft Row : Type) where
  trigger : List Row → Draft → Option Row
  clash : Row → Row → Prop

variable {Draft Row : Type}

namespace Transaction

def start (isolation : Isolation) : Transaction Draft Row := ⟨isolation, none, [], .idle⟩

/-- The first statement takes the snapshot, at the levels that keep one. -/
def query (tx : Transaction Draft Row) (committed : List Row) : Transaction Draft Row :=
  if tx.isolation.keepsSnapshot && tx.snapshot.isNone then { tx with snapshot := some committed }
  else tx

/-- The rows that a statement of the transaction sees, its own ones included. -/
def view (tx : Transaction Draft Row) (committed : List Row) : List Row :=
  tx.snapshot.getD committed ++ tx.written

def close (tx : Transaction Draft Row) : Transaction Draft Row :=
  { tx with written := [], phase := .ended }

end Transaction

namespace State

def start (committed : List Row) : State Draft Row := ⟨committed, [], none⟩

/-- The transaction moves on, and the rest stays. -/
def put (state : State Draft Row) (index : Nat) (tx : Transaction Draft Row) : State Draft Row :=
  { state with transactions := state.transactions.set index tx }

/-- The end of a transaction gives its lock back. -/
def release (owner : Option Nat) (index : Nat) : Option Nat :=
  if owner = some index then none else owner

end State

/-- One step of one transaction. A statement that fails leaves the transaction nothing but to roll
back, altogether or to a savepoint, which it may do at any other time as well.
-/
inductive Step (rules : Rules Draft Row) : State Draft Row → State Draft Row → Prop
  | begin {state : State Draft Row} (isolation : Isolation)
    : Step rules state
        { state with transactions := state.transactions ++ [.start isolation] }
  | query {state : State Draft Row} {index tx} (found : state.transactions[index]? = some tx)
    (idle : tx.phase = .idle)
    : Step rules state (state.put index (tx.query state.committed))
  | insert {state : State Draft Row} {index tx} (found : state.transactions[index]? = some tx)
    (idle : tx.phase = .idle) (draft : Draft)
    : Step rules state
        (state.put index { tx.query state.committed with phase := .waiting draft })
  | lock {state : State Draft Row} {index tx draft}
    (found : state.transactions[index]? = some tx) (waits : tx.phase = .waiting draft)
    (free : state.owner = none ∨ state.owner = some index)
    : Step rules state
        { state.put index { tx with phase := .locked draft } with owner := some index }
  | fill {state : State Draft Row} {index tx draft row}
    (found : state.transactions[index]? = some tx) (ready : tx.phase = .locked draft)
    (made : rules.trigger (tx.view state.committed) draft = some row)
    : Step rules state (state.put index { tx with phase := .filled row })
  | raise {state : State Draft Row} {index tx draft}
    (found : state.transactions[index]? = some tx) (ready : tx.phase = .locked draft)
    (made : rules.trigger (tx.view state.committed) draft = none)
    : Step rules state (state.put index { tx with phase := .failed })
  | store {state : State Draft Row} {index tx row}
    (found : state.transactions[index]? = some tx) (ready : tx.phase = .filled row)
    (unique : ∀ other ∈ state.committed ++ tx.written, ¬rules.clash row other)
    (alone
      : ∀ index' tx', state.transactions[index']? = some tx' → index' ≠ index
          → ∀ other ∈ tx'.written, ¬rules.clash row other)
    : Step rules state (state.put index { tx with written := tx.written ++ [row], phase := .idle })
  | refuse {state : State Draft Row} {index tx row other}
    (found : state.transactions[index]? = some tx) (ready : tx.phase = .filled row)
    (present : other ∈ state.committed ++ tx.written) (clashes : rules.clash row other)
    : Step rules state (state.put index { tx with phase := .failed })
  | commit {state : State Draft Row} {index tx} (found : state.transactions[index]? = some tx)
    (idle : tx.phase = .idle)
    : Step rules state
        { state.put index tx.close with
          committed := state.committed ++ tx.written
          owner := State.release state.owner index }
  | rollback {state : State Draft Row} {index tx} (found : state.transactions[index]? = some tx)
    : Step rules state
        { state.put index tx.close with owner := State.release state.owner index }
  | rollbackTo {state : State Draft Row} {index tx kept dropped owner}
    (found : state.transactions[index]? = some tx) (going : tx.phase ≠ .ended)
    (split : tx.written = kept ++ dropped)
    -- a lock that was taken after the savepoint is given back
    (lock : owner = state.owner ∨ (kept = [] ∧ owner = State.release state.owner index))
    : Step rules state
        { state.put index { tx with written := kept, phase := .idle } with owner := owner }

/-- Any number of steps, of whichever transactions. -/
def Run (rules : Rules Draft Row) : State Draft Row → State Draft Row → Prop :=
  Relation.ReflTransGen (Step rules)

end Transactions
