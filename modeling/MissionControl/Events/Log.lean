import MissionControl.Relational.Table
import MissionControl.Transition.Run

/-! # The events of a run

Events are recorded in transactions that run concurrently, and each gets the next sequence
number of its run. On PostgreSQL the number comes from a counter, whose row is locked until the
transaction ends; on SQLite there is one writing transaction at a time, and the number is one
above the highest. Readers see what has been committed.

One step is one statement. A statement that has to wait for a lock is no step. -/

namespace Events

open Relational (Table)

variable {δ : Type}

inductive Backend where
  | sqlite
  | postgres
  deriving DecidableEq, Repr

/-- A row of `run_events`; `data` is what the caller wants recorded. -/
structure Row (δ : Type) where
  event_id : String
  run_id : String
  sequence : Nat
  data : δ
  deriving DecidableEq

/-- How far a transaction is with the event it records. -/
inductive Phase where
  | ready
  /-- The counter of the run is known to exist. -/
  | ensured (run_id : String)
  | allocated (run_id : String) (sequence : Nat)
  deriving DecidableEq

/-- An open transaction: the counters it has written, and holds the locks of, and the rows it
    has inserted. -/
structure Txn (δ : Type) where
  id : Nat
  counters : String → Option Nat := fun _ => none
  rows : List (Row δ) := []
  phase : Phase := .ready

/-- A reader: the run it follows, the last sequence it has seen and what it has received. -/
structure Reader (δ : Type) where
  run_id : String
  after_sequence : Int := -1
  received : List (Row δ) := []

/-- What is committed, oldest commit first, with the open transactions and the readers. -/
structure State (δ : Type) where
  counters : String → Option Nat := fun _ => none
  rows : List (Row δ) := []
  txns : Table (Txn δ) Nat Txn.id := .empty
  readers : List (Reader δ) := []

/-- The rows of a run. -/
def ofRun (run_id : String) (rows : List (Row δ)) : List (Row δ) := rows.filter (·.run_id = run_id)

/-! ## Sequences -/

/-- `COALESCE(MAX(sequence), -1) + 1` -/
def maxSequence (run_id : String) (rows : List (Row δ)) : Nat :=
  (ofRun run_id rows).foldl (fun n row => max n (row.sequence + 1)) 0

/-- The other transactions. -/
def State.others (s : State δ) (t : Txn δ) : List (Txn δ) := s.txns.rows.filter (·.id ≠ t.id)

/-- Whether another transaction has locked the counter of the run. -/
def State.locked (s : State δ) (t : Txn δ) (run_id : String) : Bool :=
  (s.others t).any fun t' => (t'.counters run_id).isSome

/-- The counter, as the transaction sees it. -/
def State.counter (s : State δ) (t : Txn δ) (run_id : String) : Option Nat :=
  (t.counters run_id).or (s.counters run_id)

/-- Go on with a new version of a transaction. -/
def State.going (s : State δ) (t : Txn δ) : State δ := { s with txns := s.txns.put t }

/-- The transaction is over. What it wrote is gone unless it has been committed. -/
def State.ended (s : State δ) (t : Txn δ) : State δ := { s with txns := s.txns.delete t.id }

/-- Write the counter of a run. -/
def Txn.counting (t : Txn δ) (run_id : String) (n : Nat) : String → Option Nat :=
  Function.update t.counters run_id (some n)

/-- `INSERT … (run_id, next_sequence) VALUES (?, 0) ON CONFLICT (run_id) DO NOTHING` -/
def State.ensure (s : State δ) (t : Txn δ) (run_id : String) : Option (State δ) :=
  if (s.counter t run_id).isSome then some (s.going { t with phase := .ensured run_id })
  else if s.locked t run_id then none
  else some (s.going { t with counters := t.counting run_id 0, phase := .ensured run_id })

/-- `UPDATE … SET next_sequence = next_sequence + 1 … RETURNING next_sequence - 1` -/
def State.increment (s : State δ) (t : Txn δ) (run_id : String) : Option (State δ) :=
  if s.locked t run_id then none
  else
    match s.counter t run_id with
    | some n => some (s.going { t with counters := t.counting run_id (n + 1), phase := .allocated run_id n })
    -- no row is returned: the caller fails, and the transaction is rolled back
    | none => some (s.ended t)

/-- Whether the row violates a unique constraint of the table, given these rows. -/
def Row.clashes (row : Row δ) (rows : List (Row δ)) : Bool :=
  rows.any fun row' => row'.event_id = row.event_id ∨
    row'.run_id = row.run_id ∧ row'.sequence = row.sequence

/-- The insertion of the event. One that may clash with a row of another transaction waits. -/
def State.insert (s : State δ) (t : Txn δ) (row : Row δ) : Option (State δ) :=
  if row.clashes (s.rows ++ t.rows) then some (s.ended t)
  else if (s.others t).any fun t' => row.clashes t'.rows then none
  else some (s.going { t with rows := t.rows ++ [row], phase := .ready })

def State.commit (s : State δ) (t : Txn δ) : State δ :=
  { s.ended t with
    counters := fun run_id => s.counter t run_id
    rows := s.rows ++ t.rows }

/-! ## Reading -/

/-- `max(1, min(limit, 5000))` -/
def bounded_limit (limit : Int) : Nat := (max 1 (min limit 5000)).toNat

/-- `SELECT … WHERE run_id = ? AND sequence > ? ORDER BY sequence ASC LIMIT ?` -/
def list_events_for_run (rows : List (Row δ)) (run_id : String) (after_sequence : Int) (limit : Int) :
    List (Row δ) :=
  (((ofRun run_id rows).filter fun row => after_sequence < row.sequence).mergeSort
    fun row row' => row.sequence ≤ row'.sequence).take (bounded_limit limit)

/-- A reader asks for what comes after the last sequence it has seen. -/
def Reader.read (reader : Reader δ) (rows : List (Row δ)) (limit : Int) : Reader δ :=
  let events := list_events_for_run rows reader.run_id reader.after_sequence limit
  { reader with
    after_sequence := ((events.getLast?).map fun row => (row.sequence : Int)).getD reader.after_sequence
    received := reader.received ++ events }

/-! ## Steps -/

inductive Event (δ : Type) where
  | begin (id : Nat)
  /-- The first statement of `_next_sequence` on PostgreSQL. -/
  | ensure (id : Nat) (run_id : String)
  /-- The statement that allocates the sequence. -/
  | next_sequence (id : Nat) (run_id : String)
  | insert (id : Nat) (event_id : String) (data : δ)
  | commit (id : Nat)
  /-- An exception, or a crash. -/
  | rollback (id : Nat)
  | follow (run_id : String)
  | read (reader : Nat) (limit : Int)

variable (backend : Backend)

/-- Allocate a sequence. -/
def State.next_sequence (s : State δ) (t : Txn δ) (run_id : String) : Option (State δ) :=
  match backend with
  | .postgres => if t.phase = .ensured run_id then s.increment t run_id else none
  | .sqlite =>
    if t.phase = .ready then
      some (s.going { t with phase := .allocated run_id (maxSequence run_id (s.rows ++ t.rows)) })
    else none

/-- A step of an open transaction, unless it cannot be taken now. -/
def State.within (s : State δ) (id : Nat) (act : Txn δ → Option (State δ)) : Option (State δ) :=
  (s.txns.find? id).bind act

def step (s : State δ) : Event δ → Option (State δ)
  | .begin id =>
    -- `BEGIN IMMEDIATE` waits for the one that writes
    if (s.txns.find? id).isSome ∨ backend = .sqlite ∧ s.txns.rows ≠ [] then none
    else some (s.going { id := id })
  | .ensure id run_id => s.within id fun t =>
    if backend = .postgres ∧ t.phase = .ready then s.ensure t run_id else none
  | .next_sequence id run_id => s.within id fun t => s.next_sequence backend t run_id
  | .insert id event_id data => s.within id fun t =>
    match t.phase with
    | .allocated run_id sequence => s.insert t ⟨event_id, run_id, sequence, data⟩
    | _ => none
  | .commit id => s.within id fun t => if t.phase = .ready then some (s.commit t) else none
  | .rollback id => s.within id fun t => some (s.ended t)
  | .follow run_id => some { s with readers := s.readers ++ [{ run_id := run_id }] }
  | .read reader limit =>
    (s.readers[reader]?).map fun r => { s with readers := s.readers.set reader (r.read s.rows limit) }

end Events
