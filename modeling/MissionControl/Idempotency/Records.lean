import MissionControl.Canonical.Value
import MissionControl.Interleaving.Pool
import MissionControl.Python.Text
import MissionControl.Relational.Table

/-! # Idempotency records

A client that repeats a request under its key is answered with the result of the
first execution. The record under `(scope, key)` says how far that execution has
come: `reserve_idempotency` creates it, `complete_idempotency` and
`fail_idempotency` settle it. All three address it by its key. -/

namespace Idempotency

open Canonical (Value)
open Interleaving (Interface Exec Program System)
open Python (blank)
open Relational (Table)

/-- A moment in microseconds. -/
abbrev Instant : Type := Int

def SECOND : Int := 1000000

inductive RecordStatus where
  | executing | completed | failed
  deriving DecidableEq

/-- A row of `idempotency_records`. -/
structure Record where
  scope : String
  key : String
  request_hash : String
  status : RecordStatus
  result : Option Value
  error : Option String
  attempt_count : Nat
  created_at : Instant
  updated_at : Instant
  expires_at : Instant

/-- The primary key. -/
def Record.id (r : Record) : String × String := (r.scope, r.key)

abbrev Records : Type := Table Record (String × String) Record.id

inductive ReservationState where
  | new | replay | in_progress | conflict
  deriving DecidableEq

/-- What `reserve_idempotency` returns. -/
structure Reservation where
  state : ReservationState
  record : Record

/-- What the calls and the programs may raise. `died` is no exception: the process
    that ran the request is gone, and nothing after it happens. -/
inductive Failure where
  | value (text : String)
  | mission (code : String)
  | exception (name : String)
  | died
  deriving DecidableEq

/-! ## The operations -/

/-- The record a first reservation creates. -/
def executing (now : Instant) (scope key request_hash : String) (ttl_seconds : Int) : Record where
  scope
  key
  request_hash
  status := .executing
  result := none
  error := none
  attempt_count := 1
  created_at := now
  updated_at := now
  expires_at := now + ttl_seconds * SECOND

/-- The record a failed one becomes when the request is tried again. -/
def revived (now : Instant) (ttl_seconds : Int) (r : Record) : Record :=
  { r with
    status := .executing
    result := none
    error := none
    attempt_count := r.attempt_count + 1
    updated_at := now
    expires_at := now + ttl_seconds * SECOND }

/-- `DELETE` of what there is under the key, and `INSERT`. -/
def replace (w : Records) (r : Record) : Records :=
  (w.delete r.id).insert r (by rw [Table.find?_delete, if_pos rfl])

/-- An expired record is deleted whatever its status, and a new one inserted. -/
def reserve_idempotency (w : Records) (now : Instant) (scope key request_hash : String)
    (ttl_seconds : Int) : Except Failure (Reservation × Records) :=
  if blank key then
    .error (.value "idempotency key must be non-empty")
  else if ttl_seconds ≤ 0 then
    .error (.value "ttl_seconds must be positive")
  else
    let row := (w.find? (scope, key)).filter fun record => ¬ record.expires_at ≤ now
    match row with
    | none =>
      let inserted := executing now scope key request_hash ttl_seconds
      .ok (⟨.new, inserted⟩, replace w inserted)
    | some record =>
      if record.request_hash ≠ request_hash then
        .ok (⟨.conflict, record⟩, w)
      else if record.status = .completed then
        .ok (⟨.replay, record⟩, w)
      else if record.status = .executing then
        .ok (⟨.in_progress, record⟩, w)
      else
        .ok (⟨.new, revived now ttl_seconds record⟩,
          w.update (scope, key) (revived now ttl_seconds) fun _ => rfl)

/-- `UPDATE .. WHERE scope = ? AND key = ? AND status = 'executing'`, and whether it
    changed the row. -/
def settle (w : Records) (scope key : String) (set : Record → Record)
    (h : ∀ r, (set r).id = r.id) : Bool × Records :=
  match w.find? (scope, key) with
  | none => (false, w)
  | some record =>
    if record.status = .executing then (true, w.update (scope, key) set h) else (false, w)

def complete_idempotency (w : Records) (now : Instant) (scope key : String) (result : Value) :
    Bool × Records :=
  settle w scope key
    (fun r => { r with status := .completed, result := some result, error := none, updated_at := now })
    fun _ => rfl

def fail_idempotency (w : Records) (now : Instant) (scope key error : String) : Bool × Records :=
  settle w scope key
    (fun r => { r with
      status := .failed, error := some (String.ofList (error.toList.take 500)), updated_at := now })
    fun _ => rfl

/-! ## Executions -/

inductive Call where
  | reserve_idempotency (scope key request_hash : String) (ttl_seconds : Int)
  | complete_idempotency (scope key : String) (result : Value)
  | fail_idempotency (scope key error : String)
  | run (body : Value)

abbrev Call.Resp : Call → Type
  | reserve_idempotency .. => Reservation
  | complete_idempotency .. | fail_idempotency .. => Bool
  | run _ => Value

abbrev IdempotencyCalls : Interface where
  Call := Call
  Resp := Call.Resp
  Err := Failure

/-- What the outside decides about a call: the clock, and how the request's own
    work ends. -/
structure Outcome where
  now : Instant
  ran : Except Failure Value

/-- What a call does. The work of the request touches other tables only. -/
def exec : Exec IdempotencyCalls Records Outcome := fun c o w =>
  match c with
  | .reserve_idempotency scope key request_hash ttl_seconds =>
    reserve_idempotency w o.now scope key request_hash ttl_seconds
  | .complete_idempotency scope key result => .ok (complete_idempotency w o.now scope key result)
  | .fail_idempotency scope key error => .ok (fail_idempotency w o.now scope key error)
  | .run _ => o.ran.map fun result => (result, w)

/-- Make one call. -/
abbrev ask (c : Call) : Program IdempotencyCalls (Call.Resp c) :=
  .perform (I := IdempotencyCalls) c

/-- The error recorded with a failed execution; nothing is recorded by a process
    that died. -/
def recorded : Failure → Option String
  | .mission code => some code
  | .exception name => some name
  | .value _ => some "ValueError"
  | .died => none

variable (hash_payload : Value → String)

/-- A request under an idempotency key. -/
def _idempotent (scope key : String) (body : Value) (ttl_seconds : Int) :
    Program IdempotencyCalls (Option Value) := do
  let reservation ← ask (.reserve_idempotency scope key (hash_payload body) ttl_seconds)
  match reservation.state with
  | .replay => pure reservation.record.result
  | .in_progress => throw (.mission "IDEMPOTENCY_IN_PROGRESS")
  | .conflict => throw (.mission "IDEMPOTENCY_CONFLICT")
  | .new =>
    match ← (ask (.run body)).attempt with
    | .error e =>
      match recorded e with
      | none => throw e
      | some error => do
        let _ ← ask (.fail_idempotency scope key error)
        throw e
    | .ok result => do
      let _ ← ask (.complete_idempotency scope key result)
      pure (some result)

/-- **Requests under idempotency keys**, any number of them at once, under any keys
    and with any clock readings. -/
def requests : System IdempotencyCalls Records Outcome where
  exec := exec
  Starts := fun p => ∃ scope key body ttl_seconds,
    p = (_idempotent hash_payload scope key body ttl_seconds).void
  Env := fun _ _ => False

end Idempotency
