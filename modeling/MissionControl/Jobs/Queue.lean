import MissionControl.Canonical.Value
import MissionControl.Interleaving.Pool
import MissionControl.Relational.Table
import Mathlib.Data.List.MinMax

/-! # The job queue

`amc_jobs` holds one row per job. A worker claims the oldest queued job under a
fresh token, works on it under a lease, and settles it with that token. Every
operation is one write transaction, so it is one call of the interface below; the
programs that workers run are arbitrary programs over these calls. -/

namespace Jobs

open Canonical (Value)
open Interleaving (Interface Exec Program)
open Relational (Table)

/-- A moment in microseconds. -/
abbrev Instant : Type := Int

def SECOND : Int := 1000000

def _VALID_JOB_KINDS : List String := ["agency.create", "agency.resume"]

inductive JobStatus where
  | queued | running | completed | failed | dead_letter | cancelled
  deriving DecidableEq

/-- What a call reads from outside the database: the clock, and two settings of
    the process environment as `int` reads them (`none` when unset or no number). -/
structure Ambient where
  now : Instant
  AMC_JOB_MAX_ATTEMPTS : Option Int
  AMC_JOB_LEASE_SECONDS : Option Int

def default_max_attempts (o : Ambient) : Int :=
  match o.AMC_JOB_MAX_ATTEMPTS with
  | none => 3
  | some value => max 1 (min value 20)

def default_lease_seconds (o : Ambient) : Int :=
  match o.AMC_JOB_LEASE_SECONDS with
  | none => 900
  | some value => max 30 (min value (24 * 60 * 60))

/-- Python's `x or y` for an optional number: zero and `None` are both false. -/
def orDefault (x : Option Int) (y : Int) : Int :=
  match x with
  | none => y
  | some x => if x = 0 then y else x

/-- A row of `amc_jobs`. -/
structure Job where
  job_id : Nat
  kind : String
  tenant_id : String
  project_id : String
  run_id : Option String
  status : JobStatus
  attempt_count : Nat
  max_attempts : Int
  payload : Value
  result : Option Value
  error : Option String
  claim_token : Option Nat
  lease_expires_at : Option Instant
  queued_at : Instant

/-- The table, and how many random identifiers were drawn: `secrets.token_hex`
    never repeats, so identifiers and tokens are numbered in the order drawn. -/
structure Queue where
  jobs : Table Job Nat Job.job_id
  issued : Nat
  below : ∀ r ∈ jobs, r.job_id < issued

namespace Queue

def empty : Queue := ⟨.empty, 0, fun _ h => absurd h (Table.not_mem_empty _)⟩

variable {p : Job → Bool} {set : Job → Job}

theorem update_key (h : ∀ r, (set r).job_id = r.job_id) (r : Job) : (if p r then set r else r).job_id = r.job_id := by
  split
  · exact h r
  · rfl

/-- `UPDATE amc_jobs SET .. WHERE ..`: the number of rows changed, and the table. -/
def update (w : Queue) (p : Job → Bool) (set : Job → Job) (h : ∀ r, (set r).job_id = r.job_id) :
    Nat × Queue where
  fst := (w.jobs.rows.filter p).length
  snd :=
    { w with
      jobs := w.jobs.modify (fun r => if p r then set r else r) (update_key h)
      below := by
        intro r' hr'
        obtain ⟨r, hr, rfl⟩ := (Table.mem_modify _).mp hr'
        rw [update_key h r]
        exact w.below r hr }

theorem find?_update {w : Queue} {h : ∀ r, (set r).job_id = r.job_id} {job_id : Nat} :
    (w.update p set h).2.jobs.find? job_id = (w.jobs.find? job_id).map fun r => if p r then set r else r :=
  Table.find?_modify _ _ (update_key h) _

/-- An update that answers `cursor.rowcount == 1`. -/
def updateOne (w : Queue) (p : Job → Bool) (set : Job → Job) (h : ∀ r, (set r).job_id = r.job_id) :
    Bool × Queue :=
  ((w.update p set h).1 = 1, (w.update p set h).2)

/-- Draw an identifier. -/
def draw (w : Queue) : Nat × Queue :=
  (w.issued, { w with issued := w.issued + 1, below := fun r hr => Nat.lt_succ_of_lt (w.below r hr) })

/-- `INSERT INTO amc_jobs` of a row with the identifier drawn for it. -/
def insert (w : Queue) (r : Job) (h : r.job_id = w.issued) : Queue where
  jobs := w.jobs.insert r <| Table.find?_eq_none.mpr fun r' hr' hid =>
    absurd (w.below r' hr') (by omega)
  issued := w.issued + 1
  below := by
    intro r' hr'
    rcases Table.mem_insert.mp hr' with hr' | rfl
    · exact Nat.lt_succ_of_lt (w.below r' hr')
    · omega

end Queue

/-! ## The calls -/

inductive FailOutcome where
  | not_fenced | dead_letter | queued
  deriving DecidableEq

inductive Call where
  | enqueue_job (kind tenant_id project_id : String) (payload : Value) (run_id : Option String)
      (max_attempts : Option Int)
  | get_job (job_id : Nat)
  | expire_stale_leases
  | claim_job (kind : Option String) (lease_seconds : Option Int)
  | renew_job_lease (job_id claim_token : Nat) (lease_seconds : Option Int)
  | complete_job (job_id claim_token : Nat) (result : Value)
  | fail_job (job_id claim_token : Nat) (error : String)
  | request_job_cancellation (job_id : Nat)

abbrev Call.Resp : Call → Type
  | enqueue_job .. => Nat
  | get_job _ | claim_job .. => Option Job
  | expire_stale_leases => List Nat
  | renew_job_lease .. | complete_job .. | request_job_cancellation _ => Bool
  | fail_job .. => FailOutcome

/-- The calls of the queue; the only error is the `ValueError` of an unknown kind. -/
abbrev QueueCalls : Interface where
  Call := Call
  Resp := Call.Resp
  Err := String

/-! ## The operations -/

/-- The row a new job starts as. -/
def newRow (job_id : Nat) (o : Ambient) (kind tenant_id project_id : String) (payload : Value)
    (run_id : Option String) (max_attempts : Option Int) : Job where
  job_id
  kind
  tenant_id
  project_id
  run_id
  status := .queued
  attempt_count := 0
  max_attempts := orDefault max_attempts (default_max_attempts o)
  payload
  result := none
  error := none
  claim_token := none
  lease_expires_at := none
  queued_at := o.now

/-- The INSERT of `enqueue_job`; it answers with the new row's identifier. -/
def enqueue_job (w : Queue) (o : Ambient) (kind tenant_id project_id : String) (payload : Value)
    (run_id : Option String) (max_attempts : Option Int) : Except String (Nat × Queue) :=
  if kind ∉ _VALID_JOB_KINDS then
    .error s!"Unsupported job kind: {kind}"
  else
    .ok (w.issued, w.insert
      (newRow w.issued o kind tenant_id project_id payload run_id max_attempts) rfl)

def get_job (w : Queue) (job_id : Nat) : Option Job := w.jobs.find? job_id

/-- `status = 'running' AND lease_expires_at IS NOT NULL AND lease_expires_at < now` -/
def stale (now : Instant) (r : Job) : Bool :=
  r.status = .running && r.lease_expires_at.any fun expires => expires < now

/-- Every stale lease is released, whatever is left of the job's budget. -/
def expire_stale_leases (w : Queue) (o : Ambient) : List Nat × Queue :=
  let ids := (w.jobs.rows.filter (stale o.now)).map Job.job_id
  if ids = [] then
    ([], w)
  else
    (ids, (w.update (fun r => r.job_id ∈ ids)
      (fun r => { r with status := .queued, claim_token := none, lease_expires_at := none })
      fun _ => rfl).2)

/-- `status = 'queued' [AND kind = ?] ORDER BY queued_at ASC LIMIT 1` -/
def candidate (w : Queue) (kind : Option String) : Option Job :=
  letI : Preorder Instant := Int.instLinearOrder.toPreorder
  (w.jobs.rows.filter fun r => r.status = .queued && kind.all (r.kind = ·)).argmin Job.queued_at

/-- What a claim writes to the row. -/
def claimRow (token : Nat) (lease_until : Instant) (r : Job) : Job :=
  { r with
    status := .running
    claim_token := some token
    lease_expires_at := some lease_until
    attempt_count := r.attempt_count + 1 }

/-- `.. WHERE job_id = ? AND status = 'queued'`, and the row read back. -/
def take (w : Queue) (token : Nat) (lease_until : Instant) (job_id : Nat) : Option Job × Queue :=
  let (rowcount, w') := w.update (fun r => r.job_id = job_id && r.status = .queued)
    (claimRow token lease_until) fun _ => rfl
  if rowcount ≠ 1 then (none, w') else (get_job w' job_id, w')

/-- The budget is charged here, and not compared with `max_attempts`. -/
def claim_job (w : Queue) (o : Ambient) (kind : Option String) (lease_seconds : Option Int) :
    Except String (Option Job × Queue) :=
  if kind.any (· ∉ _VALID_JOB_KINDS) then
    let named := kind.getD ""
    .error s!"Unsupported job kind: {named}"
  else
    let lease_until := o.now + orDefault lease_seconds (default_lease_seconds o) * SECOND
    let (token, w) := w.draw
    match candidate w kind with
    | none => .ok (none, w)
    | some r => .ok (take w token lease_until r.job_id)

/-- `job_id = ? AND claim_token = ? AND status = 'running'` -/
def fenced (job_id claim_token : Nat) (r : Job) : Bool :=
  r.job_id = job_id && r.claim_token = some claim_token && r.status = .running

def renew_job_lease (w : Queue) (o : Ambient) (job_id claim_token : Nat)
    (lease_seconds : Option Int) : Bool × Queue :=
  let lease_until := o.now + orDefault lease_seconds (default_lease_seconds o) * SECOND
  w.updateOne (fenced job_id claim_token)
    (fun r => { r with lease_expires_at := some lease_until }) fun _ => rfl

def complete_job (w : Queue) (job_id claim_token : Nat) (result : Value) : Bool × Queue :=
  w.updateOne (fenced job_id claim_token)
    (fun r => { r with
      status := .completed, lease_expires_at := none, result := some result, error := none })
    fun _ => rfl

/-- `(error or "unknown")[:500]` -/
def errorText (error : String) : String :=
  String.ofList ((if error = "" then "unknown" else error).toList.take 500)

/-- What a failed attempt writes to the row. -/
def failRow (status : JobStatus) (error : String) (r : Job) : Job :=
  { r with status, lease_expires_at := none, error := some (errorText error) }

def fail_job (w : Queue) (job_id claim_token : Nat) (error : String) : FailOutcome × Queue :=
  match w.jobs.rows.find? (fenced job_id claim_token) with
  | none => (.not_fenced, w)
  | some row =>
    if row.max_attempts ≤ row.attempt_count then
      (.dead_letter, (w.update (fenced job_id claim_token) (failRow .dead_letter error)
        fun _ => rfl).2)
    else
      (.queued, (w.update (fenced job_id claim_token) (failRow .queued error) fun _ => rfl).2)

def request_job_cancellation (w : Queue) (job_id : Nat) : Bool × Queue :=
  w.updateOne (fun r => r.job_id = job_id && (r.status = .queued || r.status = .running))
    (fun r => { r with status := .cancelled, lease_expires_at := none }) fun _ => rfl

/-- What a call does. -/
def exec : Exec QueueCalls Queue Ambient := fun c o w =>
  match c with
  | .enqueue_job kind tenant_id project_id payload run_id max_attempts =>
    enqueue_job w o kind tenant_id project_id payload run_id max_attempts
  | .get_job job_id => .ok (get_job w job_id, w)
  | .expire_stale_leases => .ok (expire_stale_leases w o)
  | .claim_job kind lease_seconds => claim_job w o kind lease_seconds
  | .renew_job_lease job_id claim_token lease_seconds =>
    .ok (renew_job_lease w o job_id claim_token lease_seconds)
  | .complete_job job_id claim_token result => .ok (complete_job w job_id claim_token result)
  | .fail_job job_id claim_token error => .ok (fail_job w job_id claim_token error)
  | .request_job_cancellation job_id => .ok (request_job_cancellation w job_id)

/-- **The queue with its workers.** Any program may run: a worker may hold on to a
    token for as long as it likes, use one it never claimed, or stop. -/
def queue : Interleaving.System QueueCalls Queue Ambient where
  exec := exec
  Starts := fun _ => True
  Env := fun _ _ => False

/-! ## What workers run -/

/-- Make one call. -/
abbrev ask (c : Call) : Program QueueCalls (Call.Resp c) := .perform (I := QueueCalls) c

/-- `enqueue_job` as its callers see it: the row is read back in a second
    transaction. -/
def enqueue (kind tenant_id project_id : String) (payload : Value) (run_id : Option String)
    (max_attempts : Option Int) : Program QueueCalls (Option Job) := do
  let job_id ← ask (.enqueue_job kind tenant_id project_id payload run_id max_attempts)
  ask (.get_job job_id)

/-- How handling a job ended. -/
inductive Handled where
  | skipped
  | completed
  | failure (outcome : FailOutcome)

/-- Execute one claimed job and settle it under the token it was claimed with.
    `execute` stands for the pipeline the job runs; it ends with a result or with
    the text of an exception. -/
def handle_job (execute : Job → Except String Value) (job : Job) (claim_token : Nat) :
    Program QueueCalls Handled := do
  match ← ask (.get_job job.job_id) with
  | none => pure .skipped
  | some current =>
    if current.status ≠ .running then
      pure .skipped
    else if job.kind ∉ _VALID_JOB_KINDS then
      return .failure (← ask (.fail_job job.job_id claim_token s!"unsupported kind {job.kind}"))
    else
      match execute current with
      | .ok result =>
        let _ ← ask (.complete_job job.job_id claim_token result)
        pure .completed
      | .error text => return .failure (← ask (.fail_job job.job_id claim_token text))

end Jobs
