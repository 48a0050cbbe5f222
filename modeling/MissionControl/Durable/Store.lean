import MissionControl.Canonical.Hash
import MissionControl.Interleaving.Solo
import MissionControl.Python.Objects
import MissionControl.Relational.Table

/-! # The states of a durable run -/

namespace Durable

inductive RunState where
  | DORMANT | SCHEDULED | LEASED | PRECHECK | READY | RUNNING | OBSERVING | VERIFYING | COMMITTING
  | RECONCILING | WAITING_APPROVAL | RETRY_PENDING | DEGRADED | BLOCKED_PROVIDER | BLOCKED_AUTHORITY
  | BLOCKED_ENVIRONMENT | INCONCLUSIVE | DEAD_LETTER | PAUSED | STOPPED
  deriving DecidableEq, Repr

open RunState

def RunState.value : RunState → String
  | DORMANT => "DORMANT" | SCHEDULED => "SCHEDULED" | LEASED => "LEASED" | PRECHECK => "PRECHECK"
  | READY => "READY" | RUNNING => "RUNNING" | OBSERVING => "OBSERVING" | VERIFYING => "VERIFYING"
  | COMMITTING => "COMMITTING" | RECONCILING => "RECONCILING" | WAITING_APPROVAL => "WAITING_APPROVAL"
  | RETRY_PENDING => "RETRY_PENDING" | DEGRADED => "DEGRADED" | BLOCKED_PROVIDER => "BLOCKED_PROVIDER"
  | BLOCKED_AUTHORITY => "BLOCKED_AUTHORITY" | BLOCKED_ENVIRONMENT => "BLOCKED_ENVIRONMENT"
  | INCONCLUSIVE => "INCONCLUSIVE" | DEAD_LETTER => "DEAD_LETTER" | PAUSED => "PAUSED" | STOPPED => "STOPPED"

/-- States in which a worker holds (or held) a lease. A job found in one of these with an expired
    lease was interrupted. -/
def IN_FLIGHT : List RunState :=
  [LEASED, PRECHECK, READY, RUNNING, OBSERVING, VERIFYING, COMMITTING, RECONCILING]

/-- States from which a fresh lease may be taken when due. -/
def CLAIMABLE : List RunState := [SCHEDULED, RETRY_PENDING]

def BLOCKED : List RunState := [BLOCKED_PROVIDER, BLOCKED_AUTHORITY, BLOCKED_ENVIRONMENT]

/-- The legal edges. Every state in flight may also be stopped. -/
def TRANSITIONS : RunState → List RunState
  | DORMANT => [SCHEDULED, STOPPED]
  | SCHEDULED => [LEASED, PAUSED, STOPPED]
  | LEASED => [PRECHECK, SCHEDULED, RECONCILING, STOPPED]
  | PRECHECK => [READY, RECONCILING, WAITING_APPROVAL, DORMANT, STOPPED] ++ BLOCKED
  | READY => [RUNNING, RECONCILING, STOPPED]
  | RUNNING =>
    [OBSERVING, RETRY_PENDING, DEGRADED, INCONCLUSIVE, DEAD_LETTER, RECONCILING, STOPPED] ++ BLOCKED
  | OBSERVING => [VERIFYING, INCONCLUSIVE, RECONCILING, STOPPED]
  | VERIFYING => [COMMITTING, RETRY_PENDING, INCONCLUSIVE, DEAD_LETTER, RECONCILING, STOPPED]
  | COMMITTING => [WAITING_APPROVAL, SCHEDULED, DORMANT, RECONCILING, STOPPED]
  | RECONCILING => [RECONCILING, READY, OBSERVING, DEAD_LETTER, WAITING_APPROVAL, STOPPED]
  | WAITING_APPROVAL => [SCHEDULED, DORMANT, STOPPED]
  | RETRY_PENDING => [LEASED, DEAD_LETTER, PAUSED, STOPPED]
  | DEGRADED | BLOCKED_PROVIDER | BLOCKED_AUTHORITY | BLOCKED_ENVIRONMENT => [SCHEDULED, PAUSED, STOPPED]
  | INCONCLUSIVE => [SCHEDULED, DEAD_LETTER, PAUSED, STOPPED]
  | DEAD_LETTER => [PAUSED, STOPPED]
  | PAUSED => [SCHEDULED, STOPPED]
  | STOPPED => []

theorem leased_of_inFlight {src dst : RunState} (h : dst ∈ TRANSITIONS src) (hdst : dst ∈ IN_FLIGHT)
    (hsrc : src ∉ IN_FLIGHT) : dst = LEASED ∧ src ∈ CLAIMABLE := by
  revert h hdst hsrc
  cases src <;> cases dst <;> decide

theorem reconciling_of_inFlight {src : RunState} (h : src ∈ IN_FLIGHT) : RECONCILING ∈ TRANSITIONS src := by
  revert h
  cases src <;> decide

end Durable

/-! # The tables of the durable runtime

Jobs with their leases, write-ahead intents, and the log of transitions. A claim is a compare-and-set
on the version of a job and draws a new fencing token; what a worker writes later is conditioned on
its token. Every statement or transaction is one call; the handlers of a job answer from outside. -/

namespace Durable

open Interleaving (Interface Exec)
open Python (Object Key)
open Relational (Table)

/-- A moment in microseconds. Timestamps are texts of one fixed form, so they compare as moments. -/
abbrev Instant : Type := Int

def SECOND : Int := 1000000

/-- `text[:n]` -/
def clip (n : ℕ) (text : String) : String := String.ofList (text.toList.take n)

/-! ## Rows -/

structure Fingerprint where
  count : ℕ
  env : String
  last_seen : Instant
  deriving DecidableEq

/-- A row of `durable_jobs`. The database checks the bound on the attempts; a job that is created without
    an identifier is given one. -/
structure Job where
  job_id : String
  tenant_id : String
  project_id : String
  kind : String
  spec : Object
  spec_hash : String
  state : RunState
  logical_tick : ℕ
  version : ℕ
  lease_owner : Option String
  lease_token : ℕ
  lease_expires_at : Option Instant
  attempts : ℕ
  max_attempts : ℕ
  recurrence_seconds : Option ℕ
  next_due_at : Instant
  failure_fingerprints : List (String × Fingerprint)
  bounded : 1 ≤ max_attempts ∧ max_attempts ≤ 3
  named : job_id ≠ ""

/-- `not job.get("lease_expires_at") or job["lease_expires_at"] <= now` -/
def Job.lapsed (job : Job) (now : Instant) : Bool := job.lease_expires_at.all (· ≤ now)

inductive IntentStatus where
  | INTENT | UNCONFIRMED | COMMITTED | FAILED | ABANDONED
  deriving DecidableEq

def IntentStatus.value : IntentStatus → String
  | INTENT => "INTENT" | UNCONFIRMED => "UNCONFIRMED" | COMMITTED => "COMMITTED" | FAILED => "FAILED"
  | ABANDONED => "ABANDONED"

/-- A row of `durable_intents`. -/
structure Intent where
  idempotency_key : String
  job_id : String
  tenant_id : String
  project_id : String
  logical_tick : ℕ
  operation : String
  target : String
  input_hash : String
  contract_version : String
  retry_class : String
  pre_image : Object
  status : IntentStatus
  fencing_token : ℕ
  receipt : Object

/-- A row of `durable_transitions`. -/
structure Transition where
  job_id : String
  tenant_id : String
  project_id : String
  from_state : RunState
  to_state : RunState
  fencing_token : ℕ
  logical_tick : ℕ
  reason : String
  observed_at : Instant
  deriving DecidableEq

structure Store where
  jobs : Table Job String Job.job_id := .empty
  intents : Table Intent String Intent.idempotency_key := .empty
  transitions : List Transition := []

/-! ## Calls -/

/-- `StaleFence`, `IllegalTransition`, `ValueError`, `LookupError`, an error of the database, and
    whatever else a call may raise, by the name of its class. -/
inductive Err where
  | stale_fence (text : String)
  | illegal_transition (text : String)
  | value (text : String)
  | lookup (text : String)
  | integrity
  | raised (name : String)
  deriving DecidableEq

/-- `type(exc).__name__` -/
def Err.name : Err → String
  | .stale_fence _ => "StaleFence"
  | .illegal_transition _ => "IllegalTransition"
  | .value _ => "ValueError"
  | .lookup _ => "LookupError"
  | .integrity => "IntegrityError"
  | .raised name => name

/-- The columns a transition sets. -/
structure Fields where
  lease_owner : Option (Option String) := none
  lease_expires_at : Option (Option Instant) := none
  attempts : Option ℕ := none
  logical_tick : Option ℕ := none
  next_due_at : Option Instant := none
  failure_fingerprints : Option (List (String × Fingerprint)) := none

structure CreateJob where
  tenant_id : String
  project_id : String
  kind : String
  spec : Object
  spec_hash : String
  due_at : Instant
  max_attempts : ℕ := 3
  recurrence_seconds : Option ℕ := none
  job_id : String
  named : job_id ≠ ""

/-- A job to try things on. -/
def render : CreateJob where
  tenant_id := "tenant"
  project_id := "project"
  kind := "visual_render"
  spec := .dict []
  spec_hash := "spec"
  due_at := 0
  job_id := "render"
  named := by decide

structure Reservation where
  key : String
  job : Job
  logical_tick : ℕ
  operation : String
  target : String
  input_hash : String
  contract_version : String
  retry_class : String
  pre_image : Object
  fencing_token : ℕ
  now : Instant

/-- What a dispatch gives. -/
structure Dispatched where
  blocked_state : Option RunState := none
  failed : Bool := false
  reasons : List String := []
  deriving DecidableEq

inductive Call where
  | clock
  | get_job (job_id : String)
  | due_jobs (now : Instant) (job_id project_id : Option String)
  | claim_job (job_id : String) (version : ℕ) (current entered : RunState) (worker_id : String)
      (now expires : Instant)
  | move_job (job_id : String) (fencing_token : ℕ) (current dst : RunState) (now : Instant) (reason : String)
      (fields : Fields)
  | create_job (input : CreateJob)
  | renew_lease (job_id worker_id : String) (fencing_token : ℕ) (now : Instant) (lease_seconds : ℕ)
  | reserve_intent (input : Reservation)
  | get_intent (key : String)
  | mark_intent_unconfirmed (key job_id : String) (fencing_token : ℕ) (now : Instant) (error_class : String)
  | settle_intent_failed (key job_id : String) (fencing_token : ℕ) (now : Instant) (receipt : Object)
  | commit_intent (key : String) (receipt : Object) (fencing_token : ℕ) (job_id : String) (now : Instant)
  | precheck (job : Job)
  | environment_fingerprint (job : Job)
  | pre_image (job : Job)
  | dispatch (job : Job)
  | observe (job : Job) (dispatched : Dispatched)
  | verify (job : Job) (observation : Object)
  | reconcile (job : Job) (intent : Intent)
  | on_commit (job : Job) (observation verification : Object)

abbrev Call.Resp : Call → Type
  | clock => Instant
  | get_job _ => Option Job
  | due_jobs .. => List Job
  | claim_job .. => Option Job
  | move_job .. => Job
  | create_job _ => Job
  | renew_lease .. => Job
  | reserve_intent _ => Intent × Bool
  | get_intent _ => Option Intent
  | mark_intent_unconfirmed .. | settle_intent_failed .. | commit_intent .. => Unit
  | precheck _ => Option RunState × List String
  | environment_fingerprint _ => String
  | pre_image _ => Object
  | dispatch _ => Dispatched
  | observe .. => Object
  | verify .. => Object
  | reconcile .. => String × Option Object
  | on_commit .. => RunState × Object

abbrev DurableCalls : Interface where
  Call := Call
  Resp := Call.Resp
  Err := Err

/-- What is decided outside: the clock, whether the call raises, and what a handler answers. -/
structure Outside where
  now : Instant := 0
  raises : Option String := none
  state : Option RunState := none
  reasons : List String := []
  text : String := ""
  dispatched : Dispatched := {}
  object : Object := .none
  adopted : Option Object := none
  final : RunState := .DORMANT

/-! ## What the calls do -/

/-- The order of the queue. -/
def Job.before (a b : Job) : Bool :=
  a.next_due_at < b.next_due_at || (a.next_due_at = b.next_due_at && a.job_id ≤ b.job_id)

/-- Due work, or an interrupted job whose lease has expired. -/
def Job.due (now : Instant) (job : Job) : Bool :=
  (job.state ∈ CLAIMABLE && job.next_due_at ≤ now) ||
    (job.state ∈ IN_FLIGHT && job.lease_expires_at.any (· ≤ now))

/-- `column = ?`, where the filter is given and is no empty text. -/
def given (filter : Option String) (column : String) : Bool := filter.all fun text => text = "" || text = column

def Store.due_jobs (s : Store) (now : Instant) (job_id project_id : Option String) : List Job :=
  ((s.jobs.rows.filter fun job => job.due now && given job_id job.job_id && given project_id job.project_id)
    |>.insertionSort fun a b => a.before b).take 5

def Job.claim (entered : RunState) (worker_id : String) (expires : Instant) (job : Job) : Job :=
  { job with
    state := entered
    lease_owner := some worker_id
    lease_token := job.lease_token + 1
    lease_expires_at := some expires
    version := job.version + 1 }

theorem Job.claim_job_id (entered : RunState) (worker_id : String) (expires : Instant) (job : Job) :
    (job.claim entered worker_id expires).job_id = job.job_id := rfl

/-- `UPDATE … WHERE job_id = ? AND version = ?`, with its transition. -/
def Store.claim_job (s : Store) (job_id : String) (version : ℕ) (current entered : RunState) (worker_id : String)
    (now expires : Instant) : Option Job × Store :=
  match s.jobs.find? job_id with
  | some job =>
    if job.version = version then
      let claimed := job.claim entered worker_id expires
      (some claimed,
        { s with
          jobs := s.jobs.update job_id (·.claim entered worker_id expires)
            (Job.claim_job_id entered worker_id expires)
          transitions := s.transitions ++ [⟨job_id, claimed.tenant_id, claimed.project_id, current, entered,
            claimed.lease_token, claimed.logical_tick, s!"claimed by {worker_id}", now⟩] })
    else (none, s)
  | none => (none, s)

def Job.move (dst : RunState) (fields : Fields) (job : Job) : Job :=
  { job with
    state := dst
    version := job.version + 1
    lease_owner := fields.lease_owner.getD job.lease_owner
    lease_expires_at := fields.lease_expires_at.getD job.lease_expires_at
    attempts := fields.attempts.getD job.attempts
    logical_tick := fields.logical_tick.getD job.logical_tick
    next_due_at := fields.next_due_at.getD job.next_due_at
    failure_fingerprints := fields.failure_fingerprints.getD job.failure_fingerprints }

theorem Job.move_job_id (dst : RunState) (fields : Fields) (job : Job) :
    (job.move dst fields).job_id = job.job_id := rfl

/-- `UPDATE … WHERE job_id = ? AND lease_token = ? AND state = ?`, with its transition. -/
def Store.move_job (s : Store) (job_id : String) (fencing_token : ℕ) (current dst : RunState) (now : Instant)
    (reason : String) (fields : Fields) : Except Err (Job × Store) :=
  match s.jobs.find? job_id with
  | some job =>
    if job.lease_token = fencing_token ∧ job.state = current then
      let updated := job.move dst fields
      .ok (updated,
        { s with
          jobs := s.jobs.update job_id (·.move dst fields) (Job.move_job_id dst fields)
          transitions := s.transitions ++ [⟨job_id, updated.tenant_id, updated.project_id, current, dst,
            fencing_token, updated.logical_tick, clip 500 reason, now⟩] })
    else .error (.stale_fence s!"job {job_id}: concurrent change lost the fence")
  | none => .error (.stale_fence s!"job {job_id}: concurrent change lost the fence")

/-- The row of a new job. -/
def CreateJob.row (input : CreateJob) (h : 1 ≤ input.max_attempts ∧ input.max_attempts ≤ 3) : Job where
  job_id := input.job_id
  tenant_id := input.tenant_id
  project_id := input.project_id
  kind := input.kind
  spec := input.spec.json
  spec_hash := input.spec_hash
  state := .SCHEDULED
  logical_tick := 0
  version := 1
  lease_owner := none
  lease_token := 0
  lease_expires_at := none
  attempts := 0
  max_attempts := input.max_attempts
  recurrence_seconds := input.recurrence_seconds
  next_due_at := input.due_at
  failure_fingerprints := []
  bounded := h
  named := input.named

def Store.create_job (s : Store) (input : CreateJob) (now : Instant) : Except Err (Job × Store) :=
  match hfind : s.jobs.find? input.job_id with
  | some found =>
    if found.spec_hash ≠ input.spec_hash ∨ found.tenant_id ≠ input.tenant_id ∨
        found.project_id ≠ input.project_id then
      .error (.value s!"job {input.job_id} already exists with a different spec or scope")
    else .ok (found, s)
  | none =>
    if h : 1 ≤ input.max_attempts ∧ input.max_attempts ≤ 3 then
      .ok (input.row h,
        { s with
          jobs := s.jobs.insert (input.row h) hfind
          transitions := s.transitions ++ [⟨input.job_id, input.tenant_id, input.project_id, .DORMANT,
            .SCHEDULED, 0, 0, "created", now⟩] })
    else .error .integrity

def Job.renew (expires : Instant) (job : Job) : Job :=
  { job with lease_expires_at := some expires, version := job.version + 1 }

theorem Job.renew_job_id (expires : Instant) (job : Job) : (job.renew expires).job_id = job.job_id := rfl

def Store.renew_lease (s : Store) (job_id worker_id : String) (fencing_token : ℕ) (now : Instant)
    (lease_seconds : ℕ) : Except Err (Job × Store) :=
  if job_id = "" ∨ worker_id = "" ∨ fencing_token = 0 ∨ lease_seconds = 0 then
    .error (.value "job_id, worker_id, positive fence and lease_seconds required")
  else
    match s.jobs.find? job_id with
    | none => .error (.stale_fence s!"job {job_id}: no active matching lease")
    | some job =>
      if job.lease_owner ≠ some worker_id ∨ job.lease_token ≠ fencing_token ∨ job.state ∉ IN_FLIGHT ∨
          job.lapsed now then
        .error (.stale_fence s!"job {job_id}: no active matching lease")
      else
        let expires := now + lease_seconds * SECOND
        .ok (job.renew expires, { s with jobs := s.jobs.update job_id (·.renew expires) (Job.renew_job_id expires) })

/-- The intent, unless there is one with its key. -/
def Store.reserve_intent (s : Store) (input : Reservation) : Except Err ((Intent × Bool) × Store) :=
  let refused : Except Err ((Intent × Bool) × Store) :=
    .error (.stale_fence s!"job {input.job.job_id}: cannot reserve intent without live fence")
  match s.jobs.find? input.job.job_id with
  | none => refused
  | some leased =>
    if leased.tenant_id ≠ input.job.tenant_id ∨ leased.project_id ≠ input.job.project_id ∨
        leased.lease_token ≠ input.fencing_token ∨ leased.state ∉ IN_FLIGHT ∨ leased.lapsed input.now then
      refused
    else
      match hfind : s.intents.find? input.key with
      | some found => .ok ((found, false), s)
      | none =>
        let intent : Intent := ⟨input.key, input.job.job_id, input.job.tenant_id, input.job.project_id,
          input.logical_tick, input.operation, input.target, input.input_hash, input.contract_version,
          input.retry_class, input.pre_image.json, .INTENT, input.fencing_token, .dict []⟩
        .ok ((intent, true), { s with intents := s.intents.insert intent hfind })

/-- Enforce the live fence before the journal is written. -/
def Store._active_fence (s : Store) (job_id : String) (fencing_token : ℕ) (now : Instant) : Except Err Job :=
  match s.jobs.find? job_id with
  | none => .error (.stale_fence s!"job {job_id}: no live fenced lease")
  | some job =>
    if job.lease_token ≠ fencing_token ∨ job.state ∉ IN_FLIGHT ∨ (job.lease_owner.getD "") = "" ∨
        job.lapsed now then
      .error (.stale_fence s!"job {job_id}: no live fenced lease")
    else .ok job

/-- The intent is open, and of this job. -/
def Intent.open? (job : Job) (intent : Intent) : Bool :=
  intent.job_id = job.job_id && intent.tenant_id = job.tenant_id && intent.project_id = job.project_id &&
    (intent.status = .INTENT || intent.status = .UNCONFIRMED)

def Intent.settle (status : IntentStatus) (receipt : Object) (intent : Intent) : Intent :=
  { intent with status := status, receipt := receipt.json }

theorem Intent.settle_key (status : IntentStatus) (receipt : Object) (intent : Intent) :
    (intent.settle status receipt).idempotency_key = intent.idempotency_key := rfl

/-- Settle the open intent with the key. -/
def Store.settle_intent (s : Store) (key job_id : String) (fencing_token : ℕ) (now : Instant)
    (status : IntentStatus) (receipt : Object) (refusal : String) : Except Err (Unit × Store) := do
  let job ← s._active_fence job_id fencing_token now
  if (s.intents.find? key).any (·.open? job) then
    .ok ((), { s with
      intents := s.intents.update key (·.settle status receipt) (Intent.settle_key status receipt) })
  else .error (.stale_fence refusal)

/-! ## Redaction -/

def _SENSITIVE_KEYS : List String :=
  ["authorization", "proxy_authorization", "x_api_key", "api_key", "access_token", "refresh_token", "password",
    "secret", "client_secret", "private_key", "raw_prompt"]

/-- `isinstance(k, str) and k.lower().replace("-", "_") in _SENSITIVE_KEYS` -/
def sensitive : Key → Bool
  | .str k =>
    let lowered := (k.toList.flatMap Python.lowerLetters).map fun c => if c = '-' then '_' else c
    String.ofList lowered ∈ _SENSITIVE_KEYS
  | .other _ => false

section Redaction

variable (_redact_string : String → String)

mutual

/-- Redact an object. What becomes of a string (the patterns for personal data and secrets) is a
    parameter. -/
def redact_value : Object → Object
  | .str s => .str (_redact_string s)
  | .dict items => .dict (redact_items items)
  | .list items => .list (redact_list items)
  | .tuple items => .tuple (redact_list items)
  | .none => .none
  | .bool b => .bool b
  | .int n => .int n
  | .float f => .float f

def redact_list : List Object → List Object
  | [] => []
  | o :: items => redact_value o :: redact_list items

def redact_items : List (Key × Object) → List (Key × Object)
  | [] => []
  | (k, o) :: items =>
    (k, if sensitive k then .str "[REDACTED_SENSITIVE_FIELD]" else redact_value o) :: redact_items items

end

theorem redact_list_eq (items : List Object) : redact_list _redact_string items = items.map (redact_value _redact_string) := by
  induction items with
  | nil => rfl
  | cons o items ih => rw [redact_list, ih, List.map_cons]

theorem redact_items_eq (items : List (Key × Object)) : redact_items _redact_string items =
    items.map fun kv => (kv.1, if sensitive kv.1 then .str "[REDACTED_SENSITIVE_FIELD]"
      else redact_value _redact_string kv.2) := by
  induction items with
  | nil => rfl
  | cons kv items ih => rw [redact_items, ih, List.map_cons]

end Redaction

/-! ## Execution -/

section Execution

variable (_redact_string : String → String)

/-- What a call does when it does not raise on its own. -/
def run (o : Outside) (s : Store) : (c : Call) → Except Err (c.Resp × Store)
  | .clock => .ok (o.now, s)
  | .get_job job_id => .ok (s.jobs.find? job_id, s)
  | .due_jobs now job_id project_id => .ok (s.due_jobs now job_id project_id, s)
  | .claim_job job_id version current entered worker_id now expires =>
    .ok (s.claim_job job_id version current entered worker_id now expires)
  | .move_job job_id fencing_token current dst now reason fields =>
    s.move_job job_id fencing_token current dst now reason fields
  | .create_job input => s.create_job input o.now
  | .renew_lease job_id worker_id fencing_token now lease_seconds =>
    s.renew_lease job_id worker_id fencing_token now lease_seconds
  | .reserve_intent input => s.reserve_intent input
  | .get_intent key => .ok (s.intents.find? key, s)
  | .mark_intent_unconfirmed key job_id fencing_token now error_class =>
    s.settle_intent key job_id fencing_token now .UNCONFIRMED
      (.dict [(.str "uncertainty", .str (clip 80 error_class)), (.str "observed_at", .int now)])
      "intent cannot be marked unconfirmed"
  | .settle_intent_failed key job_id fencing_token now receipt =>
    if receipt.hasText "status" "FAILED" then
      s.settle_intent key job_id fencing_token now .FAILED (redact_value _redact_string receipt)
        "intent was already settled or out of scope"
    else .error (.value "authoritative FAILED receipt required")
  | .commit_intent key receipt fencing_token job_id now =>
    s.settle_intent key job_id fencing_token now .COMMITTED (redact_value _redact_string receipt)
      s!"intent {clip 12 key} is already settled, invalid or out of scope"
  | .precheck _ => .ok ((o.state, o.reasons), s)
  | .environment_fingerprint _ => .ok (o.text, s)
  | .pre_image _ => .ok (o.object, s)
  | .dispatch _ => .ok (o.dispatched, s)
  | .observe .. => .ok (o.object, s)
  | .verify .. => .ok (o.object, s)
  | .reconcile .. => .ok ((o.text, o.adopted), s)
  | .on_commit .. => .ok ((o.final, o.object), s)

/-- The meaning of the calls. -/
def exec : Exec DurableCalls Store Outside := fun c o s =>
  match o.raises with
  | some name => .error (.raised name)
  | none => run _redact_string o s c

end Execution

end Durable
