import MissionControl.Content.Lifecycle
import MissionControl.Reliability.Kernel

/-! # The tables of content operations

Content items, calendar slots, scheduled jobs and publication attempts, with the transactions that write them. Every
call is one transaction, or one question to what lies outside: the provider of a channel, the rights of an asset, the
publication mode. An item is written by its state and version, by its version only, or not conditionally at all,
as the statement of the call says. -/

namespace Content

open Canonical (Value)
open Interleaving
open Projects (ArtifactState Dict ProjectError)
open Relational (Table)
open Reliability (ReliabilityState TrustError)

/-- What the operations raise: what the operations on projects raise, `ContentTransitionError`, `PublicationBlocked`,
    `RuntimeError`, `AttributeError`, what the trust kernel raises, and what a provider raises. -/
inductive ContentError where
  | project (e : ProjectError)
  | transition (text : String)
  | publication_blocked (text : String)
  | runtime (text : String)
  | attribute_error
  | trust (e : TrustError)
  | provider (name : String)
  deriving DecidableEq

/-! ## Identifiers -/

def hexDigits : List Char := "0123456789abcdef".toList

/-- `uuid4().hex`, or a part of it. -/
structure Hex where
  digits : List (Fin 16)

def Hex.text (h : Hex) : String := String.ofList (h.digits.map fun d => hexDigits.getD d '0')

/-- `f"cnt-{uuid4().hex[:16]}"` -/
def itemId (h : Hex) : String := "cnt-" ++ h.text

/-! ## Rows -/

structure ContentItem where
  content_item_id : String
  tenant_id : String
  project_id : String
  campaign_id : Option String
  atom_id : Option String
  artifact_id : Option String
  kind : ContentKind
  channel : String
  title : String
  state : ContentState
  version : ℕ
  claim_refs : List String
  rights_ref : Option String
  approved_version : Option ℕ
  approval_ref : Option String
  evidence_fresh_until : Option String
  created_by : String

/-- The column `body`. -/
structure ContentBody where
  variant : Value := .none
  draft : Option Dict := none
  release_blockers : List String := []

/-- A row of `content_items`. -/
structure ItemRow where
  item : ContentItem
  body : ContentBody

namespace ItemRow

def content_item_id (r : ItemRow) : String := r.item.content_item_id

/-- The row in another state. -/
def moved (r : ItemRow) (target : ContentState) : ItemRow := { r with item := { r.item with state := target } }

/-- The row in another state, with its approval. -/
def transitioned (r : ItemRow) (target : ContentState) (approved_version : Option ℕ) (approval_ref : Option String) :
    ItemRow :=
  { r with item := { r.item with state := target, approved_version, approval_ref } }

/-- The row of another version. -/
def revised (r : ItemRow) (version : ℕ) (body : ContentBody) (new_state : ContentState) : ItemRow :=
  { r with item := { r.item with state := new_state, version }, body }

end ItemRow

inductive SlotState where
  | open_ | filled | released | cancelled
  deriving DecidableEq

structure ScheduleSlot where
  slot_id : String
  calendar_id : String
  tenant_id : String
  project_id : String
  content_item_id : Option String
  channel : String
  scheduled_for : String
  state : SlotState

inductive ScheduledJobKind where
  | PUBLISH | REFRESH | LIFECYCLE
  deriving DecidableEq

inductive ScheduledJobStatus where
  | PENDING | BLOCKED | ENQUEUED | DELIVERED | FAILED | CANCELLED
  deriving DecidableEq

/-- The keys of a job's payload. -/
structure JobPayload where
  version : Option ℕ := none
  channel : Option String := none
  journey : Option String := none
  step : Option ℕ := none
  trigger : Option String := none

structure ScheduledJob where
  job_id : String
  tenant_id : String
  project_id : String
  slot_id : Option String
  content_item_id : Option String
  job_kind : ScheduledJobKind
  due_at : String
  status : ScheduledJobStatus
  idempotency_key : String
  outbox_message_id : Option String
  block_reasons : List String
  payload : JobPayload
  attempts : ℕ

/-- A job that a tick may still take up. -/
def ScheduledJob.Live (j : ScheduledJob) : Prop := j.status = .PENDING ∨ j.status = .BLOCKED

instance (j : ScheduledJob) : Decidable j.Live := inferInstanceAs (Decidable (_ ∨ _))

inductive ProviderMode where
  | DISABLED | DRY_RUN | LIVE
  deriving DecidableEq

inductive PublicationState where
  | SPEC | VALIDATED | AUTHORIZED | APPROVED | EXECUTING | READBACK | RECONCILED | VERIFIED | BLOCKED | FAILED
  | UNCERTAIN
  deriving DecidableEq

structure PublicationAttempt where
  attempt_id : String
  tenant_id : String
  project_id : String
  job_id : Option String
  content_item_id : String
  provider : String
  mode : ProviderMode
  state : PublicationState
  request_hash : String
  idempotency_key : String
  external_ref : Option String
  readback : Dict
  error : Option String

/-- The unique key, besides the primary one. -/
def PublicationAttempt.claim (a : PublicationAttempt) : String × String := (a.provider, a.idempotency_key)

/-! ## Scheduled jobs

The table has a second unique key. -/

structure JobTable where
  table : Table ScheduledJob String ScheduledJob.job_id
  keys : (table.rows.map ScheduledJob.idempotency_key).Nodup

namespace JobTable

instance : Membership ScheduledJob JobTable := ⟨fun t j => j ∈ t.table⟩

@[simp] theorem mem_table {t : JobTable} {j : ScheduledJob} : j ∈ t.table ↔ j ∈ t := Iff.rfl

def empty : JobTable := ⟨.empty, List.nodup_nil⟩

/-- `SELECT … WHERE idempotency_key = ?` -/
def byKey (t : JobTable) (key : String) : Option ScheduledJob := t.table.rows.find? (·.idempotency_key = key)

/-- `UPDATE scheduled_jobs SET …`, where the job's identity stays. -/
def modify (t : JobTable) (f : ScheduledJob → ScheduledJob) (hid : ∀ j, (f j).job_id = j.job_id)
    (hkey : ∀ j, (f j).idempotency_key = j.idempotency_key) : JobTable where
  table := t.table.modify f hid
  keys := by
    show ((t.table.rows.map f).map ScheduledJob.idempotency_key).Nodup
    rw [List.map_map, show ScheduledJob.idempotency_key ∘ f = ScheduledJob.idempotency_key from funext hkey]
    exact t.keys

/-- Add a job whose two keys are new. -/
def insert (t : JobTable) (j : ScheduledJob) (hid : t.table.find? j.job_id = none)
    (hkey : t.byKey j.idempotency_key = none) : JobTable where
  table := t.table.insert j hid
  keys := by
    show ((t.table.rows ++ [j]).map ScheduledJob.idempotency_key).Nodup
    rw [List.map_append, List.map_singleton]
    refine List.nodup_append.mpr ⟨t.keys, List.nodup_singleton _, ?_⟩
    intro k hk k' hk'
    obtain ⟨j₀, hj₀, rfl⟩ := List.mem_map.mp hk
    rw [List.mem_singleton.mp hk']
    have hnone := List.find?_eq_none.mp hkey j₀ hj₀
    simpa using hnone

variable {t : JobTable} {j j' : ScheduledJob}

variable {key : String}

theorem byKey_eq_some : t.byKey key = some j ↔ j ∈ t ∧ j.idempotency_key = key := by
  unfold byKey
  constructor
  · intro h
    exact ⟨List.mem_of_find?_eq_some h, by simpa using List.find?_some h⟩
  · rintro ⟨hj, rfl⟩
    cases h : t.table.rows.find? (·.idempotency_key = j.idempotency_key) with
    | none =>
      have hnone := List.find?_eq_none.mp h j hj
      simp at hnone
    | some j₀ =>
      have hkey : j₀.idempotency_key = j.idempotency_key := by simpa using List.find?_some h
      rw [List.inj_on_of_nodup_map t.keys (List.mem_of_find?_eq_some h) hj hkey]

theorem byKey_eq_none : t.byKey key = none ↔ ∀ j ∈ t, j.idempotency_key ≠ key := by
  unfold byKey
  rw [List.find?_eq_none]
  simp only [decide_eq_true_eq]
  rfl

theorem mem_insert {hid : t.table.find? j.job_id = none} {hkey : t.byKey j.idempotency_key = none} :
    j' ∈ t.insert j hid hkey ↔ j' ∈ t ∨ j' = j :=
  Table.mem_insert (h := hid)

end JobTable

/-- A new job, but for its identifier. -/
structure NewJob where
  tenant_id : String
  project_id : String
  job_kind : ScheduledJobKind
  due_at : String
  idempotency_key : String
  content_item_id : Option String
  slot_id : Option String
  payload : JobPayload

def NewJob.row (n : NewJob) (job_id : String) : ScheduledJob where
  job_id
  tenant_id := n.tenant_id
  project_id := n.project_id
  slot_id := n.slot_id
  content_item_id := n.content_item_id
  job_kind := n.job_kind
  due_at := n.due_at
  status := .PENDING
  idempotency_key := n.idempotency_key
  outbox_message_id := none
  block_reasons := []
  payload := n.payload
  attempts := 0

/-- What `_set_job` writes to a job, and the statuses it does so from. -/
structure JobMark where
  status : ScheduledJobStatus
  from_statuses : List ScheduledJobStatus
  reasons : List String := []
  outbox_message_id : Option String := none
  bump_attempt : Bool := false

def JobMark.apply (m : JobMark) (j : ScheduledJob) : ScheduledJob :=
  { j with
    status := m.status
    block_reasons := m.reasons
    outbox_message_id := m.outbox_message_id.or j.outbox_message_id
    attempts := j.attempts + if m.bump_attempt then 1 else 0 }

/-! ## The state -/

structure OpsState where
  office : ArtifactState
  items : Table ItemRow String ItemRow.content_item_id
  slots : Table ScheduleSlot String ScheduleSlot.slot_id
  jobs : JobTable
  attempts : Table PublicationAttempt String PublicationAttempt.attempt_id
  trust : ReliabilityState

namespace OpsState

def get_content_item (s : OpsState) (item_id : String) : Option ContentItem := (s.items.find? item_id).map ItemRow.item

/-- `_item_body` -/
def item_body (s : OpsState) (item_id : String) : ContentBody := ((s.items.find? item_id).map ItemRow.body).getD {}

/-- Rewrite the row of an item; its identifier stays. -/
def updateItem (s : OpsState) (item_id : String) (f : ItemRow → ItemRow)
    (hf : ∀ r, (f r).content_item_id = r.content_item_id) : OpsState :=
  { s with items := s.items.update item_id f hf }

/-- `_move_item`: by the version only. -/
def _move_item (s : OpsState) (item : ContentItem) (target : ContentState) : OpsState :=
  s.updateItem item.content_item_id
    (fun r => if r.item.version = item.version then r.moved target else r) fun r => by split <;> rfl

/-- A live job of the item is cancelled. -/
def cancelJob (item_id reason : String) (j : ScheduledJob) : ScheduledJob :=
  if j.content_item_id = some item_id ∧ j.Live then { j with status := .CANCELLED, block_reasons := [reason] } else j

/-- A slot the item holds is released. -/
def releaseSlot (item_id : String) (slot : ScheduleSlot) : ScheduleSlot :=
  if slot.content_item_id = some item_id ∧ slot.state = .filled then
    { slot with state := .released, content_item_id := none }
  else
    slot

def _cancel_item_jobs (s : OpsState) (item_id reason : String) : OpsState :=
  { s with
    jobs := s.jobs.modify (cancelJob item_id reason) (fun j => by unfold cancelJob; split <;> rfl)
      fun j => by unfold cancelJob; split <;> rfl
    slots := s.slots.modify (releaseSlot item_id) fun slot => by unfold releaseSlot; split <;> rfl }

/-- `_insert_job`: the job under the key, which is this one only if there was none. -/
def _insert_job (s : OpsState) (job_id : String) (n : NewJob) : Except ContentError (ScheduledJob × OpsState) :=
  match hkey : s.jobs.byKey n.idempotency_key with
  | some existing => .ok (existing, s)
  | none =>
    if hid : s.jobs.table.find? job_id = none then
      .ok (n.row job_id, { s with jobs := s.jobs.insert (n.row job_id) hid hkey })
    else
      .error (.project .integrity)

def setJob (job_id : String) (m : JobMark) (j : ScheduledJob) : ScheduledJob :=
  if j.job_id = job_id ∧ j.status ∈ m.from_statuses then m.apply j else j

/-- `_set_job`: whether there was such a job, in one of the statuses. -/
def _set_job (s : OpsState) (job_id : String) (m : JobMark) : Bool × OpsState :=
  (s.jobs.table.rows.any fun j => j.job_id = job_id ∧ j.status ∈ m.from_statuses,
    { s with
      jobs := s.jobs.modify (setJob job_id m) (fun j => by unfold setJob; split <;> rfl)
        fun j => by unfold setJob; split <;> rfl })

end OpsState

end Content
