import MissionControl.Relational.Recent
import MissionControl.Relational.Table

/-! # Lineage remediations

When an artifact that a run has protected changes, the run owes a remediation. The queue of a project is listed
newest first, and never beyond its 200 newest rows. -/

namespace Obligations

open Relational (Table recent)

/-- A moment, as `_now()` writes it. -/
abbrev Instant : Type := Int

/-! ## Rows -/

inductive RemediationStatus where
  | OPEN
  | REGENERATED
  | RETRIED
  | RESOLVED
  deriving DecidableEq, Repr

/-- What a remediation is created with. -/
structure Wanted where
  tenant_id : String
  project_id : String
  run_id : String
  approval_id : Option String
  artifact_id : String
  artifact_version_ref : String
  changed_artifact_id : String
  changed_version_ref : String
  reason : String
  payload : List (String × String)
  deriving DecidableEq

/-- A row of `lineage_remediation_queue`. -/
structure Remediation extends Wanted where
  remediation_id : String
  status : RemediationStatus
  created_at : Instant
  resolved_at : Option Instant := none
  deriving DecidableEq

/-- The table `lineage_remediation_queue`. -/
abbrev Queue : Type := Table Remediation String Remediation.remediation_id

/-- A remediation of the run that is open. -/
def Remediation.OpenFor (run_id : String) (r : Remediation) : Prop := r.run_id = run_id ∧ r.status = .OPEN

instance (run_id : String) (r : Remediation) : Decidable (r.OpenFor run_id) :=
  inferInstanceAs (Decidable (_ ∧ _))

/-! ## The operations -/

/-- `SELECT … WHERE run_id = ? AND artifact_version_ref = ? AND changed_version_ref = ? AND status = 'OPEN'
    ORDER BY created_at DESC LIMIT 1` -/
def findOpen (queue : Queue) (wanted : Wanted) : Option Remediation :=
  (recent Remediation.created_at (queue.rows.filter fun r => r.run_id = wanted.run_id ∧
    r.artifact_version_ref = wanted.artifact_version_ref ∧ r.changed_version_ref = wanted.changed_version_ref ∧
      r.status = .OPEN)).head?

/-- One that is open for these versions, or a new one. The identifier, a `uuid4`, is fresh. -/
def create_lineage_remediation (queue : Queue) (wanted : Wanted) (remediation_id : String) (created_at : Instant) :
    Option (Remediation × Queue) :=
  match findOpen queue wanted with
  | some existing => some (existing, queue)
  | none =>
    let row : Remediation := { wanted with remediation_id, status := .OPEN, created_at }
    if h : queue.find? row.remediation_id = none then some (row, queue.insert row h) else none

/-- `SELECT … WHERE tenant_id = ? AND project_id = ? ORDER BY created_at DESC LIMIT ?` -/
def list_project_lineage_remediations (queue : Queue) (project_id tenant_id : String) (limit : Int) :
    List Remediation :=
  (recent Remediation.created_at
    (queue.rows.filter fun r => r.tenant_id = tenant_id ∧ r.project_id = project_id)).take (max 1 (min limit 200)).toNat

/-- `SET status = ?, resolved_at = ? WHERE remediation_id = ? AND status = 'OPEN'`, and the row then. -/
def resolve_lineage_remediation (queue : Queue) (remediation_id : String) (status : RemediationStatus) (now : Instant) :
    Except String (Option Remediation × Queue) :=
  if status = .OPEN then
    .error "status must be REGENERATED, RETRIED, or RESOLVED"
  else
    let queue := queue.update remediation_id
      (fun r => if r.status = .OPEN then { r with status, resolved_at := some now } else r)
      fun r => by split <;> rfl
    .ok (queue.find? remediation_id, queue)

/-! ## What the listing shows -/

variable {queue : Queue} {r : Remediation}

theorem nodup_selected (queue : Queue) (p : Remediation → Bool) : (queue.rows.filter p).Nodup :=
  (List.Nodup.of_map Remediation.remediation_id queue.nodup).filter p

/-- **The listing** shows a remediation of the project that fewer others precede than it has room for. -/
theorem mem_list_project_lineage_remediations {project_id tenant_id : String} {limit : Int} :
    r ∈ list_project_lineage_remediations queue project_id tenant_id limit ↔
      (r ∈ queue ∧ r.tenant_id = tenant_id ∧ r.project_id = project_id) ∧
        ((queue.rows.filter fun x => x.tenant_id = tenant_id ∧ x.project_id = project_id).filter fun x =>
          Relational.Precedes Remediation.created_at
            (queue.rows.filter fun x => x.tenant_id = tenant_id ∧ x.project_id = project_id) x r).length <
          (max 1 (min limit 200)).toNat := by
  have hselected : r ∈ queue.rows.filter (fun x => x.tenant_id = tenant_id ∧ x.project_id = project_id) ↔
      r ∈ queue ∧ r.tenant_id = tenant_id ∧ r.project_id = project_id := by
    rw [List.mem_filter, decide_eq_true_eq, Table.mem_rows]
  rw [← hselected]
  constructor
  · intro h
    have hr := Relational.mem_recent.mp (List.mem_of_mem_take h)
    exact ⟨hr, (Relational.mem_take_recent (nodup_selected ..) hr).mp h⟩
  · rintro ⟨hr, hplace⟩
    exact (Relational.mem_take_recent (nodup_selected ..) hr).mpr hplace

end Obligations

/-! # Invalidation obligations

What a run's result was derived from is recorded by event class, as the hash of its cause. A cause that differs from
the one the branch was bound to opens an obligation, which stays open until it is discharged. -/

namespace Obligations

open Relational (Table recent)

/-! ## Rows -/

inductive EventClass where
  | SPEC_CHANGE
  | MODEL_PARAM_CHANGE
  | TOOL_RESULT_CHANGE
  | SCHEMA_CHANGE
  | ACL_SECRET_CHANGE
  | MEMORY_WRITE
  | CLOCK_WINDOW_ADVANCE
  | HOOK_GAP
  deriving DecidableEq, Repr

def EventClass.value : EventClass → String
  | SPEC_CHANGE => "SPEC_CHANGE"
  | MODEL_PARAM_CHANGE => "MODEL_PARAM_CHANGE"
  | TOOL_RESULT_CHANGE => "TOOL_RESULT_CHANGE"
  | SCHEMA_CHANGE => "SCHEMA_CHANGE"
  | ACL_SECRET_CHANGE => "ACL_SECRET_CHANGE"
  | MEMORY_WRITE => "MEMORY_WRITE"
  | CLOCK_WINDOW_ADVANCE => "CLOCK_WINDOW_ADVANCE"
  | HOOK_GAP => "HOOK_GAP"

open EventClass in
def EVENT_CLASSES : List EventClass :=
  [SPEC_CHANGE, MODEL_PARAM_CHANGE, TOOL_RESULT_CHANGE, SCHEMA_CHANGE, ACL_SECRET_CHANGE, MEMORY_WRITE,
    CLOCK_WINDOW_ADVANCE, HOOK_GAP]

inductive ObligationState where
  | OPEN
  | HOOK_GAP
  | DISCHARGED_RECOMPUTE
  | DISCHARGED_CUTOFF
  deriving DecidableEq, Repr

def ObligationState.value : ObligationState → String
  | OPEN => "OPEN"
  | HOOK_GAP => "HOOK_GAP"
  | DISCHARGED_RECOMPUTE => "DISCHARGED_RECOMPUTE"
  | DISCHARGED_CUTOFF => "DISCHARGED_CUTOFF"

def OPEN_STATES : List ObligationState := [.OPEN, .HOOK_GAP]

def DISCHARGED_STATES : List ObligationState := [.DISCHARGED_RECOMPUTE, .DISCHARGED_CUTOFF]

/-- A row of `invalidation_obligations`. -/
structure Obligation where
  obligation_id : String
  tenant_id : String
  project_id : String
  run_id : String
  artifact_branch : String
  node_id : String
  event_class : EventClass
  state : ObligationState
  demanded : Bool
  cause_k : String
  created_at : Instant
  updated_at : Instant
  discharged_at : Option Instant
  deriving DecidableEq

/-- The table `invalidation_obligations`. -/
abbrev Ledger : Type := Table Obligation String Obligation.obligation_id

/-! ## Creating one -/

/-- The identifier and the moment of a new row. -/
structure Stamp where
  obligation_id : String
  now : Instant

/-- What a branch is bound to for one event class: the hash of the cause, and whether it could be told. -/
inductive BindingStatus where
  | BOUND
  | HOOK_GAP
  | other
  deriving DecidableEq, Repr

structure Binding where
  cause_k : String
  status : BindingStatus

/-- The arguments of `record_run_invalidation_bindings`, with the bindings derived from the result. -/
structure Recording where
  tenant_id : String
  project_id : String
  run_id : String
  artifact_branch : String
  bindings : EventClass → Binding
  node_id : String := "delivery"
  demanded : Bool := true
  demanded_event_classes : Option (List EventClass) := none

def Recording.demands (r : Recording) (event_class : EventClass) : Bool :=
  match r.demanded_event_classes with
  | some classes => event_class ∈ classes
  | none => r.demanded

/-- The row of one event class. -/
def Recording.row (r : Recording) (event_class : EventClass) (state : ObligationState) (stamp : Stamp) : Obligation where
  obligation_id := stamp.obligation_id
  tenant_id := r.tenant_id
  project_id := r.project_id
  run_id := r.run_id
  artifact_branch := r.artifact_branch
  node_id := r.node_id
  event_class
  state
  demanded := r.demands event_class
  cause_k := (r.bindings event_class).cause_k
  created_at := stamp.now
  updated_at := stamp.now
  discharged_at := if state ∈ DISCHARGED_STATES then some stamp.now else none

/-- An insert, under an identifier that is new. -/
def create_invalidation_obligation (ledger : Ledger) (row : Obligation) : Option Ledger :=
  if h : ledger.find? row.obligation_id = none then some (ledger.insert row h) else none

/-! ## Recording -/

/-- The rows of a branch and an event class, in the order of their creation. -/
def bound (ledger : Ledger) (run_id artifact_branch : String) (event_class : EventClass) : List Obligation :=
  ledger.rows.filter fun r => r.run_id = run_id ∧ r.artifact_branch = artifact_branch ∧ r.event_class = event_class

/-- Of the rows with `MAX(updated_at)` of the event class, the last. -/
def latest_branch_obligations (ledger : Ledger) (run_id artifact_branch : String) (event_class : EventClass) :
    Option Obligation :=
  ((bound ledger run_id artifact_branch event_class).filter fun r =>
    ∀ x ∈ bound ledger run_id artifact_branch event_class, x.updated_at ≤ r.updated_at).getLast?

def initialState : BindingStatus → ObligationState
  | .BOUND => .DISCHARGED_RECOMPUTE
  | .HOOK_GAP => .HOOK_GAP
  | .other => .DISCHARGED_CUTOFF

def nextState (status : BindingStatus) : ObligationState := if status = .HOOK_GAP then .HOOK_GAP else .OPEN

/-- How far a recording has come: the rows, those it has created, the event classes it has gone through, and whether
    a statement has raised. -/
structure Progress where
  ledger : Ledger
  created : List Obligation
  recorded : List EventClass
  raised : Bool

/-- Create the row of an event class; where there is no stamp, the statement raises. -/
def Progress.create (p : Progress) (r : Recording) (stamps : EventClass → Option Stamp) (event_class : EventClass)
    (state : ObligationState) : Progress :=
  match stamps event_class with
  | none => { p with raised := true }
  | some stamp =>
    match create_invalidation_obligation p.ledger (r.row event_class state stamp) with
    | none => { p with raised := true }
    | some ledger =>
      { ledger
        created := p.created ++ [r.row event_class state stamp]
        recorded := p.recorded ++ [event_class]
        raised := false }

/-- One round of the loop. -/
def recordClass (r : Recording) (current : EventClass → Option Obligation) (stamps : EventClass → Option Stamp)
    (p : Progress) (event_class : EventClass) : Progress :=
  if p.raised then
    p
  else
    match current event_class with
    | none => p.create r stamps event_class (initialState (r.bindings event_class).status)
    | some previous =>
      if previous.cause_k = (r.bindings event_class).cause_k then
        { p with recorded := p.recorded ++ [event_class] }
      else
        p.create r stamps event_class (nextState (r.bindings event_class).status)

def record_run_invalidation_bindings (ledger : Ledger) (r : Recording) (stamps : EventClass → Option Stamp) : Progress :=
  let current := latest_branch_obligations ledger r.run_id r.artifact_branch
  (EVENT_CLASSES.filter (· ≠ .HOOK_GAP)).foldl (recordClass r current stamps) ⟨ledger, [], [], false⟩

/-! ## Discharging -/

/-- `SET state = ?, updated_at = ?, discharged_at = ? WHERE state IN ('OPEN', 'HOOK_GAP')` -/
def Obligation.resolve (row : Obligation) (status : ObligationState) (now : Instant) : Obligation :=
  if row.state ∈ OPEN_STATES then { row with state := status, updated_at := now, discharged_at := some now } else row

theorem Obligation.resolve_keeps (row : Obligation) (status : ObligationState) (now : Instant) :
    (row.resolve status now).obligation_id = row.obligation_id ∧ (row.resolve status now).run_id = row.run_id ∧
      (row.resolve status now).artifact_branch = row.artifact_branch ∧
        (row.resolve status now).event_class = row.event_class ∧ (row.resolve status now).cause_k = row.cause_k := by
  unfold Obligation.resolve
  split <;> exact ⟨rfl, rfl, rfl, rfl, rfl⟩

/-- The row with this identifier is resolved. Another status than a discharged one raises. -/
def resolve_invalidation_obligation (ledger : Ledger) (obligation_id : String) (status : ObligationState) (now : Instant) :
    Except String (Option Obligation × Ledger) :=
  if status ∉ DISCHARGED_STATES then
    .error s!"Unsupported discharge status={status.value}"
  else
    let ledger := ledger.update obligation_id (·.resolve status now) fun r => (r.resolve_keeps status now).1
    .ok (ledger.find? obligation_id, ledger)

/-- The open obligations of a run, or of one of its branches. An empty branch is none. -/
def openObligations (ledger : Ledger) (run_id : String) (artifact_branch : Option String) : List Obligation :=
  ledger.rows.filter fun r => r.run_id = run_id ∧ r.state ∈ OPEN_STATES ∧
    ∀ branch ∈ artifact_branch, branch ≠ "" → r.artifact_branch = branch

/-- They are resolved one after the other, until a statement raises. -/
def dischargeEach (status : ObligationState) (nows : String → Option Instant) : List String → Ledger → Ledger
  | [], ledger => ledger
  | obligation_id :: obligation_ids, ledger =>
    match nows obligation_id with
    | none => ledger
    | some now =>
      match resolve_invalidation_obligation ledger obligation_id status now with
      | .error _ => ledger
      | .ok (_, ledger) => dischargeEach status nows obligation_ids ledger

def discharge_run_obligations (ledger : Ledger) (run_id : String) (artifact_branch : Option String)
    (status : ObligationState) (nows : String → Option Instant) : Ledger :=
  dischargeEach status nows ((openObligations ledger run_id artifact_branch).map Obligation.obligation_id) ledger

/-- `SELECT … WHERE run_id = ? AND demanded = ? AND state IN ('OPEN', 'HOOK_GAP') … ORDER BY updated_at DESC` -/
def open_demanded_obligations (ledger : Ledger) (run_id : String) (artifact_branch : Option String) : List Obligation :=
  recent Obligation.updated_at ((openObligations ledger run_id artifact_branch).filter (·.demanded))

end Obligations
