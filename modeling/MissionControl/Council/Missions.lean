import MissionControl.Council.Policy
import MissionControl.Canonical.Hash
import MissionControl.Interleaving.Pool

/-! # Missions

What is stored about one mission of the council: its row, the status of its run, the
approvals, the checkpoints of the council state, and the checkpoints of the graph engine.
Every operation on them is a transaction of its own, one call of the interface below. -/

namespace Council

open Canonical
open Interleaving (Interface Exec)

/-- A moment in microseconds. -/
abbrev Instant : Type := Int

inductive Engine where
  | langgraph
  | crewai
  | autogen
  deriving DecidableEq, Repr

inductive RunStatus where
  | queued
  | running
  | needs_approval
  | resuming
  | completed
  | rejected
  | failed
  | cancelled
  deriving DecidableEq, Repr

/-- `TERMINAL_STATUSES` -/
def RunStatus.terminal : RunStatus → Bool
  | .completed | .rejected | .failed | .cancelled => true
  | _ => false

inductive Phase where
  | STRATEGY
  | AUDIT
  | GATE
  | PROTOTYPE
  | DONE
  deriving DecidableEq, Repr

inductive Terminal where
  | COMPLETED
  | REJECTED
  | BLOCKED
  deriving DecidableEq, Repr

/-! ## Council state -/

structure Idea where
  title : String
  description : String
  deriving DecidableEq

/-- What a human approves. -/
structure Gate where
  subject : Value
  subject_hash : String
  risk_level : Option Severity
  findings : List String
  requested_actions : List RequestedAction

/-- The decision a paused mission is resumed with. -/
structure Decision where
  approval_id : String
  approve : Bool
  decided_by : Option String
  subject_hash : String
  policy_version : String
  deriving DecidableEq

/-- What the gate made of the decision. -/
structure GateDecision where
  approval_id : String
  approve : Bool
  decided_by : Option String
  subject_hash : String
  reason : String
  deriving DecidableEq

/-- Arty's validated scaffold: the components' names and the files. -/
structure Scaffold where
  components : List String
  files : List (String × String)

structure CouncilState where
  mission_id : String
  idea : Idea
  requested_actions : List RequestedAction
  strategy : Option Value := none
  risk : Option RiskAssessment := none
  gate : Option Gate := none
  decision : Option GateDecision := none
  scaffold : Option Scaffold := none
  terminal : Option Terminal := none

/-- `canonical_hash(state.get("strategy") or {})`: what is hashed. -/
def orEmpty : Option Value → Value
  | some value => value
  | none => .dict []

section

variable [Sha256]

/-- What a human approves: this mission, these actions, this strategy and risk, this policy. -/
def gate_request (state : CouncilState) : Gate :=
  let subject : Value := .dict [("mission_id", .str state.mission_id), ("thread_id", .str state.mission_id),
    ("action", .str "council.prototype"),
    ("requested_actions", .list (state.requested_actions.map (·.dump))),
    ("strategy_hash", .str (canonical_hash (orEmpty state.strategy))),
    ("risk_hash", .str (canonical_hash (orEmpty (state.risk.map (·.dump))))),
    ("policy_version", .str POLICY_VERSION)]
  { subject := subject
    subject_hash := canonical_hash subject
    risk_level := state.risk.map (·.level)
    findings := match state.risk with
      | some risk => risk.findings.map (·.code)
      | none => []
    requested_actions := state.requested_actions }

/-- A decision only counts if it is an approval of exactly this gate's subject. -/
def decision_matches (state : CouncilState) (decision : Decision) : Bool :=
  decision.approve && decision.subject_hash == (gate_request state).subject_hash &&
    decision.approval_id != ""

end

/-! ## Stored data -/

structure MissionRow where
  mission_id : String
  tenant_id : String
  project_id : String
  engine : Engine
  phase : Phase := .STRATEGY
  version : Nat := 0
  lease_owner : Option String := none
  lease_expires_at : Option Instant := none
  approval_id : Option String := none
  approval_subject_hash : Option String := none
  consumed_approval_id : Option String := none
  cancel_requested : Bool := false
  attempts : Nat := 0
  last_error : Option String := none

inductive ApprovalStatus where
  | pending
  | resolved
  | stale
  deriving DecidableEq, Repr

structure Approval where
  approval_id : String
  run_id : String
  tenant_id : String
  project_id : String
  status : ApprovalStatus
  subject_hash : String
  policy_version : String
  reviewer : Option String := none
  approve : Option Bool := none
  deriving DecidableEq

/-- The nodes of the graph engine; `ended` is its end. -/
inductive Node where
  | george
  | fable
  | sentinel_gate
  | arty
  | complete
  | rejected
  | blocked
  | ended
  deriving DecidableEq, Repr

/-- The last checkpoint of the graph engine: the values, the node that comes next, and
    whether the gate has interrupted. -/
structure Native where
  values : CouncilState
  next : Node
  interrupted : Bool := false

/-- The database, as far as one mission is concerned, with the clock. -/
structure World where
  row : MissionRow
  status : RunStatus := .queued
  approvals : List Approval := []
  /-- The primary keys of `council_approval_consumptions`. -/
  consumptions : List (String × String) := []
  checkpoints : List CouncilState := []
  native : Option Native := none
  clock : Instant := 0

/-- The columns an `update_mission` sets. -/
structure Fields where
  phase : Option Phase := none
  approval : Option (Option String × String) := none
  consumed_approval_id : Option String := none
  cancel_requested : Bool := false
  /-- `last_error`, set to a code or to `None`. -/
  last_error : Option (Option String) := none
  attempts : Option Nat := none

/-! ## The calls -/

inductive Call where
  | get_mission_row
  | run_status
  | compare_and_set_run_status (expected new : RunStatus)
  | update_mission (expected_version : Nat) (fields : Fields)
  | acquire_lease (owner : String) (ttl : Instant)
  | release_lease (owner : String)
  | now
  /-- Whether the mission is among `stale_running_missions()`. -/
  | stale_running (now : Instant)
  | latest_checkpoint_state
  | append_checkpoint (state : CouncilState)
  | get_state
  | put_state (native : Native)
  | get_approval (approval_id : String)
  | create_approval_request (subject_hash : String)
  | mark_approval_stale (approval_id : String)
  | resolve_approval (approval_id reviewer : String) (approve : Bool)
  | consume_approval (approval_id action_hash : String)
  /-- The seats: a model is asked and its answer validated. -/
  | george
  | fable (scan : RiskAssessment)
  | arty
  /-- What the gateway checks of a call before its approval. -/
  | gateway_checks (tool_id : String)
  /-- The handler of the tool, for the scaffold of the state. -/
  | write_scaffold (state : CouncilState) (approval_id : String)
  /-- An engine call begins, and has ended. -/
  | engine_begins
  | engine_ends

abbrev Call.Resp : Call → Type
  | get_mission_row => MissionRow
  | run_status => RunStatus
  | compare_and_set_run_status .. | update_mission .. | stale_running _ | consume_approval ..
  | resolve_approval .. => Bool
  | acquire_lease .. => Option MissionRow
  | now => Instant
  | latest_checkpoint_state => Option CouncilState
  | get_state => Option Native
  | get_approval _ => Option Approval
  | create_approval_request _ => String
  | george => Value
  | fable _ => ModelOutput
  | arty => Scaffold
  | release_lease _ | append_checkpoint _ | put_state _ | mark_approval_stale _ | gateway_checks _
  | write_scaffold .. | engine_begins | engine_ends => Unit

/-- What a call or a program may raise. -/
inductive Err where
  | cancelled
  | seatFailed (code : String)
  | engineError
  | denied (code : String)
  | mission (code : String)
  deriving DecidableEq

abbrev CouncilCalls : Interface where
  Call := Call
  Resp := Call.Resp
  Err := Err

/-- What is decided outside: the answers of the models, the names of new rows, and which
    calls to a model, the gateway or a tool fail. -/
structure Outside where
  strategy : Value := .dict []
  model_output : ModelOutput := {}
  scaffold : Scaffold := ⟨[], []⟩
  uuid : String := ""
  fails : Option Err := none

/-! ## The operations -/

/-- Set the columns. -/
def MissionRow.set (row : MissionRow) (f : Fields) : MissionRow :=
  { row with
    phase := f.phase.getD row.phase
    approval_id := match f.approval with
      | some (approval_id, _) => approval_id
      | none => row.approval_id
    approval_subject_hash := match f.approval with
      | some (_, subject_hash) => some subject_hash
      | none => row.approval_subject_hash
    consumed_approval_id := f.consumed_approval_id.or row.consumed_approval_id
    cancel_requested := f.cancel_requested || row.cancel_requested
    last_error := f.last_error.getD row.last_error
    attempts := f.attempts.getD row.attempts
    version := row.version + 1 }

/-- `lease_owner IS NULL OR lease_expires_at IS NULL OR lease_expires_at < ? OR lease_owner = ?` -/
def mayAcquire (row : MissionRow) (now : Instant) (owner : String) : Bool :=
  row.lease_owner.isNone || row.lease_expires_at.isNone ||
    row.lease_expires_at.any (· < now) || row.lease_owner == some owner

def lease_expired (row : MissionRow) (now : Instant) : Bool :=
  row.lease_owner.getD "" == "" || row.lease_expires_at.isNone || row.lease_expires_at.any (· < now)

/-- Queued, running or resuming, and no lease that is still good. -/
def stale (w : World) (now : Instant) : Bool :=
  (w.status = .queued || w.status = .running || w.status = .resuming) &&
    (w.row.lease_owner.isNone || w.row.lease_expires_at.isNone || w.row.lease_expires_at.any (· < now))

/-- Update the approvals with the identifier. -/
def onApproval (approvals : List Approval) (approval_id : String) (f : Approval → Approval) :
    List Approval :=
  approvals.map fun a => if a.approval_id = approval_id then f a else a

def findApproval (approvals : List Approval) (approval_id : String) : Option Approval :=
  approvals.find? (·.approval_id == approval_id)

/-- A call that may be made to fail from outside. -/
def failing {α : Type} (o : Outside) (r : α) (w : World) : Except Err (α × World) :=
  match o.fails with
  | some e => .error e
  | none => .ok (r, w)

/-- The meaning of the calls. -/
def exec : Exec CouncilCalls World Outside
  | .get_mission_row, _, w => .ok (w.row, w)
  | .run_status, _, w => .ok (w.status, w)
  | .compare_and_set_run_status expected new, _, w =>
    if w.status = expected then .ok (true, { w with status := new }) else .ok (false, w)
  | .update_mission expected_version fields, _, w =>
    if w.row.version = expected_version then .ok (true, { w with row := w.row.set fields })
    else .ok (false, w)
  | .acquire_lease owner ttl, _, w =>
    if mayAcquire w.row w.clock owner then
      let row := { w.row with
        lease_owner := some owner, lease_expires_at := some (w.clock + ttl), version := w.row.version + 1 }
      .ok (some row, { w with row := row })
    else .ok (none, w)
  | .release_lease owner, _, w =>
    if w.row.lease_owner = some owner then
      .ok ((), { w with row := { w.row with
        lease_owner := none, lease_expires_at := none, version := w.row.version + 1 } })
    else .ok ((), w)
  | .now, _, w => .ok (w.clock, w)
  | .stale_running now, _, w => .ok (stale w now, w)
  | .latest_checkpoint_state, _, w => .ok (w.checkpoints.getLast?, w)
  | .append_checkpoint state, _, w => .ok ((), { w with checkpoints := w.checkpoints ++ [state] })
  | .get_state, _, w => .ok (w.native, w)
  | .put_state native, _, w => .ok ((), { w with native := some native })
  | .get_approval approval_id, _, w => .ok (findApproval w.approvals approval_id, w)
  | .create_approval_request subject_hash, o, w =>
    -- `uuid4` has not given the identifier before, and none is empty
    if o.uuid = "" ∨ (findApproval w.approvals o.uuid).isSome then .error .engineError
    else .ok (o.uuid, { w with approvals := w.approvals ++
      [⟨o.uuid, w.row.mission_id, w.row.tenant_id, w.row.project_id, .pending, subject_hash,
        POLICY_VERSION, none, none⟩] })
  | .mark_approval_stale approval_id, _, w =>
    .ok ((), { w with approvals := onApproval w.approvals approval_id fun a => { a with status := .stale } })
  | .resolve_approval approval_id reviewer approve, _, w =>
    if (findApproval w.approvals approval_id).any (·.status = .pending) then
      .ok (true, { w with approvals := onApproval w.approvals approval_id fun a =>
        { a with status := .resolved, reviewer := some reviewer, approve := some approve } })
    else .ok (false, w)
  | .consume_approval approval_id action_hash, _, w =>
    if (approval_id, action_hash) ∈ w.consumptions then .ok (false, w)
    else .ok (true, { w with consumptions := w.consumptions ++ [(approval_id, action_hash)] })
  | .george, o, w => failing o o.strategy w
  | .fable _, o, w => failing o o.model_output w
  | .arty, o, w => failing o o.scaffold w
  | .gateway_checks _, o, w => failing o () w
  | .write_scaffold _ _, o, w => failing o () w
  | .engine_begins, _, w => .ok ((), w)
  | .engine_ends, _, w => .ok ((), w)

end Council
