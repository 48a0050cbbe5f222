import MissionControl.Council.Engines

/-! # The service

The requests of a mission: they move its status by compare-and-set, take its lease for one
engine call at a time, and apply how that call ended. The work a request submits runs in a
thread of the same process; here it follows the request. -/

namespace Council

open Canonical
open Interleaving (Program System)

def RESUME_ACTION : String := "mission.resume"

def WRITE_SCAFFOLD : String := "workspace.write_scaffold"

/-- The target an approval names for a tool. -/
def action_target (tool_id mission_id : String) : String :=
  if tool_id = WRITE_SCAFFOLD then "council/" ++ mission_id ++ "/scaffold/" else tool_id

/-- A refusal of the service. -/
abbrev refuse {α : Type} (code : String) : CouncilProgram α := fail (.mission code)

def _transition (to_status : RunStatus) : CouncilProgram Bool := do
  let current ← perform .run_status
  if current = to_status then return true
  else if current.terminal then return false
  else perform (.compare_and_set_run_status current to_status)

def _fail (code : String) : CouncilProgram Unit := do
  let current ← perform .get_mission_row
  let _ ← perform (.update_mission current.version
    { last_error := some (some code), attempts := some (current.attempts + 1) })
  let _ ← _transition .failed
  return ()

/-! ## The gateway -/

/-- What the approval of a write lacks, in the order of the checks. -/
def missing (row : MissionRow) (requested : List RequestedAction) (approval : Approval) : Option String :=
  if approval.tenant_id ≠ row.tenant_id ∨ approval.project_id ≠ row.project_id then
    some "APPROVAL_SCOPE_INVALID"
  else if approval.run_id ≠ row.mission_id then some "APPROVAL_SCOPE_INVALID"
  else if approval.status ≠ .resolved ∨ approval.approve ≠ some true then some "APPROVAL_NOT_GRANTED"
  else if row.approval_subject_hash.getD "" = "" ∨
      some approval.subject_hash ≠ row.approval_subject_hash then some "APPROVAL_SUBJECT_MISMATCH"
  else if approval.policy_version ≠ POLICY_VERSION then some "APPROVAL_POLICY_MISMATCH"
  else if ∀ a ∈ requested, (a.tool_id, a.target) ≠
      (WRITE_SCAFFOLD, action_target WRITE_SCAFFOLD row.mission_id) then some "ACTION_NOT_APPROVED"
  else none

def _check_approval (row : MissionRow) (requested : List RequestedAction) (approval_id : String) :
    CouncilProgram Unit := do
  if approval_id = "" then fail (.denied "APPROVAL_REQUIRED")
  else
    match ← perform (.get_approval approval_id) with
    | none => fail (.denied "APPROVAL_NOT_FOUND")
    | some approval =>
      match missing row requested approval with
      | some code => fail (.denied code)
      | none => return ()

/-- The arguments of the write. -/
def scaffoldArgs (state : CouncilState) : Value :=
  .dict [("files", .list (((state.scaffold.map (·.files)).getD []).map fun file =>
    .dict [("path", .str file.1), ("content", .str file.2)]))]

/-- `get_approval(row["approval_id"]) if row.get("approval_id") else None` -/
def rowApproval (row : MissionRow) : CouncilProgram (Option Approval) :=
  match row.approval_id with
  | some approval_id => perform (.get_approval approval_id)
  | none => return none

section

variable [Sha256]

def action_hash (mission_id tool_id : String) (args : Value) : String :=
  canonical_hash (.dict [("mission_id", .str mission_id), ("tool_id", .str tool_id), ("args", args)])

/-- `gateway.invoke` of the write, with `idempotent_retry`: it may have been made before. -/
def invoke (row : MissionRow) (state : CouncilState) (approval_id : String) : CouncilProgram Unit := do
  perform (.gateway_checks WRITE_SCAFFOLD)
  _check_approval row state.requested_actions approval_id
  let _ ← perform (.consume_approval approval_id
    (action_hash row.mission_id WRITE_SCAFFOLD (scaffoldArgs state)))
  perform (.write_scaffold state approval_id)

/-! ## Applying an engine call -/

/-- The approval of the gate: the pending one of the same subject, or a new one. -/
def gateApproval (row : MissionRow) (gate : Gate) : CouncilProgram (Option String) := do
  match ← rowApproval row with
  | some approval =>
    if approval.status = .pending then
      if approval.subject_hash = gate.subject_hash then return row.approval_id
      else
        perform (.mark_approval_stale approval.approval_id)
        return some (← perform (.create_approval_request gate.subject_hash))
    else return some (← perform (.create_approval_request gate.subject_hash))
  | none => return some (← perform (.create_approval_request gate.subject_hash))

def applyGate (row : MissionRow) (gate : Gate) : CouncilProgram Unit := do
  let approval_id ← gateApproval row gate
  let _ ← perform (.update_mission row.version
    { phase := some .GATE, approval := some (approval_id, gate.subject_hash) })
  let _ ← _transition .needs_approval
  return ()

def complete : CouncilProgram Unit := do
  let row ← perform .get_mission_row
  let _ ← perform (.update_mission row.version { phase := some .DONE })
  let _ ← _transition .completed
  return ()

def applyCompleted (row : MissionRow) (state : CouncilState) : CouncilProgram Unit := do
  if state.requested_actions.any (·.tool_id == WRITE_SCAFFOLD) then
    match state.decision with
    | some decision =>
      if decision.approve then
        invoke row state decision.approval_id
        complete
      else _fail "SIDE_EFFECT_WITHOUT_APPROVAL"
    | none => _fail "SIDE_EFFECT_WITHOUT_APPROVAL"
  else complete

def applyEnded (row : MissionRow) : CouncilProgram Unit := do
  let _ ← perform (.update_mission row.version { phase := some .DONE })
  let _ ← _transition .rejected
  return ()

def _apply (step : EngineStep) : CouncilProgram Unit := do
  let row ← perform .get_mission_row
  match step.status with
  | .AWAITING_APPROVAL gate => applyGate row gate
  | .COMPLETED => applyCompleted row step.state
  | .REJECTED | .BLOCKED => applyEnded row

/-- What becomes of the mission after the engine call. -/
def settle : Except Err EngineStep → CouncilProgram Unit
  | .ok step => _apply step
  | .error .cancelled => do
    let _ ← _transition .cancelled
    return ()
  | .error (.seatFailed code) => _fail code
  | .error (.denied code) => _fail code
  | .error .engineError => _fail "ENGINE_ERROR"
  | .error (.mission _) => _fail "ENGINE_ERROR"

section

variable [Settings]

/-- What runs under the lease. -/
def driven (row : MissionRow) (run_engine : Engine → Option CouncilState → CouncilProgram EngineStep)
    (pre : CouncilProgram Bool) : CouncilProgram Unit := do
  if ← pre then
    let _ ← perform .run_status
    let state ← perform .latest_checkpoint_state
    perform .engine_begins
    let ended ← Program.attempt (run_engine row.engine state)
    perform .engine_ends
    settle ended
  else return ()

def lease_ttl : Instant := Settings.lease_seconds * 1000000

/-- Run one engine call under the mission lease and apply its outcome. -/
def _drive (owner : String) (run_engine : Engine → Option CouncilState → CouncilProgram EngineStep)
    (pre : CouncilProgram Bool) : CouncilProgram Unit := do
  match ← perform (.acquire_lease owner lease_ttl) with
  | none => return ()
  | some row =>
    let ended ← Program.attempt (driven row run_engine pre)
    perform (.release_lease owner)
    match ended with
    | .ok () => return ()
    | .error e => fail e

/-! ## The requests -/

section

variable [TextRules]

def execute (owner : String) : CouncilProgram Unit :=
  _drive owner (fun engine => engine.start) (perform (.compare_and_set_run_status .queued .running))

/-- The part of a recovery that runs under the lease. -/
def driveRecover (owner : String) : CouncilProgram Unit :=
  _drive owner (fun engine => engine.recover) (return true)

/-- The subject the gate would have now. -/
def expected (state : Option CouncilState) : Option String :=
  state.bind fun state => if state.strategy.isSome then some (gate_request state).subject_hash else none

/-- The decision as it is handed to the engine. -/
def decisionOf (approval : Approval) : Decision where
  approval_id := approval.approval_id
  approve := approval.approve = some true
  decided_by := approval.reviewer
  subject_hash := approval.subject_hash
  policy_version := approval.policy_version

/-- Only an approval moves the mission; a rejection has done so when it was decided. -/
def startResuming (approval : Approval) : CouncilProgram Bool :=
  if approval.approve = some true then
    perform (.compare_and_set_run_status .needs_approval .resuming)
  else return true

/-- Use the approval, once, and drive the mission with what was decided. -/
def resumeWith (owner : String) (row : MissionRow) (approval : Approval) : CouncilProgram Unit := do
  if ← perform (.consume_approval approval.approval_id RESUME_ACTION) then
    if ← startResuming approval then
      let _ ← perform (.update_mission row.version
        { consumed_approval_id := some approval.approval_id })
      _drive owner (fun engine => engine.resume (decisionOf approval)) (return true)
    else refuse "MISSION_STATE_RACE"
  else refuse "APPROVAL_REPLAY"

def resume (owner : String) : CouncilProgram Unit := do
  let row ← perform .get_mission_row
  let status ← perform .run_status
  if row.phase ≠ .GATE ∨ (status ≠ .needs_approval ∧ status ≠ .rejected) then
    refuse "MISSION_NOT_AWAITING_APPROVAL"
  else
    match ← rowApproval row with
    | none => refuse "APPROVAL_NOT_FOUND"
    | some approval =>
      match approval.status with
      | .pending => refuse "APPROVAL_PENDING"
      | .stale => refuse "APPROVAL_STALE"
      | .resolved =>
        let state ← perform .latest_checkpoint_state
        if some approval.subject_hash ≠ row.approval_subject_hash ∨
            some approval.subject_hash ≠ expected state then
          perform (.mark_approval_stale approval.approval_id)
          refuse "APPROVAL_STALE"
        else if approval.policy_version ≠ POLICY_VERSION then refuse "APPROVAL_POLICY_MISMATCH"
        else resumeWith owner row approval

/-- Retire the approval of a mission that nothing executes. -/
def retirePending (row : MissionRow) : CouncilProgram Unit := do
  match ← rowApproval row with
  | none => return ()
  | some approval =>
    if approval.status = .pending then perform (.mark_approval_stale approval.approval_id) else return ()

def cancel : CouncilProgram Unit := do
  let row ← perform .get_mission_row
  let status ← perform .run_status
  if status.terminal then refuse "MISSION_TERMINAL"
  else
    let _ ← perform (.update_mission row.version { cancel_requested := true })
    if status = .queued ∨ status = .needs_approval then
      retirePending row
      let _ ← perform (.compare_and_set_run_status status .cancelled)
      return ()
    else return ()

/-- Continue a failed mission from its last checkpoint. -/
def retry (owner : String) : CouncilProgram Unit := do
  let row ← perform .get_mission_row
  let status ← perform .run_status
  if status ≠ .failed then refuse "MISSION_NOT_FAILED"
  else if ← perform (.compare_and_set_run_status .failed .running) then
    let _ ← perform (.update_mission row.version { last_error := some none })
    driveRecover owner
  else refuse "MISSION_STATE_RACE"

/-- Restore a mission whose worker stopped, once its lease has expired. -/
def recover (owner : String) : CouncilProgram Unit := do
  let row ← perform .get_mission_row
  let status ← perform .run_status
  if status ≠ .queued ∧ status ≠ .running ∧ status ≠ .resuming then refuse "MISSION_NOT_RECOVERABLE"
  else
    let now ← perform .now
    if lease_expired row now then
      if status = .queued then execute owner else driveRecover owner
    else refuse "MISSION_LEASE_ACTIVE"

/-- Resubmit the mission if its worker stopped. -/
def recover_stale (owner : String) : CouncilProgram Unit := do
  let now ← perform .now
  if ← perform (.stale_running now) then
    let status ← perform .run_status
    if status = .queued then execute owner else driveRecover owner
  else return ()

/-- The decision of a reviewer on an approval, at its own route. -/
def decide_approval (approval_id reviewer : String) (approve : Bool) : CouncilProgram Unit := do
  match ← perform (.get_approval approval_id) with
  | none => refuse "Approval not found"
  | some approval =>
    let status ← perform .run_status
    if status ≠ .needs_approval then refuse "Run is not awaiting approval"
    else if approval.status = .stale then refuse "Approval is stale and must be regenerated"
    else if ← perform (.resolve_approval approval_id reviewer approve) then
      if approve then return ()
      else if ← perform (.compare_and_set_run_status .needs_approval .rejected) then return ()
      else refuse "Run state changed while rejection was being recorded"
    else refuse "Approval already has a terminal decision"

/-! ## The system -/

/-- What a mission is dispatched with. -/
structure Mission where
  mission_id : String
  tenant_id : String
  project_id : String
  engine : Engine
  idea : Idea
  materialize_scaffold : Bool
  deriving DecidableEq

/-- The side effects the mission requests. -/
def Mission.requested (mission : Mission) : List RequestedAction :=
  if mission.materialize_scaffold then
    [⟨WRITE_SCAFFOLD, .WRITE, action_target WRITE_SCAFFOLD mission.mission_id⟩] else []

/-- The rest of a dispatch, once the run and the mission are recorded. -/
def dispatch (mission : Mission) (owner : String) : CouncilProgram Unit := do
  perform (.append_checkpoint (initial_state mission.mission_id mission.idea mission.requested))
  execute owner

/-- The requests that are served. An owner is a process: its host and number. -/
inductive Request where
  | dispatch (owner : String)
  | execute (owner : String)
  | resume (owner : String)
  | cancel
  | retry (owner : String)
  | recover (owner : String)
  | recover_stale (owner : String)
  | decide (approval_id reviewer : String) (approve : Bool)
  deriving DecidableEq

/-- The program of a request. -/
def Request.program (mission : Mission) : Request → CouncilProgram Unit
  | .dispatch owner => Council.dispatch mission owner
  | .execute owner => Council.execute owner
  | .resume owner => Council.resume owner
  | .cancel => Council.cancel
  | .retry owner => Council.retry owner
  | .recover owner => Council.recover owner
  | .recover_stale owner => Council.recover_stale owner
  | .decide approval_id reviewer approve => decide_approval approval_id reviewer approve

/-- The mission as its dispatch has recorded it. -/
def Mission.world (mission : Mission) (clock : Instant) : World where
  row := {
    mission_id := mission.mission_id, tenant_id := mission.tenant_id
    project_id := mission.project_id, engine := mission.engine }
  clock := clock

/-- Only the clock moves by itself. -/
structure Ticks (w w' : World) : Prop where
  same : w' = { w with clock := w'.clock }
  later : w.clock ≤ w'.clock

/-- **The council of one mission**: any number of workers, each serving any request. -/
def council (mission : Mission) : System CouncilCalls World Outside where
  exec := exec
  Starts p := ∃ request : Request, p = request.program mission
  Env := Ticks

end

end

end

end Council
