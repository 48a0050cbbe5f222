import MissionControl.Council.Missions

/-! # The engines

An engine takes a mission from its idea to the gate and from the gate to the scaffold, and
reports through checkpoints of the council state. The graph engine goes from node to node of
its graph and also keeps checkpoints of its own; the two conversation engines run the seats
before the gate and the seat after it as one phase each. -/

namespace Council

open Canonical
open Interleaving (Program)

/-- A program of a worker of the council. -/
abbrev CouncilProgram (α : Type) : Type := Program CouncilCalls α

/-- Make one call. -/
abbrev perform (c : Call) : CouncilProgram (Call.Resp c) := Program.perform (I := CouncilCalls) c

/-- Raise an error. -/
abbrev fail {α : Type} (e : Err) : CouncilProgram α := Program.raise e

/-- The settings from the environment: `COUNCIL_SEAT_MAX_ATTEMPTS` and
    `COUNCIL_LEASE_SECONDS`, within the bounds they are clamped to. -/
class Settings where
  seat_max_attempts : Nat
  lease_seconds : Nat
  attempts_bounds : 1 ≤ seat_max_attempts ∧ seat_max_attempts ≤ 5
  lease_bounds : 5 ≤ lease_seconds ∧ lease_seconds ≤ 3600

/-- How an engine call ended. -/
inductive StepStatus where
  | AWAITING_APPROVAL (gate : Gate)
  | COMPLETED
  | REJECTED
  | BLOCKED

structure EngineStep where
  status : StepStatus
  state : CouncilState

def Terminal.status : Terminal → StepStatus
  | .COMPLETED => .COMPLETED
  | .REJECTED => .REJECTED
  | .BLOCKED => .BLOCKED

/-! ## Steps of every engine -/

/-- `initial_state`; the idea is redacted already. -/
def initial_state (mission_id : String) (idea : Idea) (requested_actions : List RequestedAction) :
    CouncilState :=
  { mission_id := mission_id, idea := idea, requested_actions := requested_actions }

/-- A seat does not start when the mission is to be cancelled. -/
def seat_started : CouncilProgram Unit := do
  let row ← perform .get_mission_row
  if row.cancel_requested then fail .cancelled

def apply_strategy (state : CouncilState) (output : Value) : CouncilProgram CouncilState := do
  let state := { state with strategy := some output }
  perform (.append_checkpoint state)
  return state

def apply_audit (state : CouncilState) (output : RiskAssessment) : CouncilProgram CouncilState := do
  let state := { state with risk := some output }
  perform (.append_checkpoint state)
  return state

def apply_scaffold (state : CouncilState) (output : Scaffold) : CouncilProgram CouncilState := do
  let state := { state with scaffold := some output }
  perform (.append_checkpoint state)
  return state

/-- The engine ends at a terminal. Without one, the checkpoint is written before the status
    is looked up. -/
def finish (state : CouncilState) (terminal : Option Terminal) : CouncilProgram EngineStep := do
  let state := { state with terminal := terminal }
  perform (.append_checkpoint state)
  match terminal with
  | some terminal => return ⟨terminal.status, state⟩
  | none => fail .engineError

/-- The decision as the gate records it in the state. -/
def applied [Sha256] (state : CouncilState) (decision : Decision) : GateDecision where
  approval_id := decision.approval_id
  approve := decision_matches state decision
  decided_by := decision.decided_by
  subject_hash := decision.subject_hash
  reason :=
    if decision_matches state decision then "APPROVED"
    else if decision.approve then "SUBJECT_MISMATCH" else "REJECTED_BY_REVIEWER"

section

variable [Sha256] [TextRules] [Settings]

def await_gate (state : CouncilState) : CouncilProgram EngineStep := do
  let request := gate_request state
  let state := { state with gate := some request }
  perform (.append_checkpoint state)
  return ⟨.AWAITING_APPROVAL request, state⟩

/-- `policy_for` -/
def policy_for (state : CouncilState) : RiskAssessment :=
  scan (state.idea.title ++ "\n" ++ state.idea.description) state.requested_actions

def strategy_step (state : CouncilState) : CouncilProgram CouncilState := do
  seat_started
  let output ← perform .george
  apply_strategy state output

def audit_step (state : CouncilState) : CouncilProgram CouncilState := do
  seat_started
  let scan := policy_for state
  let output ← perform (.fable scan)
  apply_audit state (merge_model_findings scan output)

def prototype_step (state : CouncilState) : CouncilProgram CouncilState := do
  seat_started
  let output ← perform .arty
  apply_scaffold state output

/-! ## The graph engine -/

/-- The retry policy of the nodes that ask a model: once more after a timeout. -/
def retrying {α : Type} (node : CouncilProgram α) : CouncilProgram α := do
  match ← Program.attempt node with
  | .ok a => return a
  | .error (.seatFailed code) => if code = "SEAT_TIMEOUT" then node else fail (.seatFailed code)
  | .error e => fail e

/-- A terminal node, and the end. -/
def fromTerminal (terminal : Terminal) (state : CouncilState) : CouncilProgram Unit :=
  perform (.put_state { values := { state with terminal := some terminal }, next := .ended })

def fromArty (state : CouncilState) : CouncilProgram Unit := do
  let state ← retrying (prototype_step state)
  perform (.put_state { values := state, next := .complete })
  fromTerminal .COMPLETED state

/-- The gate interrupts until it is given a decision. -/
def fromGate (state : CouncilState) : Option Decision → CouncilProgram Unit
  | none => perform (.put_state { values := state, next := .sentinel_gate, interrupted := true })
  | some decision => do
    let state := { state with
      gate := some (gate_request state), decision := some (applied state decision) }
    if (applied state decision).approve then
      perform (.put_state { values := state, next := .arty })
      fromArty state
    else
      perform (.put_state { values := state, next := .rejected })
      fromTerminal .REJECTED state

/-- `_after_fable` -/
def _after_fable (risk : RiskAssessment) : Node :=
  if risk.blocked then .blocked else if risk.requires_approval then .sentinel_gate else .arty

def fromFable (state : CouncilState) : CouncilProgram Unit := do
  let state ← retrying (audit_step state)
  match state.risk with
  | none => fail .engineError
  | some risk =>
    perform (.put_state { values := state, next := _after_fable risk })
    if risk.blocked then fromTerminal .BLOCKED state
    else if risk.requires_approval then fromGate state none
    else fromArty state

def fromGeorge (state : CouncilState) : CouncilProgram Unit := do
  let state ← retrying (strategy_step state)
  perform (.put_state { values := state, next := .fable })
  fromFable state

/-- The graph from a node on. A decision is for the gate, if that is where it goes on. -/
def fromNode (state : CouncilState) (decision : Option Decision) : Node → CouncilProgram Unit
  | .george => fromGeorge state
  | .fable => fromFable state
  | .sentinel_gate => fromGate state decision
  | .arty => fromArty state
  | .complete => fromTerminal .COMPLETED state
  | .rejected => fromTerminal .REJECTED state
  | .blocked => fromTerminal .BLOCKED state
  | .ended => return ()

/-- What the payload of an invocation makes the graph do. -/
inductive Payload where
  | input (state : CouncilState)
  | goOn (decision : Option Decision)

def invoke_graph : Payload → CouncilProgram Unit
  | .input state => do
    perform (.put_state { values := state, next := .george })
    fromGeorge state
  | .goOn decision => do
    match ← perform .get_state with
    | none => fail .engineError
    | some native => fromNode native.values decision native.next

/-- `LangGraphEngine._run`: the last checkpoint of the graph says how the call ended. -/
def _run (payload : Payload) : CouncilProgram EngineStep := do
  invoke_graph payload
  match ← perform .get_state with
  | none => fail .engineError
  | some native =>
    if native.interrupted then await_gate native.values
    else finish native.values native.values.terminal

/-! ## The conversation engines -/

/-- The seats that run until their outputs validate, `n` times at most. -/
def attempts {α : Type} (seats : CouncilProgram α) : Nat → CouncilProgram α
  | 0 => fail (.seatFailed "SEAT_OUTPUT_INVALID")
  | n + 1 => do
    match ← Program.attempt seats with
    | .ok a => return a
    | .error (.seatFailed _) => attempts seats n
    | .error e => fail e

/-- The prototype of a crew is a task with guardrails; that of a team is asked for again
    while its output does not validate. -/
def prototype (engine : Engine) (state : CouncilState) : CouncilProgram CouncilState :=
  match engine with
  | .autogen => do
    let output ← attempts (do seat_started; perform .arty) Settings.seat_max_attempts
    apply_scaffold state output
  | _ => prototype_step state

def _phase_b (engine : Engine) (state : CouncilState) : CouncilProgram EngineStep := do
  let state ← prototype engine state
  finish state (some .COMPLETED)

def _route (engine : Engine) (state : CouncilState) : CouncilProgram EngineStep :=
  match state.risk with
  | none => fail .engineError
  | some risk =>
    if risk.blocked then finish state (some .BLOCKED)
    else if risk.requires_approval then await_gate state
    else _phase_b engine state

/-- Strategy and audit. The tasks of a crew checkpoint one after the other; a team answers
    both before either is checkpointed. -/
def strategyAndAudit (engine : Engine) (state : CouncilState) : CouncilProgram CouncilState :=
  match engine with
  | .autogen => do
    let (strategy, output) ← attempts (do
      seat_started
      let strategy ← perform .george
      let output ← perform (.fable (policy_for state))
      return (strategy, output)) Settings.seat_max_attempts
    let state ← apply_strategy state strategy
    seat_started
    apply_audit state (merge_model_findings (policy_for state) output)
  | _ => do
    let state ← strategy_step state
    audit_step state

def _phase_a (engine : Engine) (state : CouncilState) : CouncilProgram EngineStep := do
  let state ← strategyAndAudit engine state
  _route engine state

def resume_phase (engine : Engine) (state : CouncilState) (decision : Decision) :
    CouncilProgram EngineStep := do
  let state := { state with decision := some (applied state decision) }
  if (applied state decision).approve then _phase_b engine state
  else finish state (some .REJECTED)

def recover_phase (engine : Engine) (state : CouncilState) : CouncilProgram EngineStep :=
  match state.terminal, state.decision, state.gate with
  | some terminal, _, _ => finish state (some terminal)
  | none, some decision, _ =>
    if decision.approve then _phase_b engine state else finish state (some .REJECTED)
  | none, none, some _ => await_gate state
  | none, none, none =>
    if state.strategy.isSome && state.risk.isSome then _route engine state
    else
      -- phase A is atomic: redo it from the start
      _phase_a engine { state with strategy := none, risk := none }

/-! ## The engine contract -/

/-- The state is that of the last checkpoint; an engine fails on the empty one. -/
def onState (state : Option CouncilState) (run : CouncilState → CouncilProgram EngineStep) :
    CouncilProgram EngineStep :=
  match state with
  | some state => run state
  | none => fail .engineError

def Engine.start (engine : Engine) (state : Option CouncilState) : CouncilProgram EngineStep :=
  onState state fun state =>
    match engine with
    | .langgraph => _run (.input state)
    | _ => _phase_a engine state

def Engine.resume (engine : Engine) (decision : Decision) (state : Option CouncilState) :
    CouncilProgram EngineStep :=
  match engine with
  | .langgraph => _run (.goOn (some decision))
  | _ => onState state fun state => resume_phase engine state decision

/-- The graph goes on from its own last checkpoint, and starts over when it has none. -/
def recover_graph (state : Option CouncilState) : CouncilProgram EngineStep := do
  match ← perform .get_state with
  | none => Engine.langgraph.start state
  | some native =>
    if native.interrupted then await_gate native.values
    else if native.next = .ended then finish native.values native.values.terminal
    else _run (.goOn none)

def Engine.recover (engine : Engine) (state : Option CouncilState) : CouncilProgram EngineStep :=
  match engine with
  | .langgraph => recover_graph state
  | _ => onState state fun state => recover_phase engine state

end

end Council
