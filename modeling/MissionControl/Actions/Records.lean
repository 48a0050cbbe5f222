import MissionControl.Actions.Risk
import MissionControl.Canonical.Hash

/-! # The records of the action plane

One structure per table, with the columns the modelled code reads or decides on.
Timestamps are microseconds since the epoch: their stored form, a UTC text of
fixed width, has the same order. A fresh `uuid4` is the next unused number. -/

namespace Actions

open Canonical (Value)

/-- A point in time, in microseconds. -/
abbrev Moment := Nat

def SECOND : Nat := 1000000

/-- `iso(moment)`, as a value to be hashed. -/
def iso (m : Moment) : Value := .int m

structure Principal where
  user_id : String
  tenant_id : String
  role : String
  allowed_project_ids : List String

def Principal.can_access_project (p : Principal) (project_id : String) : Bool :=
  "*" ∈ p.allowed_project_ids || project_id ∈ p.allowed_project_ids

/-! ## Errors -/

inductive AdapterErrorKind where
  | ArgsInvalid | ToolUnavailable | TransientBeforeEffect | PermanentFailure | OutcomeUnknown
  | CompensationUnsupported
  deriving DecidableEq

/-- The name of the exception class. -/
def AdapterErrorKind.name : AdapterErrorKind → String
  | ArgsInvalid => "ArgsInvalid"
  | ToolUnavailable => "ToolUnavailable"
  | TransientBeforeEffect => "TransientBeforeEffect"
  | PermanentFailure => "PermanentFailure"
  | OutcomeUnknown => "OutcomeUnknown"
  | CompensationUnsupported => "CompensationUnsupported"

def AdapterErrorKind.code : AdapterErrorKind → String
  | ArgsInvalid => "ARGS_INVALID"
  | ToolUnavailable => "TOOL_UNAVAILABLE"
  | TransientBeforeEffect => "TRANSIENT_BEFORE_EFFECT"
  | PermanentFailure => "PERMANENT_FAILURE"
  | OutcomeUnknown => "OUTCOME_UNKNOWN"
  | CompensationUnsupported => "COMPENSATION_UNSUPPORTED"

/-- The subclasses of `GatewayError`. -/
inductive GatewayErrorKind where
  | GatewayError | LiveGated | Frozen | NotDispatchable | InvalidRequest
  deriving DecidableEq

def GatewayErrorKind.status : GatewayErrorKind → Nat
  | GatewayError => 409 | LiveGated => 409 | Frozen => 423 | NotDispatchable => 409
  | InvalidRequest => 422

inductive ScopeKind where
  | ACTION | PROJECT | CLIENT | TENANT_DAY | TENANT_MONTH
  deriving DecidableEq

def ScopeKind.value : ScopeKind → String
  | ACTION => "ACTION" | PROJECT => "PROJECT" | CLIENT => "CLIENT" | TENANT_DAY => "TENANT_DAY"
  | TENANT_MONTH => "TENANT_MONTH"

/-- A ceiling a requested amount would exceed. -/
structure Breach where
  scope_kind : ScopeKind
  scope_ref : String
  ceiling_minor : Nat
  used_minor : Nat
  requested_minor : Nat

inductive ActionError where
  | ActionNotFound (id : String)
  | ActionConflict (detail : String)
  | BudgetExceeded (code : String) (breaches : List Breach)
  | ValueError (detail : String)
  | AttributeError (detail : String)
  | LookupError (detail : String)
  | ActionForbidden (detail : String)
  | DependencyInvalid (detail : String)
  | Gateway (kind : GatewayErrorKind) (code detail : String)
  | Adapter (kind : AdapterErrorKind) (detail : String)
  /-- A constraint of the database refused the write. -/
  | IntegrityError (detail : String)

/-! ## Arguments -/

/-- The arguments of the gateway's own adapters. -/
inductive ActionArgs where
  | fetch (url purpose : String)
  | draft (site path title body : String)
  | publish (site path title body : String)
  | email (recipients : List String) (subject body : String)
  | spend (campaign : String) (amount_minor : Nat) (currency : String)
  | delete (asset_refs : List String)
  | grant (user_ref role : String)
  deriving DecidableEq

/-- `validated.model_dump(mode="json")`. -/
def ActionArgs.model_dump : ActionArgs → Value
  | fetch url purpose => .dict [("url", .str url), ("purpose", .str purpose)]
  | draft site path title body => .dict
      [("site", .str site), ("path", .str path), ("title", .str title), ("body", .str body)]
  | publish site path title body => .dict
      [("site", .str site), ("path", .str path), ("title", .str title), ("body", .str body)]
  | email recipients subject body => .dict
      [("to", .list (recipients.map .str)), ("subject", .str subject), ("body", .str body)]
  | spend campaign amount currency => .dict
      [("campaign", .str campaign), ("amount_minor", .int amount), ("currency", .str currency)]
  | delete assets => .dict [("asset_refs", .list (assets.map .str))]
  | grant user role => .dict [("user_ref", .str user), ("role", .str role)]

/-! ## Action requests -/

/-- What an approval of an action is about. -/
inductive Subject where
  | ACTION_EXECUTION | ACTION_SPEND | ACTION_GOVERNANCE
  deriving DecidableEq

def Subject.value : Subject → String
  | ACTION_EXECUTION => "ACTION_EXECUTION"
  | ACTION_SPEND => "ACTION_SPEND"
  | ACTION_GOVERNANCE => "ACTION_GOVERNANCE"

/-- Everything an approval is bound to. -/
structure ApprovalBinding where
  capability_ref : String
  descriptor_hash : String
  tenant_id : String
  project_id : String
  environment : Environment
  target_ref : String
  payload_hash : String
  dependency_hashes : List (String × String)
  policy_version : String
  effective_class : RiskClass
  cost_minor : Nat
  currency : Option String
  expires_at : Moment
  approval_subjects : List Subject

/-- The columns no update may change: identity, arguments, risk and binding. -/
structure ActionIdentity where
  action_id : String
  tenant_id : String
  project_id : String
  client_id : Option String
  capability_id : String
  environment : Environment
  actor_ref : String
  target_ref : String
  args : ActionArgs
  payload_hash : String
  dependency_hashes : List (String × String)
  policy_version : String
  risk : RiskAssessment
  effective_class : RiskClass
  binding : ApprovalBinding
  binding_hash : String
  idempotency_key : String
  request_hash : String
  created_at : Moment
  expires_at : Moment

/-- Where a compensation of a completed action stands. -/
inductive CompensationStatus where
  | UNCONFIRMED | CONFIRMED
  deriving DecidableEq

/-- What a completed action came to. -/
structure Outcome where
  label : String
  provider_ref : Option Nat
  observed_state : Option String
  observed_payload_hash : Option String
  observed_cost_minor : Nat
  budget_committed : Bool
  compensation : Option CompensationStatus

/-- The columns of `_MUTABLE`. -/
structure MutableColumns where
  run_id : Option String
  approval_id : Option Nat
  financial_approval_id : Option Nat
  budget_reservation_id : Option Nat
  attempts : Nat
  reconcile_attempts : Nat
  lease_owner : Option String
  lease_expires_at : Option Moment
  retry_eligible : Bool
  reasons : List String
  outcome : Option Outcome

structure ActionRow extends ActionIdentity, MutableColumns where
  state : ActionState
  version : Nat
  updated_at : Moment

/-- The `updates` of a transition: a column that is `none` is left as it is. -/
structure Updates where
  run_id : Option (Option String) := none
  approval_id : Option (Option Nat) := none
  financial_approval_id : Option (Option Nat) := none
  budget_reservation_id : Option (Option Nat) := none
  attempts : Option Nat := none
  reconcile_attempts : Option Nat := none
  lease_owner : Option (Option String) := none
  lease_expires_at : Option (Option Moment) := none
  retry_eligible : Option Bool := none
  reasons : Option (List String) := none
  outcome : Option (Option Outcome) := none

def Updates.apply (u : Updates) (c : MutableColumns) : MutableColumns where
  run_id := u.run_id.getD c.run_id
  approval_id := u.approval_id.getD c.approval_id
  financial_approval_id := u.financial_approval_id.getD c.financial_approval_id
  budget_reservation_id := u.budget_reservation_id.getD c.budget_reservation_id
  attempts := u.attempts.getD c.attempts
  reconcile_attempts := u.reconcile_attempts.getD c.reconcile_attempts
  lease_owner := u.lease_owner.getD c.lease_owner
  lease_expires_at := u.lease_expires_at.getD c.lease_expires_at
  retry_eligible := u.retry_eligible.getD c.retry_eligible
  reasons := u.reasons.getD c.reasons
  outcome := u.outcome.getD c.outcome

/-- One entry of `action_transitions`. `evidence` is what the column returns. -/
structure TransitionEntry where
  action_id : String
  tenant_id : String
  from_state : Option ActionState
  to_state : ActionState
  actor : String
  reason : String
  evidence : Value
  prev_hash : Option String
  entry_hash : String
  created_at : Moment

/-! ## Budget -/

structure BudgetPolicy where
  policy_id : String
  tenant_id : String
  scope_kind : ScopeKind
  scope_ref : String
  currency : String
  ceiling_minor : Nat

inductive ReservationStatus where
  | RESERVED | COMMITTED | RELEASED | EXPIRED | REFUNDED
  deriving DecidableEq

structure Reservation where
  reservation_id : Nat
  tenant_id : String
  project_id : String
  client_id : Option String
  action_id : String
  currency : String
  amount_minor : Nat
  committed_minor : Option Nat
  status : ReservationStatus
  expires_at : Moment
  created_at : Moment
  updated_at : Moment

/-! ## Provider effects -/

/-- One row of the sandbox provider's store. `action_id` is the entry of that
    name in its `body`. -/
structure Effect where
  effect_id : Nat
  tenant_id : String
  provider : String
  operation : OperationKind
  idempotency_key : String
  target_ref : String
  payload_hash : String
  state : String
  cost_minor : Nat
  currency : Option String
  action_id : String
  created_at : Moment
  updated_at : Moment

/-! ## Approvals, freezes and registries -/

inductive ApprovalStatus where
  | pending | resolved | stale
  deriving DecidableEq

inductive Decision where
  | approve | reject
  deriving DecidableEq

structure Approval where
  approval_id : Nat
  run_id : String
  tenant_id : String
  project_id : String
  subject_type : String
  subject_ref : String
  subject_hash : Option String
  status : ApprovalStatus
  decision : Option Decision
  reviewer : Option String
  created_at : Moment
  decided_at : Option Moment

inductive FreezeScope where
  | TENANT | PROJECT
  deriving DecidableEq

structure Freeze where
  freeze_id : Nat
  tenant_id : String
  scope_kind : FreezeScope
  scope_ref : String
  frozen_by : String
  lifted_by : Option String

/-- The head of an artifact another action may depend on. -/
structure ArtifactHead where
  ref : String
  project_id : String
  version : Nat
  content_hash : Option String

end Actions
