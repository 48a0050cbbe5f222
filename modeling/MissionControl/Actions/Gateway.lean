import MissionControl.Actions.Broker

/-! # The execution gateway

The operations on actions, as programs over the calls of `Actions.Calls`. Every
database transaction is one call, so whatever the source does between two of them
can be interrupted by any other worker, or never happen. -/

namespace Actions

open Canonical (Value Sha256 canonical_hash)
open Gateway (perform fromExcept)

variable [Sha256] [Deployment]

def MAX_TTL_SECONDS : Int := 7 * 24 * 3600
def DEFAULT_TTL_SECONDS : Int := 24 * 3600
def LEASE_SLACK_SECONDS : Nat := 60
def MAX_RECONCILE_ATTEMPTS : Nat := 3

def HOUR : Nat := 3600 * SECOND

/-! ## Moving an action -/

/-- The call `_move` makes: a compare-and-set from the row as it was read. -/
def moveArgs (row : ActionRow) (to_state : ActionState) (actor reason : String)
    (evidence : List (String × Value)) (updates : Updates) (now : Moment) : TransitionArgs where
  action_id := row.action_id
  expected_version := row.version
  expected_states := [row.state]
  to_state := to_state
  actor := actor
  reason := reason
  evidence := some (.dict evidence)
  updates := updates
  now := some now

def _move (row : ActionRow) (to_state : ActionState) (actor reason : String)
    (evidence : List (String × Value)) (updates : Updates) (now : Moment) : Gateway ActionRow :=
  perform (.transition (moveArgs row to_state actor reason evidence updates now))

def _release_budget (row : ActionRow) (status : ReservationStatus) : Gateway Unit := do
  match row.budget_reservation_id with
  | none => pure ()
  | some id =>
    match ← perform (.get_reservation id) with
    | none => pure ()
    | some r =>
      if r.status = .RESERVED then
        let _ ← perform (.settle_reservation { reservation_id := r.reservation_id, status })
      else pure ()

/-! ## The provider -/

structure EffectContext where
  tenant_id : String
  project_id : String
  action_id : String
  effect_key : String
  environment : Environment
  target_ref : String
  payload_hash : String

def _ctx (row : ActionRow) : EffectContext where
  tenant_id := row.tenant_id
  project_id := row.project_id
  action_id := row.action_id
  effect_key := effect_key row.tenant_id row.binding.capability_ref row.target_ref
    row.payload_hash row.idempotency_key
  environment := row.environment
  target_ref := row.target_ref
  payload_hash := row.payload_hash

structure DispatchReceipt where
  provider_ref : Nat
  returned_state : String
  deduplicated : Bool
  stamp : Moment

structure Observation where
  found : Bool
  state : Option String := none
  payload_hash : Option String := none
  cost_minor : Nat := 0
  currency : Option String := none
  provider_ref : Option Nat := none
  target_ref : Option String := none

def optStr : Option String → Value
  | some s => .str s
  | none => .none

def effectRef (id : Nat) : Value := .str s!"sbx-{id}"

def DispatchReceipt.dump (r : DispatchReceipt) : Value :=
  .dict [("provider_ref", effectRef r.provider_ref), ("returned_state", .str r.returned_state),
    ("deduplicated", .bool r.deduplicated), ("simulated", .bool true), ("at", iso r.stamp)]

def Observation.dump (o : Observation) : Value :=
  .dict [("found", .bool o.found), ("state", optStr o.state),
    ("payload_hash", optStr o.payload_hash), ("cost_minor", .int o.cost_minor),
    ("currency", optStr o.currency),
    ("provider_ref", match o.provider_ref with | some id => effectRef id | none => .none),
    ("method", .str "sandbox read-back by effect key"), ("simulated", .bool true),
    ("detail", .dict (match o.target_ref with | some t => [("target_ref", .str t)] | none => []))]

/-- The request `execute` makes to the provider. -/
def putArgs (a : Adapter) (ctx : EffectContext) (args : ActionArgs) : PutArgs where
  tenant_id := ctx.tenant_id
  provider := a.provider
  operation := a.profile.operation
  idempotency_key := ctx.effect_key
  target_ref := ctx.target_ref
  payload_hash := ctx.payload_hash
  state := a.expected_state
  action_id := ctx.action_id
  cost_minor := (a.estimate args).amount_minor
  currency := (a.estimate args).currency

namespace Adapter

def _require_sandbox (ctx : EffectContext) : Except ActionError Unit :=
  if ctx.environment ≠ .SANDBOX then
    .error (.Adapter .ToolUnavailable
      s!"sandbox adapter refuses environment {ctx.environment.value}")
  else .ok ()

def execute (a : Adapter) (ctx : EffectContext) (args : ActionArgs) :
    Gateway DispatchReceipt := do
  if !reachable args then
    throw (.Adapter .ToolUnavailable
      "NO_NETWORK_IN_SANDBOX: only documentation fixtures are served")
  else
    fromExcept (_require_sandbox ctx)
    match ← perform .fault with
    | some .transient_before_effect =>
      throw (.Adapter .TransientBeforeEffect "simulated failure before any effect")
    | some .permanent => throw (.Adapter .PermanentFailure "simulated provider rejection")
    | some .timeout_before_effect =>
      throw (.Adapter .OutcomeUnknown "simulated timeout; the effect was not made")
    | fault =>
      let (effect, created) ← perform (.sandbox_put (putArgs a ctx args))
      if fault = some .timeout_after_effect then
        throw (.Adapter .OutcomeUnknown "simulated timeout after the effect was made")
      else
        let stamp ← perform .clock
        pure ⟨effect.effect_id, effect.state, !created, stamp⟩

/-- What `observe` makes of the effect it reads. -/
def observation (fault : Option Fault) : Option Effect → Observation
  | none => { found := false }
  | some e =>
    { found := true
      state := some (if fault = some .observe_mismatch then "TAMPERED" else e.state)
      payload_hash := some e.payload_hash
      cost_minor := e.cost_minor
      currency := e.currency
      provider_ref := some e.effect_id
      target_ref := some e.target_ref }

def observe (a : Adapter) (ctx : EffectContext) : Gateway Observation := do
  fromExcept (_require_sandbox ctx)
  match ← perform .fault with
  | some .observe_unreachable =>
    throw (.Adapter .ToolUnavailable "simulated: the provider could not be read")
  | fault =>
    let effect ← perform (.sandbox_get ctx.tenant_id a.provider ctx.effect_key)
    pure (observation fault effect)

def compensate (a : Adapter) (ctx : EffectContext) : Gateway Observation := do
  match a.compensation with
  | none => throw (.Adapter .CompensationUnsupported s!"{a.id} has no compensation")
  | some (from_state, to_state) =>
    fromExcept (_require_sandbox ctx)
    match ← perform (.sandbox_get ctx.tenant_id a.provider ctx.effect_key) with
    | none =>
      throw (.Adapter .CompensationUnsupported "nothing to compensate: no effect was found")
    | some e =>
      if e.state = from_state then
        let _ ← perform (.sandbox_set_state e.effect_id to_state from_state)
        a.observe ctx
      else a.observe ctx

end Adapter

/-! ## Proposing -/

/-- A request for an action, as it comes in. -/
structure ProposeArgs where
  capability_id : String
  project_id : String
  environment : String
  args : ActionArgs
  idempotency_key : String
  dependency_refs : List String := []
  requested_class : Option String := none
  data_class : Option String := none
  ttl_seconds : Int := DEFAULT_TTL_SECONDS

def ApprovalBinding.doc (b : ApprovalBinding) : Value :=
  .dict
    [("binding_version", .str "amc-action-binding/v1"), ("capability_ref", .str b.capability_ref),
     ("descriptor_hash", .str b.descriptor_hash), ("tenant_id", .str b.tenant_id),
     ("project_id", .str b.project_id), ("environment", .str b.environment.value),
     ("target_ref", .str b.target_ref), ("payload_hash", .str b.payload_hash),
     ("dependency_hashes", .list (b.dependency_hashes.map fun x => .list [.str x.1, .str x.2])),
     ("policy_version", .str b.policy_version), ("effective_class", .str b.effective_class.value),
     ("cost_minor", .int b.cost_minor), ("currency", optStr b.currency),
     ("expires_at", iso b.expires_at),
     ("approval_subjects", .list (b.approval_subjects.map fun s => .str s.value))]

def _binding_hash (b : ApprovalBinding) : String := canonical_hash b.doc

/-- The member of an enumeration with this value; no text is no member. -/
def parseOptional {α : Type} (all : List α) (value : α → String) (code : String) :
    Option String → Except ActionError (Option α)
  | none | some "" => .ok none
  | some s =>
    match all.find? (value · = s) with
    | some a => .ok (some a)
    | none => .error (.Gateway .InvalidRequest code s)

def parseEnvironment (s : String) : Except ActionError Environment :=
  match [Environment.LOCAL, .SANDBOX, .LIVE].find? (·.value = s) with
  | some env => .ok env
  | none => .error (.Gateway .InvalidRequest "UNKNOWN_ENVIRONMENT" s)

def _facts (a : Adapter) (args : ActionArgs) (environment : Environment)
    (requested_class : Option RiskClass) (data_class : Option DataClass) : RiskFacts :=
  let profile := a.profile
  let rf := a.request_facts args
  { operation := profile.operation
    environment := environment
    data_class := match data_class with
      | some d => if profile.data_class.rank < d.rank then d else profile.data_class
      | none => profile.data_class
    cost_minor := (a.estimate args).amount_minor
    currency := (a.estimate args).currency
    reversibility := profile.reversibility
    audience := profile.audience
    external := profile.external
    notifies := profile.notifies || rf.notifies
    blast_radius := rf.blast_radius
    scopes := sortedSet (profile.scopes ++ rf.scopes)
    dependents := 0
    requested_class := requested_class }

/-- What `_plan` decides about a request. -/
structure Plan where
  descriptor : ActionDescriptor
  adapter : Adapter
  validated : ActionArgs
  env : Environment
  deps : List (String × String)
  risk : RiskAssessment
  autonomy : AutonomyLevel
  blockers : List String
  subjects : List Subject
  expires : Moment
  target_ref : String
  payload_hash : String
  binding : ApprovalBinding
  flags : List String
  dependency_refs : List String
  ttl : Nat

def stepUpBlocker : String :=
  "STEP_UP_UNAVAILABLE: step-up authentication is not implemented in this deployment"

def autonomyBlocker (level : AutonomyLevel) : String :=
  s!"AUTONOMY_CEILING: this project allows up to {level.auto_ceiling.value} without a person " ++
    s!"({level.value}); raise it to REQUEST_APPROVAL to ask for approval"

/-- May the action run without a person at this autonomy level? -/
def autoOk (risk : RiskAssessment) (level : AutonomyLevel) : Bool :=
  risk.effective.rank ≤ level.auto_ceiling.rank && !risk.requires_approval

/-- The plan for a validated request. -/
def makePlan (principal : Principal) (q : ProposeArgs) (d : ActionDescriptor) (a : Adapter)
    (env : Environment) (validated : ActionArgs) (deps : List (String × String))
    (risk : RiskAssessment) (level : AutonomyLevel) (now : Moment) : Plan :=
  let blockers :=
    (if risk.requires_step_up then [stepUpBlocker] else []) ++
    (if !autoOk risk level ∧ level ≠ .REQUEST_APPROVAL then [autonomyBlocker level] else [])
  let subjects :=
    if autoOk risk level ∨ blockers ≠ [] then [] else required_subjects risk true
  let ttl := (max 60 (min q.ttl_seconds MAX_TTL_SECONDS)).toNat
  let target_ref := Adapter.target_ref validated
  let payload_hash := canonical_hash validated.model_dump
  { descriptor := d
    adapter := a
    validated := validated
    env := env
    deps := deps
    risk := risk
    autonomy := level
    blockers := blockers
    subjects := subjects
    expires := now + ttl * SECOND
    target_ref := target_ref
    payload_hash := payload_hash
    binding :=
      { capability_ref := d.ref
        descriptor_hash := d.descriptor_hash
        tenant_id := principal.tenant_id
        project_id := q.project_id
        environment := env
        target_ref := target_ref
        payload_hash := payload_hash
        dependency_hashes := deps
        policy_version := RISK_POLICY_VERSION
        effective_class := risk.effective
        cost_minor := (a.estimate validated).amount_minor
        currency := (a.estimate validated).currency
        expires_at := now + ttl * SECOND
        approval_subjects := subjects }
    flags := Deployment.injection_flags q.args.model_dump
    dependency_refs := sortedSet q.dependency_refs
    ttl := ttl }

/-- A project whose client is not active starts no action. -/
def requireActiveClient (project_id : String) : Gateway Unit := do
  match ← perform (.client_for_project project_id) with
  | none | some "" => pure ()
  | some client_id =>
    match ← perform (.get_client client_id) with
    | none => pure ()
    | some status =>
      if status ≠ "ACTIVE" then
        throw (.Gateway .GatewayError "CLIENT_NOT_ACTIVE"
          s!"the client is {status}: no new actions start")
      else pure ()

/-- The checks on a request that need only the request and the catalogue. -/
def checkRequest (q : ProposeArgs) (d : ActionDescriptor) (env : Environment) :
    Except ActionError (Adapter × ActionArgs) :=
  if env = .LIVE then .error (.Gateway .LiveGated "LIVE_GATED" "LIVE execution is disabled")
  else do
    let a ← _adapter_for d
    if env ∉ d.environments then
      throw (.Gateway .InvalidRequest "ENVIRONMENT_NOT_SUPPORTED"
        s!"{d.id} runs in {listText (d.environments.map (·.value))}")
    else if Deployment.has_secrets q.args.model_dump then
      throw (.Gateway .InvalidRequest "SECRET_IN_PAYLOAD"
        "secrets must be referenced from protected storage, never sent in a payload")
    else
      match a.validate q.args with
      | .ok validated => pure (a, validated)
      | .error (.Adapter .ArgsInvalid detail) =>
        throw (.Gateway .InvalidRequest "ARGS_INVALID" detail)
      | .error e => throw e

def _plan (principal : Principal) (q : ProposeArgs) (now : Moment) : Gateway Plan := do
  let d ← fromExcept (catalog_get q.capability_id)
  let env ← fromExcept (parseEnvironment q.environment)
  authorize_scope principal q.project_id true
  requireActiveClient q.project_id
  let (a, validated) ← fromExcept (checkRequest q d env)
  match ← (resolve_dependencies q.project_id q.dependency_refs).attempt with
  | .error (.DependencyInvalid detail) =>
    throw (.Gateway .InvalidRequest "DEPENDENCY_INVALID" detail)
  | .error e => throw e
  | .ok deps =>
    let requested ← fromExcept (parseOptional RiskClass.all (·.value) "UNKNOWN_CLASSIFICATION"
      q.requested_class)
    let data_class ← fromExcept (parseOptional
      [DataClass.PUBLIC, .INTERNAL, .CONFIDENTIAL, .RESTRICTED] (·.value) "UNKNOWN_CLASSIFICATION"
      q.data_class)
    let risk := assess (_facts a validated env requested data_class)
    let level ← autonomy q.project_id
    pure (makePlan principal q d a env validated deps risk level now)

def pairs (deps : List (String × String)) : Value :=
  .list (deps.map fun x => .list [.str x.1, .str x.2])

def Plan.request_hash (p : Plan) (q : ProposeArgs) : String :=
  canonical_hash (.dict
    [("capability", .str p.descriptor.ref), ("project", .str q.project_id),
     ("environment", .str p.env.value), ("payload", .str p.payload_hash),
     ("dependency_refs", .list (p.dependency_refs.map .str)),
     ("requested_class", optStr q.requested_class), ("data_class", optStr q.data_class),
     ("ttl", .int p.ttl)])

def actionId (tenant_id idempotency_key : String) : String :=
  "act-" ++ Adapter.hashPrefix 32
    (.dict [("tenant", .str tenant_id), ("key", .str idempotency_key)])

/-- The row `propose` inserts. -/
def Plan.row (p : Plan) (principal : Principal) (q : ProposeArgs) (client_id : Option String)
    (moment : Moment) : ActionRow where
  action_id := actionId principal.tenant_id q.idempotency_key
  tenant_id := principal.tenant_id
  project_id := q.project_id
  client_id := client_id
  capability_id := p.descriptor.id
  environment := p.env
  actor_ref := principal.user_id
  target_ref := p.target_ref
  args := p.validated
  payload_hash := p.payload_hash
  dependency_hashes := p.deps
  policy_version := RISK_POLICY_VERSION
  risk := p.risk
  effective_class := p.risk.effective
  binding := p.binding
  binding_hash := _binding_hash p.binding
  idempotency_key := q.idempotency_key
  request_hash := p.request_hash q
  created_at := moment
  expires_at := p.expires
  run_id := none
  approval_id := none
  financial_approval_id := none
  budget_reservation_id := none
  attempts := 0
  reconcile_attempts := 0
  lease_owner := none
  lease_expires_at := none
  retry_eligible := false
  reasons := []
  outcome := none
  state := .PROPOSED
  version := 1
  updated_at := moment

def strs (ss : List String) : Value := .list (ss.map .str)

/-- The steps of `propose` after the row is in PREPARED. -/
def proposePrepared (principal : Principal) (p : Plan) (row : ActionRow) (moment : Moment) :
    Gateway ActionRow := do
  let run_id := approval_run_id row.action_id
  match p.blockers with
  | blocker :: _ =>
    _move row .BLOCKED principal.user_id blocker []
      { run_id := some (some run_id), reasons := some p.blockers } moment
  | [] =>
    if p.subjects ≠ [] then
      let ids ← open_approvals run_id row.action_id principal.tenant_id row.project_id
        row.binding_hash p.subjects
      _move row .AWAITING_APPROVAL principal.user_id "human approval required"
        [("approvals", .dict (ids.map fun x => (x.1.value, .int x.2)))]
        { run_id := some (some run_id)
          approval_id := some (ids.lookup .ACTION_EXECUTION)
          financial_approval_id := some (ids.lookup .ACTION_SPEND) } moment
    else
      _move row .AUTHORIZED principal.user_id
        (s!"within autonomy {p.autonomy.value} (≤ {p.autonomy.auto_ceiling.value}); " ++
          "no approval required")
        [] { run_id := some (some run_id) } moment

/-- The steps of `propose` after the row has been inserted. -/
def proposeInserted (principal : Principal) (p : Plan) (row : ActionRow) (moment : Moment) :
    Gateway ActionRow := do
  let row ← _move row .VALIDATED principal.user_id
    "args, scope, secrets and dependencies validated"
    [("injection_flags", strs p.flags), ("dependencies", pairs p.deps)] {} moment
  let row ← _move row .PREPARED principal.user_id "effect plan prepared"
    (p.adapter.prepare (_ctx row).target_ref (_ctx row).payload_hash) {} moment
  proposePrepared principal p row moment

def propose (principal : Principal) (q : ProposeArgs) (moment : Moment) :
    Gateway (ActionRow × Bool) := do
  if q.idempotency_key.length < 8 ∨ 200 < q.idempotency_key.length then
    throw (.Gateway .InvalidRequest "IDEMPOTENCY_KEY_REQUIRED" "8 to 200 characters")
  else
    let p ← _plan principal q moment
    match ← perform (.find_by_key principal.tenant_id q.idempotency_key) with
    | some existing =>
      if existing.request_hash ≠ p.request_hash q then
        throw (.Gateway .GatewayError "IDEMPOTENCY_KEY_REUSED"
          "the key was already used for a different request")
      else pure (existing, false)
    | none =>
      let client_id ← perform (.client_for_project q.project_id)
      let row := p.row principal q client_id moment
      match ← (perform (.insert_request row principal.user_id "proposed"
          (some (.dict [("binding_hash", .str row.binding_hash),
            ("risk", .str row.effective_class.value)])))).attempt with
      | .error (.ActionConflict detail) =>
        throw (.Gateway .GatewayError "IDEMPOTENCY_KEY_REUSED" detail)
      | .error e => throw e
      | .ok (row, false) => pure (row, false)
      | .ok (row, true) =>
        let row ← proposeInserted principal p row moment
        pure (row, true)

/-! ## Settling, cancelling, expiring -/

def ApprovalStatus.value : ApprovalStatus → String
  | .pending => "pending" | .resolved => "resolved" | .stale => "stale"

def Decision.value : Decision → String
  | .approve => "approve" | .reject => "reject"

def ApprovalSummary.dump (s : ApprovalSummary) : Value :=
  .dict
    [("subject", .str s.subject.value), ("approval_id", .int s.approval_id),
     ("status", .str s.status.value), ("decision", optStr (s.decision.map Decision.value)),
     ("reviewer", optStr s.reviewer),
     ("decided_at", match s.decided_at with | some m => iso m | none => .none),
     ("subject_hash", optStr s.subject_hash)]

/-- The evidence of a decision about approvals. -/
def approvalsEvidence (check : ApprovalCheck) : List (String × Value) :=
  [("approvals", .list (check.approvals.map ApprovalSummary.dump))]

/-- A reason that says the approvals can never match. -/
def unmatchable (reason : String) : Bool :=
  ["SELF_APPROVAL", "SCOPE_MISMATCH", "APPROVAL_MISSING"].any fun suffix =>
    suffix.toList.isSuffixOf reason.toList

/-- End a waiting action and mark its open approvals stale. -/
def closeWaiting (row : ActionRow) (to_state : ActionState) (actor reason : String)
    (check : ApprovalCheck) (moment : Moment) : Gateway ActionRow := do
  let row ← _move row to_state actor reason (approvalsEvidence check)
    { reasons := some check.reasons } moment
  stale_open_approvals row
  pure row

/-- The decision of `_settle` about a waiting action. -/
def settleWaiting (row : ActionRow) (actor : String) (check : ApprovalCheck) (moment : Moment) :
    Gateway ActionRow :=
  if check.rejected then
    closeWaiting row .REJECTED actor "an approver rejected the action" check moment
  else if check.expired then
    closeWaiting row .EXPIRED actor "approval window expired" check moment
  else if check.stale ∨ check.reasons.any unmatchable then
    closeWaiting row .BLOCKED actor "approval no longer matches this action" check moment
  else if check.satisfied then
    _move row .AUTHORIZED actor "every required approval matches the exact binding"
      (approvalsEvidence check) {} moment
  else if check.pending = [] then
    -- everything is decided, yet together it does not authorise the action
    _move row .BLOCKED actor "the decided approvals do not satisfy the policy"
      (approvalsEvidence check) { reasons := some check.reasons } moment
  else pure row

def _settle (action_id actor : String) (moment : Moment) : Gateway ActionRow := do
  match ← perform (.get_request action_id) with
  | none => throw (.LookupError "action not found")
  | some row =>
    if row.state ≠ .AWAITING_APPROVAL then pure row
    else
      let check ← check_approvals row moment
      settleWaiting row actor check moment

/-- Apply the decisions made on approvals. The loser of a race between two callers
    reads back what the winner wrote. -/
def settle (action_id actor : String) (moment : Moment) : Gateway ActionRow := do
  match ← (_settle action_id actor moment).attempt with
  | .ok row => pure row
  | .error (.ActionConflict detail) =>
    match ← perform (.get_request action_id) with
    | none => throw (.ActionConflict detail)
    | some row =>
      if row.state = .AWAITING_APPROVAL then throw (.ActionConflict detail) else pure row
  | .error e => throw e

/-- Read an action this principal may change. -/
def readForWrite (principal : Principal) (action_id : String) : Gateway ActionRow := do
  let found ← perform (.get_request action_id)
  let row ← fromExcept (visible principal found)
  authorize_scope principal row.project_id true
  pure row

def cancel (principal : Principal) (action_id reason : String) (moment : Moment) :
    Gateway ActionRow := do
  let row ← readForWrite principal action_id
  if row.state ∉ ActionState.PRE_DISPATCH then
    throw (.Gateway .NotDispatchable "NOT_CANCELLABLE"
      s!"an action in {row.state.value} can no longer be cancelled")
  else
    _release_budget row .RELEASED
    let row ← _move row .CANCELLED principal.user_id (if reason = "" then "cancelled" else reason)
      [] {} moment
    stale_open_approvals row
    pure row

/-- Expire one action. -/
def expireRow (row : ActionRow) (moment : Moment) : Gateway String := do
  _release_budget row .EXPIRED
  let row ← _move row .EXPIRED "system:gateway" "expired before dispatch" [] {} moment
  stale_open_approvals row
  pure row.action_id

/-- Whether a sweep looks at a row, and the check it makes before it changes it. -/
def sweepScope (principal : Option Principal) (row : ActionRow) : Gateway Bool := do
  match principal with
  | none => pure true
  | some p =>
    if !p.can_access_project row.project_id then pure false
    else
      authorize_scope p row.project_id true
      pure true

/-- The loop of `expire_due`. -/
def expireEach (principal : Option Principal) (moment : Moment) :
    List ActionRow → Gateway (List String)
  | [] => pure []
  | row :: rest => do
    if ← sweepScope principal row then
      match ← (expireRow row moment).attempt with
      | .ok id =>
        let others ← expireEach principal moment rest
        pure (id :: others)
      | .error (.ActionConflict _) => expireEach principal moment rest
      | .error e => throw e
    else expireEach principal moment rest

def EXPIRABLE : List ActionState := [.PREPARED, .AWAITING_APPROVAL, .AUTHORIZED, .RESERVED]

def expire_due (tenant_id : String) (principal : Option Principal) (moment : Moment) :
    Gateway (List String) := do
  if principal.any (·.tenant_id ≠ tenant_id) then
    throw (.ActionForbidden "tenant scope mismatch")
  else
    let rows ← perform (.expiring_before tenant_id moment EXPIRABLE)
    expireEach principal moment rows

/-! ## Preflight -/

/-- The reasons to block that need only the row and the clock. -/
def rowBlocks (row : ActionRow) (now : Moment) : List String :=
  (if row.environment = .LIVE then ["LIVE_GATED"] else []) ++
  (if _past now row.expires_at then ["ACTION_EXPIRED"] else []) ++
  (if row.policy_version ≠ RISK_POLICY_VERSION then
    [s!"POLICY_CHANGED: approved under {row.policy_version}, current {RISK_POLICY_VERSION}"]
  else []) ++
  (match catalog_get row.capability_id with
  | .ok d =>
    if d.ref ≠ row.binding.capability_ref ∨ d.descriptor_hash ≠ row.binding.descriptor_hash then
      ["CAPABILITY_CHANGED: the catalogue entry changed since the action was bound"]
    else []
  | .error _ => ["CAPABILITY_REMOVED"])

/-- The reasons to block the approvals give. -/
def approvalBlocks (check : ApprovalCheck) : List String :=
  if check.satisfied then []
  else if check.reasons ≠ [] then check.reasons.map ("APPROVAL:" ++ ·)
  else check.pending.map ("APPROVAL_PENDING:" ++ ·)

/-- The approvals of an action, or the autonomy it runs under: reasons to hold,
    and reasons to block. -/
def authorityReasons (row : ActionRow) (now : Moment) : Gateway (List String × List String) := do
  if row.binding.approval_subjects ≠ [] then
    let check ← check_approvals row now
    pure ([], approvalBlocks check)
  else
    let level ← autonomy row.project_id
    if level.auto_ceiling.rank < row.effective_class.rank then
      pure ([s!"AUTONOMY_CEILING_LOWERED: {level.value} now allows up to {level.auto_ceiling.value}"],
        [])
    else pure ([], [])

/-- What is unresolved elsewhere in the tenant holds a high-risk action. -/
def uncertaintyHolds (row : ActionRow) (now : Moment) : Gateway (List String) := do
  if RiskClass.R3.rank ≤ row.effective_class.rank then
    let blockers ← uncertainty row.tenant_id now
    pure (blockers.map ("UNCERTAINTY_DEBT:" ++ ·))
  else pure []

/-- Re-derive every fact. Returns the reasons to hold this dispatch and the
    reasons that end the action. -/
def preflight (row : ActionRow) (now : Moment) : Gateway (List String × List String) := do
  let frozen ← freeze_reasons row.tenant_id row.project_id
  let current ← current_dependencies row.project_id row.dependency_hashes
  let (authorityHold, authorityBlock) ← authorityReasons row now
  let uncertain ← uncertaintyHolds row now
  pure (frozen ++ authorityHold ++ uncertain,
    rowBlocks row now ++
    (if current ≠ row.dependency_hashes then
      ["DEPENDENCY_DRIFT: a dependency changed since the action was bound"] else []) ++
    authorityBlock ++
    (if row.risk.requires_step_up then ["STEP_UP_UNAVAILABLE"] else []))

/-! ## Completing -/

def _to_unknown (row : ActionRow) (reason actor : String) (observation : Option Observation)
    (now : Moment) : Gateway ActionRow :=
  _move row .UNKNOWN actor reason
    [("observation", match observation with | some o => o.dump | none => .none)]
    { lease_owner := some none, lease_expires_at := some none, reasons := some [reason] } now

def _matches (row : ActionRow) (obs : Observation) (expected : String) : Bool :=
  obs.found && obs.state = some expected && obs.payload_hash = some row.payload_hash

/-- Commit the observed cost of a verified action's reservation. -/
def commitBudget (row : ActionRow) (obs : Observation) : Gateway Bool := do
  match row.budget_reservation_id with
  | none => pure false
  | some id =>
    match ← perform (.get_reservation id) with
    | none => pure false
    | some r =>
      if r.status = .RESERVED then
        let _ ← perform (.settle_reservation
          { reservation_id := r.reservation_id, status := .COMMITTED
            committed_minor := some obs.cost_minor })
        pure true
      else pure false

def Observation.outcome (obs : Observation) (budget_committed : Bool) : Outcome where
  label := "SIMULATED"
  provider_ref := obs.provider_ref
  observed_state := obs.state
  observed_payload_hash := obs.payload_hash
  observed_cost_minor := obs.cost_minor
  budget_committed := budget_committed
  compensation := none

def _complete (row : ActionRow) (obs : Observation) (actor : String) (now : Moment) :
    Gateway ActionRow := do
  let row ← _move row .VERIFIED actor "independent read-back matches the expected effect"
    [("observation", obs.dump)] {} now
  let budget ← commitBudget row obs
  _move row .COMPLETED actor "completed and independently checked" []
    { lease_owner := some none, lease_expires_at := some none
      outcome := some (some (obs.outcome budget)), retry_eligible := some false } now

def _observe (row : ActionRow) (a : Adapter) (actor : String) (now : Moment) :
    Gateway ActionRow := do
  let _ ← fromExcept (a.validate row.args)
  match ← (a.observe (_ctx row)).attempt with
  | .error (.Adapter kind _) => _to_unknown row s!"OBSERVE_FAILED: {kind.code}" actor none now
  | .error e => throw e
  | .ok obs =>
    if _matches row obs a.expected_state then _complete row obs actor now
    else
      _to_unknown row "OBSERVATION_MISMATCH: the read-back does not match the expected effect" actor
        (some obs) now

/-! ## Dispatching -/

/-- The updates of a failure before any effect. -/
def failedBefore (row : ActionRow) (reasons : List String) : Updates :=
  { retry_eligible := some (decide (row.attempts < MAX_ATTEMPTS))
    lease_owner := some none, lease_expires_at := some none, reasons := some reasons
    budget_reservation_id := some none }

def _execute_and_observe (row : ActionRow) (a : Adapter) (actor : String) (now : Moment) :
    Gateway ActionRow := do
  let args ← fromExcept (a.validate row.args)
  match ← (a.execute (_ctx row) args).attempt with
  | .error (.Adapter .OutcomeUnknown detail) =>
    _to_unknown row s!"OUTCOME_UNKNOWN: {detail}" actor none now
  | .error (.Adapter .TransientBeforeEffect detail) =>
    _release_budget row .RELEASED
    _move row .FAILED actor s!"TRANSIENT_BEFORE_EFFECT: {detail}" []
      (failedBefore row ["TRANSIENT_BEFORE_EFFECT"]) now
  | .error (.Adapter kind detail) =>
    if kind = .PermanentFailure ∨ kind = .ToolUnavailable ∨ kind = .ArgsInvalid then
      _release_budget row .RELEASED
      _move row .FAILED actor s!"{kind.code}: {detail}" []
        { retry_eligible := some false, lease_owner := some none, lease_expires_at := some none
          reasons := some [kind.code] } now
    else throw (.Adapter kind detail)
  | .error e => throw e
  | .ok receipt =>
    let row ← _move row .OBSERVING actor "receipt persisted; reading back the provider state"
      [("receipt", receipt.dump)] {} now
    _observe row a actor now

/-- The reservation an action asks for: its bound cost, for an hour at most. -/
def reserveArgs (row : ActionRow) (currency : String) (moment : Moment) : ReserveArgs where
  tenant_id := row.tenant_id
  project_id := row.project_id
  client_id := row.client_id
  action_id := row.action_id
  currency := currency
  amount_minor := row.binding.cost_minor
  expires_at := min row.expires_at (moment + HOUR)
  now := moment

def Breach.dump (b : Breach) : Value :=
  .dict
    [("scope_kind", .str b.scope_kind.value), ("scope_ref", .str b.scope_ref),
     ("ceiling_minor", .int b.ceiling_minor), ("used_minor", .int b.used_minor),
     ("requested_minor", .int b.requested_minor)]

/-- Reserve the budget of an authorised spend. Returns the row, and whether the
    dispatch goes on. -/
def reserveSpend (row : ActionRow) (actor : String) (moment : Moment) :
    Gateway (ActionRow × Bool) := do
  if .R4 ∈ row.risk.classes ∧ row.state = .AUTHORIZED then
    match row.binding.currency with
    | none => throw (.AttributeError "'NoneType' object has no attribute 'upper'")
    | some currency =>
      match ← (perform (.reserve_budget (reserveArgs row currency moment))).attempt with
      | .error (.BudgetExceeded code breaches) =>
        let row ← _move row .BLOCKED actor code
          [("budget", .dict [("breaches", .list (breaches.map Breach.dump))])]
          { reasons := some [code] } moment
        pure (row, false)
      | .error e => throw e
      | .ok res =>
        let row ← _move row .RESERVED actor "budget reserved"
          [("reservation_id", .int res.reservation_id), ("amount_minor", .int res.amount_minor),
           ("currency", .str res.currency)]
          { budget_reservation_id := some (some res.reservation_id) } moment
        pure (row, true)
  else pure (row, true)

/-- Take the lease, then make the effect. -/
def dispatchLeased (principal : Principal) (row : ActionRow) (d : ActionDescriptor) (a : Adapter)
    (worker : String) (moment : Moment) : Gateway ActionRow := do
  match ← (_move row .DISPATCHING principal.user_id
      "lease taken; intent persisted before the effect"
      [("worker", .str worker), ("effect_key", .str (_ctx row).effect_key)]
      { lease_owner := some (some worker)
        lease_expires_at := some (some
          (moment + (d.timeout_seconds * 2 + LEASE_SLACK_SECONDS) * SECOND))
        attempts := some (row.attempts + 1) } moment).attempt with
  | .error (.ActionConflict detail) =>
    throw (.Gateway .NotDispatchable "ALREADY_DISPATCHING" detail)
  | .error e => throw e
  | .ok row => _execute_and_observe row a principal.user_id moment

/-- End an action that preflight blocks. -/
def dispatchBlocked (row : ActionRow) (block : List String) (actor : String) (moment : Moment) :
    Gateway ActionRow := do
  _release_budget row .RELEASED
  let row ← _move row (if block = ["ACTION_EXPIRED"] then .EXPIRED else .BLOCKED) actor
    (block.head?.getD "") [] { reasons := some block } moment
  stale_open_approvals row
  pure row

def isFreeze (reason : String) : Bool :=
  ["SYSTEM_FROZEN", "TENANT_FROZEN", "PROJECT_FROZEN"].any fun p =>
    p.toList.isPrefixOf reason.toList

/-- What follows preflight. -/
def dispatchChecked (principal : Principal) (row : ActionRow) (d : ActionDescriptor) (a : Adapter)
    (worker : String) (hold block : List String) (moment : Moment) : Gateway ActionRow := do
  if hold ≠ [] then
    if hold.any isFreeze then
      throw (.Gateway .Frozen "DISPATCH_FROZEN" ("; ".intercalate hold))
    else throw (.Gateway .NotDispatchable "HELD" ("; ".intercalate hold))
  else if block ≠ [] then dispatchBlocked row block principal.user_id moment
  else
    let (row, goesOn) ← reserveSpend row principal.user_id moment
    if goesOn then dispatchLeased principal row d a worker moment else pure row

/-- `dispatch` of a row that has been read. -/
def dispatchRow (principal : Principal) (row : ActionRow) (worker_id : Option String)
    (moment : Moment) : Gateway ActionRow := do
  if row.state ≠ .AUTHORIZED ∧ row.state ≠ .RESERVED then
    throw (.Gateway .NotDispatchable "NOT_DISPATCHABLE" s!"action is {row.state.value}")
  else
    let d ← fromExcept (catalog_get row.capability_id)
    let a ← fromExcept (_adapter_for d)
    let (hold, block) ← preflight row moment
    dispatchChecked principal row d a (worker_id.getD ("api:" ++ principal.user_id)) hold block
      moment

def dispatch (principal : Principal) (action_id : String) (worker_id : Option String)
    (moment : Moment) : Gateway ActionRow := do
  let row ← readForWrite principal action_id
  if row.state = .AWAITING_APPROVAL then
    let row ← settle action_id "system:gateway" moment
    dispatchRow principal row worker_id moment
  else dispatchRow principal row worker_id moment

/-! ## Reconciling and retrying -/

/-- What `reconcile` makes of the provider's answer. -/
def reconcileRead (row : ActionRow) (a : Adapter) (actor : String) (moment : Moment) :
    Gateway ActionRow := do
  let _ ← fromExcept (a.validate row.args)
  match ← (a.observe (_ctx row)).attempt with
  | .error (.Adapter kind _) =>
    if MAX_RECONCILE_ATTEMPTS ≤ row.reconcile_attempts then
      _move row .NEEDS_HUMAN actor s!"provider unreadable after {row.reconcile_attempts} attempts" []
        { lease_owner := some none, lease_expires_at := some none, reasons := some [kind.code] }
        moment
    else
      _move row .UNKNOWN actor s!"provider unreadable ({kind.code}); will try again" []
        { lease_owner := some none, lease_expires_at := some none } moment
  | .error e => throw e
  | .ok obs =>
    if _matches row obs a.expected_state then _complete row obs actor moment
    else if !obs.found then
      _release_budget row .RELEASED
      _move row .FAILED actor "NOT_APPLIED: the provider has no record of the effect"
        [("observation", obs.dump)] (failedBefore row ["NOT_APPLIED"]) moment
    else
      _move row .NEEDS_HUMAN actor
        "OBSERVATION_MISMATCH: the provider state differs from the bound effect"
        [("observation", obs.dump)]
        { lease_owner := some none, lease_expires_at := some none
          reasons := some ["OBSERVATION_MISMATCH"] } moment

/-- `reconcile` of a row that has been read. -/
def reconcileRow (row : ActionRow) (actor : String) (byPerson : Bool) (moment : Moment) :
    Gateway ActionRow := do
  if ¬ (row.state = .NEEDS_HUMAN ∧ byPerson = true) ∧ row.state ≠ .UNKNOWN then
    throw (.Gateway .NotDispatchable "NOT_RECONCILABLE" s!"action is {row.state.value}")
  else
    let d ← fromExcept (catalog_get row.capability_id)
    let a ← fromExcept (_adapter_for d)
    match ← (_move row .RECONCILING actor "reading provider state by effect key" []
        { lease_owner := some (some actor)
          lease_expires_at := some (some (moment + 120 * SECOND))
          reconcile_attempts := some (row.reconcile_attempts + 1) } moment).attempt with
    | .error (.ActionConflict detail) =>
      throw (.Gateway .NotDispatchable "ALREADY_RECONCILING" detail)
    | .error e => throw e
    | .ok row => reconcileRead row a actor moment

/-- Read-back of an unknown outcome. Never sends the effect again. -/
def reconcile (action_id : String) (principal : Option Principal) (moment : Moment) :
    Gateway ActionRow := do
  match principal with
  | some p =>
    let row ← readForWrite p action_id
    reconcileRow row p.user_id true moment
  | none =>
    match ← perform (.get_request action_id) with
    | none => throw (.LookupError "action not found")
    | some row => reconcileRow row "system:recovery" false moment

/-- The errors `except (ActionConflict, ValueError)` catches. -/
def isValueError : ActionError → Bool
  | .ActionConflict _ | .ValueError _ | .Gateway .. | .BudgetExceeded .. | .DependencyInvalid _ => true
  | _ => false

/-- The loop of `recover_stale`. -/
def recoverEach (principal : Option Principal) (moment : Moment) :
    List ActionRow → Gateway (List ActionRow)
  | [] => pure []
  | row :: rest => do
    if ← sweepScope principal row then
      match ← (_move row .UNKNOWN ((principal.map (·.user_id)).getD "system:recovery")
          "LEASE_EXPIRED: worker crashed mid-flight" []
          { lease_owner := some none, lease_expires_at := some none } moment).attempt with
      | .ok row =>
        let reconciled ← reconcile row.action_id principal moment
        let others ← recoverEach principal moment rest
        pure (reconciled :: others)
      | .error e => if isValueError e then recoverEach principal moment rest else throw e
    else recoverEach principal moment rest

def recover_stale (principal : Option Principal) (moment : Moment) : Gateway (List ActionRow) := do
  let candidates ← perform (.leased_past moment ActionState.LEASED (principal.map (·.tenant_id)))
  recoverEach principal moment candidates

def retry (principal : Principal) (action_id : String) (moment : Moment) : Gateway ActionRow := do
  let row ← readForWrite principal action_id
  if row.state ≠ .FAILED ∨ row.retry_eligible = false then
    throw (.Gateway .NotDispatchable "NOT_RETRYABLE"
      "only a failure known to have had no effect may be retried")
  else if MAX_ATTEMPTS ≤ row.attempts then
    throw (.Gateway .NotDispatchable "RETRY_LIMIT" s!"{MAX_ATTEMPTS} attempts used")
  else
    let _ ← _move row .AUTHORIZED principal.user_id "bounded retry of a failure with no effect" []
      { retry_eligible := some false, reasons := some [], budget_reservation_id := some none } moment
    dispatch principal action_id none moment

/-! ## Compensating -/

/-- The outcome of an action that has none yet. -/
def Outcome.blank : Outcome := ⟨"", none, none, none, 0, false, none⟩

/-- Refund the reservation of an action whose refund was observed. -/
def refundBudget (row : ActionRow) (obs : Observation) : Gateway Unit := do
  match row.budget_reservation_id with
  | none => pure ()
  | some id =>
    match ← perform (.get_reservation id) with
    | none => pure ()
    | some r =>
      if r.status = .COMMITTED ∧ obs.state = some "REFUNDED" then
        let _ ← perform (.settle_reservation
          { reservation_id := r.reservation_id, status := .REFUNDED, expected_status := .COMMITTED })
      else pure ()

/-- Record that a compensation's outcome is unconfirmed. -/
def compensateUnconfirmed (row : ActionRow) (actor error detail : String) : Gateway ActionRow := do
  let _ ← perform (.annotate
    { action_id := row.action_id, expected_version := row.version, actor
      reason := "compensation outcome unconfirmed: " ++ error
      evidence := .dict [("error", .str (String.ofList (detail.toList.take 500)))]
      outcome := { row.outcome.getD .blank with compensation := some .UNCONFIRMED } })
  throw (.Gateway .NotDispatchable "COMPENSATION_UNCONFIRMED"
    "the provider may have applied the compensation; run it again to read the provider back")

/-- What `compensate` does with the adapter's answer. -/
def compensateRow (row : ActionRow) (a : Adapter) (actor reason : String) : Gateway ActionRow := do
  match ← (a.compensate (_ctx row)).attempt with
  | .error (.Adapter .CompensationUnsupported detail) =>
    throw (.Gateway .NotDispatchable "COMPENSATION_UNSUPPORTED" detail)
  | .error (.Adapter kind detail) => compensateUnconfirmed row actor kind.name detail
  | .error e => throw e
  | .ok obs =>
    refundBudget row obs
    perform (.annotate
      { action_id := row.action_id, expected_version := row.version, actor
        reason := "compensated: " ++ reason
        evidence := .dict [("observation", obs.dump)]
        outcome := { row.outcome.getD .blank with compensation := some .CONFIRMED } })

def compensate (principal : Principal) (action_id reason : String) : Gateway ActionRow := do
  let row ← readForWrite principal action_id
  if role principal ∉ Deployment.approver_roles then
    throw (.ActionForbidden "compensation requires an approver role")
  else if principal.user_id = row.actor_ref then
    throw (.ActionForbidden "the requester cannot compensate their own action")
  else if row.state ≠ .COMPLETED then
    throw (.Gateway .NotDispatchable "NOT_COMPENSATABLE" s!"action is {row.state.value}")
  else
    let frozen ← freeze_reasons row.tenant_id row.project_id
    if frozen ≠ [] then
      throw (.Gateway .Frozen "DISPATCH_FROZEN" "compensation is a dispatch and is frozen too")
    else
      let d ← fromExcept (catalog_get row.capability_id)
      let a ← fromExcept (_adapter_for d)
      compensateRow row a principal.user_id reason

/-! ## The plane -/

/-- An operation with its arguments. Every operation reads the clock first. -/
inductive Operation where
  | propose (principal : Principal) (q : ProposeArgs)
  | settle (action_id : String)
  | cancel (principal : Principal) (action_id reason : String)
  | expire_due (tenant_id : String) (principal : Option Principal)
  | dispatch (principal : Principal) (action_id : String) (worker_id : Option String)
  | reconcile (action_id : String) (principal : Option Principal)
  | recover_stale (principal : Option Principal)
  | retry (principal : Principal) (action_id : String)
  | compensate (principal : Principal) (action_id reason : String)
  /-- A reservation that no dispatch asked for. -/
  | reserve_budget (a : ReserveArgs)

namespace Operation

/-- What the operation does once it has read the clock. -/
def body (moment : Moment) : Operation → Gateway Unit
  | propose principal q => (Actions.propose principal q moment).void
  | settle action_id => (Actions.settle action_id "system:gateway" moment).void
  | cancel principal action_id reason => (Actions.cancel principal action_id reason moment).void
  | expire_due tenant_id principal => (Actions.expire_due tenant_id principal moment).void
  | dispatch principal action_id worker_id =>
    (Actions.dispatch principal action_id worker_id moment).void
  | reconcile action_id principal => (Actions.reconcile action_id principal moment).void
  | recover_stale principal => (Actions.recover_stale principal moment).void
  | retry principal action_id => (Actions.retry principal action_id moment).void
  | compensate principal action_id reason => (Actions.compensate principal action_id reason).void
  | reserve_budget a => (perform (.reserve_budget { a with now := moment })).void

def program (op : Operation) : Gateway Unit := do
  let moment ← perform .clock
  op.body moment

/-- The operation is a reservation no dispatch asked for. -/
def Direct : Operation → Prop
  | reserve_budget _ => True
  | _ => False

end Operation

/-- The action plane, run by any number of workers. `direct` says whether budget
    may also be reserved outside a dispatch. -/
def plane (direct : Prop) : Interleaving.System Plane World (Option Fault) where
  exec := exec
  Starts p := ∃ op : Operation, (op.Direct → direct) ∧ p = op.program
  Env := Outside

end Actions
