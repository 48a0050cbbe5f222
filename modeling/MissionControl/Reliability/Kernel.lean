import MissionControl.Reliability.Store

/-! # The operations of the trust kernel

Each operation reads what it needs from the state, decides, and writes in one
transaction. Between its reads and its transaction other processes may write. -/

namespace Reliability

open Canonical (Value Sha256 canonical_hash)

/-- Raise a `ReliabilityError`. -/
def fail {α : Type} (code : String) : Trust α := .raise (.reliability code)

variable [Sha256]

/-- What a binding's hash is taken over. -/
def scopePayload (tenant_id project_id : String) : Value :=
  .dict [("tenant_id", .str tenant_id), ("project_id", .str project_id),
    ("protocol", .str "AMC-SCOPE-1")]

def bind_project (tenant_id project_id : String) : Trust TenantProjectBinding := do
  let created_at ← ask .utc_now
  let binding : TenantProjectBinding :=
    { tenant_id, project_id, created_at
      status := .ACTIVE
      binding_hash := canonical_hash (scopePayload tenant_id project_id)
      revoked_at := none }
  let state ← ask .state
  match state.bindings.find? project_id with
  | some current =>
    if current.tenant_id ≠ tenant_id ∧ current.status = .ACTIVE then
      fail "PROJECT_ALREADY_BOUND_TO_DIFFERENT_TENANT"
    else do
      ask (.transaction [.put_binding binding])
      pure binding
  | none => do
    ask (.transaction [.put_binding binding])
    pure binding

def assert_scope (tenant_id project_id : String) : Trust TenantProjectBinding := do
  let state ← ask .state
  match state.bindings.find? project_id with
  | none => fail "UNKNOWN_PROJECT_SCOPE"
  | some binding =>
    if binding.status ≠ .ACTIVE then
      fail "PROJECT_SCOPE_REVOKED"
    else if binding.tenant_id ≠ tenant_id then
      fail "CROSS_TENANT_ACCESS_DENIED"
    else if binding.binding_hash ≠ canonical_hash (scopePayload tenant_id project_id) then
      fail "PROJECT_SCOPE_BINDING_TAMPERED"
    else
      pure binding

/-- `sorted(refs)` -/
def sortRefs (refs : List String) : List String := refs.insertionSort (· ≤ ·)

def record_policy_decision (tenant_id project_id decision_id subject_ref action target
    policy_version : String) (policy_input : Value) (effect : PolicyEffect)
    (required_authority_refs evidence_refs : List String) : Trust PolicyDecisionRecord := do
  let _ ← assert_scope tenant_id project_id
  let input_hash := canonical_hash policy_input
  let payload : Value := .dict [("tenant_id", .str tenant_id), ("project_id", .str project_id),
    ("decision_id", .str decision_id), ("subject_ref", .str subject_ref),
    ("action", .str action), ("target", .str target), ("policy_version", .str policy_version),
    ("input_hash", .str input_hash), ("effect", .str effect.value),
    ("required_authority_refs", .list ((sortRefs required_authority_refs).map .str)),
    ("evidence_refs", .list ((sortRefs evidence_refs).map .str))]
  let decided_at ← ask .utc_now
  let record : PolicyDecisionRecord :=
    { decision_id, tenant_id, project_id, subject_ref, action, target, policy_version, input_hash,
      effect, decided_at
      required_authority_refs := sortRefs required_authority_refs
      evidence_refs := sortRefs evidence_refs
      decision_hash := canonical_hash payload }
  ask (.transaction [.put_policy record,
    .append_audit ⟨tenant_id, project_id, "policy_decision", decision_id, record.decision_hash⟩])
  pure record

/-- `require_policy`: what a decision asks of its caller. -/
def require_policy (record : PolicyDecisionRecord) (authority_refs : List String) : Trust Unit :=
  match record.effect with
  | .DENY => fail "POLICY_DENIED"
  | .ALLOW => pure ()
  | .REQUIRE_APPROVAL =>
    let missing := record.required_authority_refs.filter (· ∉ authority_refs)
    if missing = [] then pure ()
    else fail ("POLICY_AUTHORITY_REQUIRED:" ++ ",".intercalate (sortRefs missing))

variable [JsonTime]

def open_recovery_case (tenant_id project_id operation_id : String) (reason : RecoveryReason)
    (execution_ref observation_ref idempotency_key : Option String) (evidence_refs : List String) :
    Trust RecoveryCase := do
  let _ ← assert_scope tenant_id project_id
  let digest := canonical_hash (.dict [("tenant_id", .str tenant_id),
    ("project_id", .str project_id), ("operation_id", .str operation_id),
    ("reason", .str reason.value)])
  let recovery_id := "recovery-" ++ String.ofList (digest.toList.take 24)
  let state ← ask .state
  match state.recovery.find? recovery_id with
  | some existing => pure existing
  | none => do
    let created_at ← ask .utc_now
    let case : RecoveryCase :=
      { recovery_id, tenant_id, project_id, operation_id, reason, execution_ref, observation_ref,
        idempotency_key, evidence_refs, created_at
        status := .OPEN
        resolved_at := none }
    ask (.transaction [.put_recovery case,
      .append_audit ⟨tenant_id, project_id, "recovery_opened", recovery_id,
        canonical_hash case.model_dump⟩])
    pure case

/-- A key that is in use for another request opens a recovery case, on purpose,
    before it raises. -/
def claim_idempotency (tenant_id project_id idempotency_key operation_id : String)
    (request : Value) : Trust IdempotencyRecord := do
  let _ ← assert_scope tenant_id project_id
  let request_hash := canonical_hash request
  let state ← ask .state
  match state.idempotency.find? idempotency_key with
  | some existing =>
    if existing.tenant_id ≠ tenant_id ∨ existing.project_id ≠ project_id then
      fail "IDEMPOTENCY_SCOPE_CONFLICT"
    else if existing.operation_id ≠ operation_id ∨ existing.request_hash ≠ request_hash then do
      let _ ← open_recovery_case tenant_id project_id operation_id .IDEMPOTENCY_CONFLICT none none
        (some idempotency_key) [existing.request_hash, request_hash]
      fail "IDEMPOTENCY_CONFLICT"
    else
      pure existing
  | none => do
    let created_at ← ask .utc_now
    let updated_at ← ask .utc_now
    let record : IdempotencyRecord :=
      { idempotency_key, tenant_id, project_id, operation_id, request_hash, created_at, updated_at
        status := .CLAIMED
        result_ref := none }
    ask (.transaction [.put_idempotency record])
    pure record

def complete_idempotency (idempotency_key : String) (result_ref : Option String)
    (status : IdempotencyStatus) : Trust IdempotencyRecord := do
  let state ← ask .state
  match state.idempotency.find? idempotency_key with
  | none => fail "UNKNOWN_IDEMPOTENCY_KEY"
  | some current => do
    let updated_at ← ask .utc_now
    let updated := { current with status, result_ref, updated_at }
    ask (.transaction [.put_idempotency updated])
    pure updated

def enqueue_outbox (tenant_id project_id message_id topic : String) (payload : Value)
    (payload_ref idempotency_key : String) : Trust OutboxMessage := do
  let _ ← assert_scope tenant_id project_id
  let state ← ask .state
  let payload_hash := canonical_hash payload
  match state.outbox.find? message_id with
  | some existing =>
    if existing.payload_hash ≠ payload_hash ∨ existing.idempotency_key ≠ idempotency_key then
      fail "OUTBOX_MESSAGE_CONFLICT"
    else
      pure existing
  | none => do
    let created_at ← ask .utc_now
    let msg : OutboxMessage :=
      { message_id, tenant_id, project_id, topic, payload_hash, payload_ref, idempotency_key,
        created_at
        status := .PENDING
        attempts := 0
        claimed_by := none
        next_attempt_at := none
        delivered_at := none
        last_error := none }
    ask (.transaction [.put_outbox msg,
      .append_audit ⟨tenant_id, project_id, "outbox_enqueued", message_id, payload_hash⟩])
    pure msg

/-- What a claim writes. -/
def OutboxMessage.claimed (current : OutboxMessage) (worker_id : String) : OutboxMessage :=
  { current with status := .CLAIMED, claimed_by := some worker_id, attempts := current.attempts + 1 }

/-- What a failure mark writes. -/
def OutboxMessage.markedFailed (current : OutboxMessage) (error : String) : OutboxMessage :=
  { current with status := .FAILED, last_error := some error }

/-- What a delivery mark writes. -/
def OutboxMessage.markedDelivered (current : OutboxMessage) (now : Instant) : OutboxMessage :=
  { current with status := .DELIVERED, delivered_at := some now, last_error := none }

/-- The message is read outside the transaction that writes it. -/
def claim_outbox (message_id worker_id : String) : Trust OutboxMessage := do
  let state ← ask .state
  match state.outbox.find? message_id with
  | none => fail "UNKNOWN_OUTBOX_MESSAGE"
  | some current =>
    if current.status = .DELIVERED then
      pure current
    else if 3 ≤ current.attempts then
      fail "OUTBOX_RETRY_EXHAUSTED"
    else do
      ask (.transaction [.put_outbox (current.claimed worker_id)])
      pure (current.claimed worker_id)

def mark_outbox_delivered (message_id : String) : Trust OutboxMessage := do
  let state ← ask .state
  match state.outbox.find? message_id with
  | none => fail "UNKNOWN_OUTBOX_MESSAGE"
  | some current => do
    let delivered_at ← ask .utc_now
    ask (.transaction [.put_outbox (current.markedDelivered delivered_at),
      .append_audit ⟨current.tenant_id, current.project_id, "outbox_delivered", message_id,
        current.payload_hash⟩])
    pure (current.markedDelivered delivered_at)

/-- The mark is written whatever the message has become. -/
def mark_outbox_failed (message_id error : String) : Trust OutboxMessage := do
  let state ← ask .state
  match state.outbox.find? message_id with
  | none => fail "UNKNOWN_OUTBOX_MESSAGE"
  | some current => do
    ask (.transaction [.put_outbox (current.markedFailed error)])
    pure (current.markedFailed error)

/-- The fields of a receipt the reconciliation reads. -/
structure ExecutionReceipt where
  idempotency_key : String
  result_ref : Option String

structure ObservationReceipt where
  matchesExpected : Bool

/-- `execution.result_ref or operation_id` -/
def ExecutionReceipt.ref (execution : ExecutionReceipt) (operation_id : String) : String :=
  match execution.result_ref with
  | some ref => if ref = "" then operation_id else ref
  | none => operation_id

/-- The cases are opened one by one, each in its own transaction. -/
def reconcileEach (tenant_id project_id : String)
    (observations : List (String × ObservationReceipt)) :
    List (String × ExecutionReceipt) → Trust (List RecoveryCase)
  | [] => pure []
  | (operation_id, execution) :: rest => do
    match observations.lookup operation_id with
    | none => do
      let case ← open_recovery_case tenant_id project_id operation_id
        .EXECUTION_WITHOUT_OBSERVATION (some (execution.ref operation_id)) none
        (some execution.idempotency_key) []
      let created ← reconcileEach tenant_id project_id observations rest
      pure (case :: created)
    | some observation =>
      if observation.matchesExpected then
        reconcileEach tenant_id project_id observations rest
      else do
        let case ← open_recovery_case tenant_id project_id operation_id .OBSERVATION_MISMATCH
          (some (execution.ref operation_id)) (some operation_id) (some execution.idempotency_key)
          []
        let created ← reconcileEach tenant_id project_id observations rest
        pure (case :: created)

def reconcile_receipt_pairs (tenant_id project_id : String)
    (executions : List (String × ExecutionReceipt))
    (observations : List (String × ObservationReceipt)) : Trust (List RecoveryCase) := do
  let _ ← assert_scope tenant_id project_id
  reconcileEach tenant_id project_id observations executions

def resolve_recovery (tenant_id project_id recovery_id : String) (status : RecoveryStatus)
    (evidence_refs : List String) : Trust RecoveryCase := do
  if status = .OPEN then
    fail "RECOVERY_RESOLUTION_MUST_BE_TERMINAL"
  else do
    let _ ← assert_scope tenant_id project_id
    let state ← ask .state
    match state.recovery.find? recovery_id with
    | none => fail "UNKNOWN_RECOVERY_CASE"
    | some current =>
      if current.tenant_id ≠ tenant_id ∨ current.project_id ≠ project_id then
        fail "UNKNOWN_RECOVERY_CASE"
      else do
        let resolved_at ← ask .utc_now
        let updated : RecoveryCase :=
          { current with
            status
            evidence_refs := sortRefs (current.evidence_refs ++ evidence_refs).dedup
            resolved_at := some resolved_at }
        ask (.transaction [.put_recovery updated,
          .append_audit ⟨current.tenant_id, current.project_id, "recovery_resolved", recovery_id,
            canonical_hash updated.model_dump⟩])
        pure updated

/-! ## What reads the chain -/

/-- The loop over the checkpoints: the number and the hash the next one has to carry. -/
def verifyFrom (previous : String) (expected_seq : Nat) : List AuditCheckpoint → Bool
  | [] => true
  | item :: rest =>
    if item.seq ≠ expected_seq ∨ item.previous_hash ≠ previous then
      false
    else if canonical_hash item.payload ≠ item.checkpoint_hash then
      false
    else
      verifyFrom item.checkpoint_hash (expected_seq + 1) rest

def verify_audit_chain : Trust Bool := do
  let state ← ask .state
  pure (verifyFrom ZERO_HASH 1 state.audits)

structure ReliabilitySnapshot where
  tenant_id : String
  project_id : String
  policy_decisions : Nat
  pending_outbox : Nat
  open_recovery_cases : Nat
  audit_head_hash : String
  idempotency_claims : Nat

def snapshot (tenant_id project_id : String) : Trust ReliabilitySnapshot := do
  let _ ← assert_scope tenant_id project_id
  let state ← ask .state
  let audits := state.audits.filter fun a =>
    a.tenant_id = tenant_id ∧ a.project_id = project_id
  pure
    { tenant_id, project_id
      policy_decisions := state.policy_decisions.rows.countP fun p =>
        p.tenant_id = tenant_id ∧ p.project_id = project_id
      pending_outbox := state.outbox.rows.countP fun m =>
        m.tenant_id = tenant_id ∧ m.project_id = project_id ∧ m.status ≠ .DELIVERED
      open_recovery_cases := state.recovery.rows.countP fun r =>
        r.tenant_id = tenant_id ∧ r.project_id = project_id ∧ r.status = .OPEN
      audit_head_hash := (audits.getLast?.map AuditCheckpoint.checkpoint_hash).getD ZERO_HASH
      idempotency_claims := state.idempotency.rows.countP fun i =>
        i.tenant_id = tenant_id ∧ i.project_id = project_id }

end Reliability
