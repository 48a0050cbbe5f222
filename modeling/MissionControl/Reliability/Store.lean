import MissionControl.Canonical.Hash
import MissionControl.Interleaving.Pool
import MissionControl.Relational.Table

/-! # The records of the trust kernel and their store

Six kinds of records, five of them keyed, and the audit checkpoints, a list. The
store reads the whole state at once and writes in transactions: a transaction that
raises at any of its statements leaves the state as it was. -/

namespace Reliability

open Canonical (Value Sha256 canonical_hash)
open Interleaving (Interface Exec Program)
open Relational (Table)

/-- A moment in microseconds. -/
abbrev Instant : Type := Int

/-- How pydantic writes a moment in JSON. -/
class JsonTime where
  json_datetime : Instant → String

/-! ## Records -/

inductive BindingStatus where
  | ACTIVE | REVOKED
  deriving DecidableEq

structure TenantProjectBinding where
  tenant_id : String
  project_id : String
  status : BindingStatus
  binding_hash : String
  created_at : Instant
  revoked_at : Option Instant

inductive PolicyEffect where
  | ALLOW | DENY | REQUIRE_APPROVAL
  deriving DecidableEq

def PolicyEffect.value : PolicyEffect → String
  | ALLOW => "ALLOW"
  | DENY => "DENY"
  | REQUIRE_APPROVAL => "REQUIRE_APPROVAL"

structure PolicyDecisionRecord where
  decision_id : String
  tenant_id : String
  project_id : String
  subject_ref : String
  action : String
  target : String
  policy_version : String
  input_hash : String
  effect : PolicyEffect
  required_authority_refs : List String
  evidence_refs : List String
  decision_hash : String
  decided_at : Instant

inductive IdempotencyStatus where
  | CLAIMED | SUCCEEDED | FAILED | AMBIGUOUS
  deriving DecidableEq

structure IdempotencyRecord where
  idempotency_key : String
  tenant_id : String
  project_id : String
  operation_id : String
  request_hash : String
  status : IdempotencyStatus
  result_ref : Option String
  created_at : Instant
  updated_at : Instant

inductive OutboxStatus where
  | PENDING | CLAIMED | DELIVERED | FAILED
  deriving DecidableEq

structure OutboxMessage where
  message_id : String
  tenant_id : String
  project_id : String
  topic : String
  payload_hash : String
  payload_ref : String
  idempotency_key : String
  status : OutboxStatus
  attempts : Nat
  claimed_by : Option String
  next_attempt_at : Option Instant
  delivered_at : Option Instant
  last_error : Option String
  created_at : Instant
  deriving DecidableEq

structure AuditCheckpoint where
  seq : Nat
  tenant_id : String
  project_id : String
  event_type : String
  object_ref : String
  payload_hash : String
  previous_hash : String
  checkpoint_hash : String
  created_at : Instant

inductive RecoveryStatus where
  | OPEN | RECONCILED | COMPENSATED | ESCALATED
  deriving DecidableEq

def RecoveryStatus.value : RecoveryStatus → String
  | OPEN => "OPEN"
  | RECONCILED => "RECONCILED"
  | COMPENSATED => "COMPENSATED"
  | ESCALATED => "ESCALATED"

inductive RecoveryReason where
  | EXECUTION_WITHOUT_OBSERVATION | OBSERVATION_MISMATCH | AMBIGUOUS_EXTERNAL_RESULT
  | IDEMPOTENCY_CONFLICT
  deriving DecidableEq

def RecoveryReason.value : RecoveryReason → String
  | EXECUTION_WITHOUT_OBSERVATION => "EXECUTION_WITHOUT_OBSERVATION"
  | OBSERVATION_MISMATCH => "OBSERVATION_MISMATCH"
  | AMBIGUOUS_EXTERNAL_RESULT => "AMBIGUOUS_EXTERNAL_RESULT"
  | IDEMPOTENCY_CONFLICT => "IDEMPOTENCY_CONFLICT"

structure RecoveryCase where
  recovery_id : String
  tenant_id : String
  project_id : String
  operation_id : String
  reason : RecoveryReason
  execution_ref : Option String
  observation_ref : Option String
  idempotency_key : Option String
  status : RecoveryStatus
  evidence_refs : List String
  created_at : Instant
  resolved_at : Option Instant

/-- `case.model_dump(mode="json")` -/
def RecoveryCase.model_dump [JsonTime] (case : RecoveryCase) : Value :=
  let text : Option String → Value := fun s => s.elim .none .str
  .dict [("recovery_id", .str case.recovery_id), ("tenant_id", .str case.tenant_id),
    ("project_id", .str case.project_id), ("operation_id", .str case.operation_id),
    ("reason", .str case.reason.value), ("execution_ref", text case.execution_ref),
    ("observation_ref", text case.observation_ref),
    ("idempotency_key", text case.idempotency_key), ("status", .str case.status.value),
    ("evidence_refs", .list (case.evidence_refs.map .str)),
    ("created_at", .str (JsonTime.json_datetime case.created_at)),
    ("resolved_at", text (case.resolved_at.map JsonTime.json_datetime))]

structure ReliabilityState where
  bindings : Table TenantProjectBinding String TenantProjectBinding.project_id
  policy_decisions : Table PolicyDecisionRecord String PolicyDecisionRecord.decision_id
  idempotency : Table IdempotencyRecord String IdempotencyRecord.idempotency_key
  outbox : Table OutboxMessage String OutboxMessage.message_id
  audits : List AuditCheckpoint
  recovery : Table RecoveryCase String RecoveryCase.recovery_id

def ReliabilityState.empty : ReliabilityState := ⟨.empty, .empty, .empty, .empty, [], .empty⟩

/-- What the kernel and its store raise: `ReliabilityError`, `ReliabilityStoreError`,
    and whatever the database or the process raises on its own. -/
inductive TrustError where
  | reliability (code : String)
  | store (text : String)
  | fault
  deriving DecidableEq

/-! ## The audit chain -/

def ZERO_HASH : String := String.ofList (List.replicate 64 '0')

variable [Sha256]

/-- What a checkpoint's hash is taken over. -/
def AuditCheckpoint.payload (item : AuditCheckpoint) : Value :=
  .dict [("seq", .int item.seq), ("tenant_id", .str item.tenant_id),
    ("project_id", .str item.project_id), ("event_type", .str item.event_type),
    ("object_ref", .str item.object_ref), ("payload_hash", .str item.payload_hash),
    ("previous_hash", .str item.previous_hash)]

/-- The event a checkpoint is to record. -/
structure AuditEvent where
  tenant_id : String
  project_id : String
  event_type : String
  object_ref : String
  payload_hash : String

/-- The checkpoint that follows the ones there are. -/
def _next_audit (state : ReliabilityState) (now : Instant) (e : AuditEvent) : AuditCheckpoint :=
  let item : AuditCheckpoint :=
    { seq := state.audits.length + 1
      tenant_id := e.tenant_id
      project_id := e.project_id
      event_type := e.event_type
      object_ref := e.object_ref
      payload_hash := e.payload_hash
      previous_hash := (state.audits.getLast?.map AuditCheckpoint.checkpoint_hash).getD ZERO_HASH
      checkpoint_hash := ""
      created_at := now }
  { item with checkpoint_hash := canonical_hash item.payload }

/-! ## Transactions -/

/-- A statement of a transaction. A checkpoint is computed inside the transaction
    that appends it, from the state read there. -/
inductive Write where
  | put_binding (value : TenantProjectBinding)
  | put_policy (value : PolicyDecisionRecord)
  | put_idempotency (value : IdempotencyRecord)
  | put_outbox (value : OutboxMessage)
  | append_audit (e : AuditEvent)
  | put_recovery (value : RecoveryCase)

/-- `append_audit`: the sequence number has to be the next one. -/
def append_audit (tx : ReliabilityState) (value : AuditCheckpoint) :
    Except TrustError ReliabilityState :=
  let expected := (tx.audits.getLast?.map fun last => last.seq + 1).getD 1
  if value.seq ≠ expected then
    .error (.store "audit sequence discontinuity")
  else
    .ok { tx with audits := tx.audits ++ [value] }

/-- One statement: `read` is the state as it was read inside the transaction, `tx`
    the transaction's own. -/
def Write.apply (read tx : ReliabilityState) (now : Instant) :
    Write → Except TrustError ReliabilityState
  | .put_binding value => .ok { tx with bindings := tx.bindings.put value }
  | .put_policy value =>
    if (tx.policy_decisions.find? value.decision_id).isSome then
      .error (.store "policy decision immutable")
    else
      .ok { tx with policy_decisions := tx.policy_decisions.put value }
  | .put_idempotency value => .ok { tx with idempotency := tx.idempotency.put value }
  | .put_outbox value => .ok { tx with outbox := tx.outbox.put value }
  | .append_audit e => Reliability.append_audit tx (_next_audit read now e)
  | .put_recovery value => .ok { tx with recovery := tx.recovery.put value }

/-- The statements one after the other. The statement numbered `fault` raises, and
    after the last one the commit may. -/
def applyAll (read : ReliabilityState) (now : Instant) :
    Option Nat → ReliabilityState → List Write → Except TrustError ReliabilityState
  | some 0, _, _ => .error .fault
  | _, tx, [] => .ok tx
  | fault, tx, x :: rest => do
    let tx ← x.apply read tx now
    applyAll read now (fault.map (· - 1)) tx rest

/-- A transaction: all of its statements, or none. -/
def transaction (s : ReliabilityState) (now : Instant) (fault : Option Nat) (writes : List Write) :
    Except TrustError ReliabilityState :=
  applyAll s now fault s writes

/-! ## The calls of the kernel -/

inductive Call where
  | state
  | utc_now
  | transaction (writes : List Write)
  | authorize_delivery (message : OutboxMessage)
  | handler (message : OutboxMessage)

abbrev Call.Resp : Call → Type
  | state => ReliabilityState
  | utc_now => Instant
  | transaction _ => Unit
  | authorize_delivery _ => Bool
  | handler _ => Option String

abbrev TrustCalls : Interface where
  Call := Call
  Resp := Call.Resp
  Err := TrustError

/-- What the outside decides about a call: the clock, the statement that raises,
    and what the injected authority and a topic's handler answer. -/
structure Outcome where
  now : Instant
  fault : Option Nat
  authorized : Bool
  handled : Except TrustError (Option String)

/-- What a call does. -/
def exec : Exec TrustCalls ReliabilityState Outcome := fun c o s =>
  match c with
  | .state => if o.fault.isSome then .error .fault else .ok (s, s)
  | .utc_now => .ok (o.now, s)
  | .transaction writes => (transaction s o.now o.fault writes).map fun s' => ((), s')
  | .authorize_delivery _ => if o.fault.isSome then .error .fault else .ok (o.authorized, s)
  | .handler _ => o.handled.map fun result_ref => (result_ref, s)

variable {s' read tx : ReliabilityState} {now : Instant} {fault : Option Nat}

theorem applyAll_cons {x : Write} {rest : List Write} (h : applyAll read now fault tx (x :: rest) = .ok s') :
    ∃ tx', x.apply read tx now = .ok tx' ∧ applyAll read now (fault.map (· - 1)) tx' rest = .ok s' := by
  have hstep : fault ≠ some 0 → applyAll read now fault tx (x :: rest) =
      (x.apply read tx now).bind fun tx => applyAll read now (fault.map (· - 1)) tx rest := by
    intro hfault
    match fault with
    | some 0 => exact absurd rfl hfault
    | some (_ + 1) => rfl
    | none => rfl
  have hfault : fault ≠ some 0 := by
    rintro rfl
    cases h
  rw [hstep hfault] at h
  cases hx : x.apply read tx now with
  | error e =>
    rw [hx] at h
    cases h
  | ok tx' =>
    rw [hx] at h
    exact ⟨tx', rfl, h⟩

theorem applyAll_nil (h : applyAll read now fault tx [] = .ok s') : s' = tx := by
  match fault with
  | some 0 => cases h
  | some (_ + 1) =>
    cases h
    rfl
  | none =>
    cases h
    rfl

theorem after_eq_self {c : Call} (hc : ∀ writes, c ≠ .transaction writes) (o : Outcome)
    (s : ReliabilityState) : exec.after c o s = s := by
  unfold Exec.after
  split
  · rename_i r s' heq
    cases c with
    | transaction writes => exact absurd rfl (hc writes)
    | utc_now =>
      cases heq
      rfl
    | state =>
      simp only [exec] at heq
      split at heq <;> cases heq
      rfl
    | authorize_delivery message =>
      simp only [exec] at heq
      split at heq <;> cases heq
      rfl
    | handler message =>
      simp only [exec] at heq
      cases hh : o.handled with
      | error e =>
        rw [hh] at heq
        cases heq
      | ok result_ref =>
        rw [hh] at heq
        cases heq
        rfl
  · rfl

theorem after_transaction (writes : List Write) (o : Outcome) (s : ReliabilityState) :
    (∃ e, exec.answer (.transaction writes) o s = .error e ∧ exec.after (.transaction writes) o s = s) ∨
    ∃ s', transaction s o.now o.fault writes = .ok s' ∧ exec.answer (.transaction writes) o s = .ok () ∧
      exec.after (.transaction writes) o s = s' := by
  cases h : transaction s o.now o.fault writes with
  | error e =>
    have hexec : exec (.transaction writes) o s = .error e := by simp [exec, h, Except.map]
    exact .inl ⟨e, congrArg (Except.map Prod.fst) hexec, Exec.after_of_error hexec⟩
  | ok s' =>
    have hexec : exec (.transaction writes) o s = .ok ((), s') := by simp [exec, h, Except.map]
    exact .inr ⟨s', rfl, congrArg (Except.map Prod.fst) hexec, Exec.after_of_ok hexec⟩

/-- A program of the kernel. -/
abbrev Trust (α : Type) : Type := Program TrustCalls α

/-- Make one call. -/
abbrev ask (c : Call) : Trust (Call.Resp c) := .perform (I := TrustCalls) c

end Reliability
