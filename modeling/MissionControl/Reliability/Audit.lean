import MissionControl.Reliability.Kernel
import MissionControl.Interleaving.Alone
import MissionControl.Encoding.HashChain
import Mathlib.Data.List.Range

/-! # The audit chain and what a failed operation leaves

Operations follow one another, each of them alone with the store. A transaction
appends at most one checkpoint, the one that follows those it has read, so the chain
stays linked whatever the operations are. An operation that raises has written
nothing, since its one transaction comes last; two operations open recovery cases in
transactions of their own before they raise. -/

namespace Reliability

open Canonical (Value Sha256 canonical_hash)
open Interleaving
open Encoding (HashChain)

variable [Sha256]

/-! ## The chain -/

/-- The checkpoints as a hash chain. -/
def auditChain : HashChain AuditCheckpoint String where
  prev item := some item.previous_hash
  hash := AuditCheckpoint.checkpoint_hash
  digest item := canonical_hash item.payload

/-- The checkpoints are linked from the zero hash on, and numbered 1, 2, … -/
structure Chained (audits : List AuditCheckpoint) : Prop where
  linked : auditChain.Linked (some ZERO_HASH) audits
  numbered : audits.map AuditCheckpoint.seq = List.range' 1 audits.length

theorem Chained.nil : Chained [] := ⟨trivial, rfl⟩

theorem verifyFrom_iff {previous : String} {n : Nat} {audits : List AuditCheckpoint} :
    verifyFrom previous n audits = true ↔ auditChain.Linked (some previous) audits ∧
      audits.map AuditCheckpoint.seq = List.range' n audits.length := by
  induction audits generalizing previous n with
  | nil => simp [verifyFrom, HashChain.Linked]
  | cons item rest ih =>
    have hlinked : auditChain.Linked (some previous) (item :: rest) ↔
        item.previous_hash = previous ∧ canonical_hash item.payload = item.checkpoint_hash ∧
          auditChain.Linked (some item.checkpoint_hash) rest := by
      simp [HashChain.Linked, auditChain]
    rw [hlinked, List.map_cons, List.length_cons, List.range'_succ, List.cons.injEq]
    simp only [verifyFrom]
    split
    · rename_i h
      simp only [Bool.false_eq_true, false_iff]
      tauto
    · rename_i h
      rw [not_or, not_ne_iff, not_ne_iff] at h
      split
      · rename_i hhash
        simp only [Bool.false_eq_true, false_iff]
        tauto
      · rename_i hhash
        rw [not_ne_iff] at hhash
        rw [ih]
        tauto

variable {s : ReliabilityState}

theorem Chained.snoc (h : Chained s.audits) (now : Instant) (e : AuditEvent) :
    Chained (s.audits ++ [_next_audit s now e]) := by
  constructor
  · refine HashChain.linked_append.mpr ⟨h.linked, ?_, rfl⟩
    unfold auditChain HashChain.headFrom _next_audit
    cases s.audits.getLast? <;> rfl
  · rw [List.map_append, h.numbered, List.length_append, List.length_singleton, List.range'_concat,
      Nat.one_mul, Nat.add_comm 1]
    rfl

/-! ## What the head commits to -/

/-- Two checkpoints that agree in what is hashed, and in the hash; the time is not hashed. -/
def AuditCheckpoint.Agrees (e e' : AuditCheckpoint) : Prop := { e with created_at := e'.created_at } = e'

theorem agrees_of_digest (hash : Canonical.CollisionFree) {e e' : AuditCheckpoint}
    (hdigest : auditChain.digest e = auditChain.digest e') (hhash : auditChain.hash e = auditChain.hash e') :
    e.Agrees e' := by
  have hsame : e.payload.Same e'.payload := (Canonical.canonical_hash_eq_iff hash).mp hdigest
  rw [AuditCheckpoint.payload, AuditCheckpoint.payload,
    Canonical.same_dict_iff (by rfl) (by simp [List.nodup_cons])] at hsame
  simp only [List.map_cons, List.map_nil, List.cons.injEq, and_true, Value.normal, Value.str.injEq, Value.int.injEq,
    Int.ofNat_inj] at hsame
  obtain ⟨hseq, htenant, hproject, htype, href, hpayload, hprevious⟩ := hsame
  cases e
  cases e'
  cases hseq
  cases htenant
  cases hproject
  cases htype
  cases href
  cases hpayload
  cases hprevious
  cases hhash
  rfl

omit [Sha256] in
theorem seq_of_numbered {l : List AuditCheckpoint} {e : AuditCheckpoint}
    (h : (l ++ [e]).map AuditCheckpoint.seq = List.range' 1 (l ++ [e]).length) : e.seq = l.length + 1 := by
  rw [List.map_append, List.length_append, List.length_singleton, List.range'_concat, Nat.one_mul] at h
  have hlast := (List.append_inj' h rfl).2
  rw [List.map_singleton, List.singleton_inj] at hlast
  omega

/-- **The head commits to the audit**: two chains that verify and end in one hash have the same checkpoints, but for
    the times, which no hash is taken over. -/
theorem audit_head_commits (hash : Canonical.CollisionFree) {a b : List AuditCheckpoint}
    (ha : verifyFrom ZERO_HASH 1 a = true) (hb : verifyFrom ZERO_HASH 1 b = true)
    (hhead : a.getLast?.map (·.checkpoint_hash) = b.getLast?.map (·.checkpoint_hash)) :
    List.Forall₂ AuditCheckpoint.Agrees a b := by
  obtain ⟨hlinked, hnumbered⟩ := verifyFrom_iff.mp ha
  obtain ⟨hlinked', hnumbered'⟩ := verifyFrom_iff.mp hb
  -- the last checkpoint carries its number, and the number is hashed
  have hlength : a.length = b.length := by
    rcases List.eq_nil_or_concat a with rfl | ⟨a, e, rfl⟩ <;> rcases List.eq_nil_or_concat b with rfl | ⟨b, e', rfl⟩
    · rfl
    · simp at hhead
    · simp at hhead
    · rw [List.concat_eq_append] at hlinked hnumbered hlinked' hnumbered' hhead ⊢
      rw [List.concat_eq_append, List.length_append, List.length_append]
      have hhash : e.checkpoint_hash = e'.checkpoint_hash := by simpa using hhead
      have hdigest := (HashChain.linked_append.mp hlinked).2.2
      have hdigest' := (HashChain.linked_append.mp hlinked').2.2
      have hagrees : e.Agrees e' := agrees_of_digest hash (hdigest.trans (hhash.trans hdigest'.symm)) hhash
      have hseq : e.seq = e'.seq := by rw [← hagrees]
      rw [seq_of_numbered hnumbered, seq_of_numbered hnumbered'] at hseq
      simpa using hseq
  refine HashChain.forall₂_of_length (fun _ _ => agrees_of_digest hash) ?_ hlinked hlinked' hlength ?_
  · rintro e e' h
    rw [← h]
    rfl
  · show (Option.map _ _).or _ = (Option.map _ _).or _
    exact congrArg (Option.or · (some ZERO_HASH)) hhead

section
omit [Sha256]

/-- The checkpoint of a project that is bound, at an instant. -/
def boundAt (now : Instant) : AuditCheckpoint := @_next_audit Canonical.plainHash .empty now ⟨"t", "p", "bound", "p", "hash"⟩

/-- When the project was bound is not said. -/
theorem audit_head_commits_times : List.Forall₂ AuditCheckpoint.Agrees [boundAt 0] [boundAt 1] :=
  let _ := Canonical.plainHash
  have hverified : ∀ now, verifyFrom ZERO_HASH 1 [boundAt now] = true := fun now =>
    verifyFrom_iff.mpr ⟨(Chained.nil.snoc (s := .empty) now _).linked, rfl⟩
  audit_head_commits Canonical.plainHash_collisionFree (hverified 0) (hverified 1) rfl

end

/-! ## What a call does to the chain -/

/-- The checkpoints of `s`, or those and the one that follows them. -/
def Extends (s : ReliabilityState) (now : Instant) (audits : List AuditCheckpoint) : Prop :=
  audits = s.audits ∨ ∃ e, audits = s.audits ++ [_next_audit s now e]

variable {now : Instant} {tx : ReliabilityState}

theorem Extends.apply {tx' : ReliabilityState} {x : Write} (htx : Extends s now tx.audits)
    (h : x.apply s tx now = .ok tx') : Extends s now tx'.audits := by
  cases x with
  | put_policy value =>
    simp only [Write.apply] at h
    split at h <;> cases h
    exact htx
  | append_audit e =>
    simp only [Write.apply, Reliability.append_audit] at h
    split at h <;> cases h
    rename_i hseq
    rcases htx with htx | ⟨e', htx⟩
    · exact .inr ⟨e, congrArg (· ++ [_]) htx⟩
    · refine absurd ?_ hseq
      rw [htx, List.getLast?_concat]
      simp [_next_audit]
  | put_binding value => cases h; exact htx
  | put_idempotency value => cases h; exact htx
  | put_outbox value => cases h; exact htx
  | put_recovery value => cases h; exact htx

variable {s' : ReliabilityState}

theorem Extends.applyAll {fault : Option Nat} {writes : List Write} (htx : Extends s now tx.audits)
    (h : applyAll s now fault tx writes = .ok s') : Extends s now s'.audits := by
  induction writes generalizing tx fault with
  | nil =>
    rw [applyAll_nil h]
    exact htx
  | cons x rest ih =>
    obtain ⟨tx', hx, hrest⟩ := applyAll_cons h
    exact ih (htx.apply hx) hrest

theorem extends_after (c : Call) (o : Outcome) (s : ReliabilityState) :
    Extends s o.now (exec.after c o s).audits := by
  cases c with
  | transaction writes =>
    rcases after_transaction writes o s with ⟨e, -, hafter⟩ | ⟨s', htx, -, hafter⟩
    · rw [hafter]
      exact .inl rfl
    · rw [hafter]
      exact Extends.applyAll (.inl rfl) htx
  | _ =>
    rw [after_eq_self (by simp)]
    exact .inl rfl

theorem Chained.after (h : Chained s.audits) (c : Call) (o : Outcome) : Chained (exec.after c o s).audits := by
  rcases extends_after c o s with hs | ⟨e, hs⟩
  · rw [hs]
    exact h
  · rw [hs]
    exact h.snoc o.now e

theorem prefix_after (c : Call) (o : Outcome) (s : ReliabilityState) :
    s.audits <+: (exec.after c o s).audits := by
  rcases extends_after c o s with hs | ⟨e, hs⟩
  · exact hs ▸ List.prefix_rfl
  · exact hs ▸ List.prefix_append _ _

variable {α : Type}

theorem audits_prefix {p : Trust α} {r : Except TrustError α} (h : Alone exec p s r s') : s.audits <+: s'.audits :=
  h.invariant (P := fun t => s.audits <+: t.audits)
    (fun c o t ht => ht.trans (prefix_after c o t)) List.prefix_rfl

/-! ## Operations with one transaction -/

theorem quiet_of_ne {c : Call} (hc : ∀ writes, c ≠ .transaction writes) : Quiet exec (ask c) :=
  Quiet.perform fun o s => after_eq_self hc o s

theorem quiet_fail (code : String) : Quiet exec (fail code : Trust α) := Quiet.raise _

theorem quiet_state : Quiet exec (ask .state) := quiet_of_ne (by simp)

theorem quiet_utc_now : Quiet exec (ask .utc_now) := quiet_of_ne (by simp)

theorem quiet_assert_scope (tenant_id project_id : String) :
    Quiet exec (assert_scope tenant_id project_id) := by
  refine quiet_state.bind fun state => ?_
  split
  · exact quiet_fail _
  · split
    · exact quiet_fail _
    · split
      · exact quiet_fail _
      · split
        · exact quiet_fail _
        · exact Quiet.ret _

theorem allOrNothing_transaction (writes : List Write) (a : α) :
    AllOrNothing exec ((ask (.transaction writes)).bind fun _ => .ret a) :=
  AllOrNothing.commit fun _ _ _ h => Exec.after_of_answer_error h

theorem allOrNothing_bind_project (t p : String) : AllOrNothing exec (bind_project t p) := by
  refine .after quiet_utc_now fun created_at => .after quiet_state fun state => ?_
  split
  · split
    · exact (quiet_fail _).allOrNothing
    · exact allOrNothing_transaction _ _
  · exact allOrNothing_transaction _ _

theorem allOrNothing_record_policy_decision (t p id subject action target version : String)
    (input : Value) (effect : PolicyEffect) (required evidence : List String) :
    AllOrNothing exec (record_policy_decision t p id subject action target version input effect
      required evidence) :=
  .after (quiet_assert_scope t p) fun _ => .after quiet_utc_now fun _ => allOrNothing_transaction _ _

theorem quiet_require_policy (record : PolicyDecisionRecord) (refs : List String) :
    Quiet exec (require_policy record refs) := by
  unfold require_policy
  split
  · exact quiet_fail _
  · exact Quiet.ret _
  · dsimp only
    split
    · exact Quiet.ret _
    · exact quiet_fail _

theorem allOrNothing_complete_idempotency (key : String) (ref : Option String)
    (status : IdempotencyStatus) : AllOrNothing exec (complete_idempotency key ref status) := by
  refine .after quiet_state fun state => ?_
  split
  · exact (quiet_fail _).allOrNothing
  · exact .after quiet_utc_now fun _ => allOrNothing_transaction _ _

theorem allOrNothing_enqueue_outbox (t p id topic : String) (payload : Value) (ref key : String) :
    AllOrNothing exec (enqueue_outbox t p id topic payload ref key) := by
  refine .after (quiet_assert_scope t p) fun _ => .after quiet_state fun state => ?_
  dsimp only
  split
  · split
    · exact (quiet_fail _).allOrNothing
    · exact (Quiet.ret _).allOrNothing
  · exact .after quiet_utc_now fun _ => allOrNothing_transaction _ _

theorem allOrNothing_claim_outbox (id worker : String) : AllOrNothing exec (claim_outbox id worker) := by
  refine .after quiet_state fun state => ?_
  split
  · exact (quiet_fail _).allOrNothing
  · split
    · exact (Quiet.ret _).allOrNothing
    · split
      · exact (quiet_fail _).allOrNothing
      · exact allOrNothing_transaction _ _

theorem allOrNothing_mark_outbox_delivered (id : String) : AllOrNothing exec (mark_outbox_delivered id) := by
  refine .after quiet_state fun state => ?_
  split
  · exact (quiet_fail _).allOrNothing
  · exact .after quiet_utc_now fun _ => allOrNothing_transaction _ _

theorem allOrNothing_mark_outbox_failed (id error : String) :
    AllOrNothing exec (mark_outbox_failed id error) := by
  refine .after quiet_state fun state => ?_
  split
  · exact (quiet_fail _).allOrNothing
  · exact allOrNothing_transaction _ _

theorem quiet_verify_audit_chain : Quiet exec verify_audit_chain :=
  quiet_state.bind fun _ => Quiet.ret _

theorem quiet_snapshot (t p : String) : Quiet exec (snapshot t p) :=
  (quiet_assert_scope t p).bind fun _ => quiet_state.bind fun _ => Quiet.ret _

/-! ## Recovery cases -/

variable [JsonTime]

theorem allOrNothing_open_recovery_case (t p id : String) (reason : RecoveryReason)
    (execution observation key : Option String) (evidence : List String) :
    AllOrNothing exec (open_recovery_case t p id reason execution observation key evidence) := by
  refine .after (quiet_assert_scope t p) fun _ => .after quiet_state fun state => ?_
  dsimp only
  split
  · exact (Quiet.ret _).allOrNothing
  · exact .after quiet_utc_now fun _ => allOrNothing_transaction _ _

theorem allOrNothing_resolve_recovery (t p id : String) (status : RecoveryStatus)
    (evidence : List String) : AllOrNothing exec (resolve_recovery t p id status evidence) := by
  unfold resolve_recovery
  split
  · exact (quiet_fail _).allOrNothing
  · refine .after (quiet_assert_scope t p) fun _ => .after quiet_state fun state => ?_
    split
    · exact (quiet_fail _).allOrNothing
    · split
      · exact (quiet_fail _).allOrNothing
      · exact .after quiet_utc_now fun _ => allOrNothing_transaction _ _

/-- One new case was opened, with its checkpoint, and nothing else changed. -/
def Opens (tenant_id project_id operation_id : String) (reason : RecoveryReason)
    (s s' : ReliabilityState) : Prop :=
  ∃ (case : RecoveryCase) (now : Instant), case.tenant_id = tenant_id ∧
    case.project_id = project_id ∧ case.operation_id = operation_id ∧ case.reason = reason ∧
    case.status = .OPEN ∧ s.recovery.find? case.recovery_id = none ∧
    s' = { s with
      recovery := s.recovery.put case
      audits := s.audits ++ [_next_audit s now ⟨tenant_id, project_id, "recovery_opened",
        case.recovery_id, canonical_hash case.model_dump⟩] }

omit [JsonTime] in
theorem of_ask_state {t : ReliabilityState} (h : Alone exec (ask .state) s (.ok t) s') : t = s ∧ s' = s := by
  refine ⟨?_, quiet_state _ _ _ h⟩
  obtain ⟨o, hanswer, -⟩ := h.of_perform
  simp only [Exec.answer, exec] at hanswer
  split at hanswer
  · cases hanswer
  · cases hanswer
    rfl

variable {case : RecoveryCase}

omit [JsonTime] in
theorem recovery_transaction {e : AuditEvent}
    (h : Alone exec (ask (.transaction [.put_recovery case, .append_audit e])) s (.ok ()) s') :
    ∃ now, s' = { s with
      recovery := s.recovery.put case
      audits := s.audits ++ [_next_audit s now e] } := by
  obtain ⟨o, hanswer, hafter⟩ := h.of_perform
  rcases after_transaction _ o s with ⟨e', herror, -⟩ | ⟨s₁, htx, -, hs₁⟩
  · rw [herror] at hanswer
    cases hanswer
  · refine ⟨o.now, ?_⟩
    obtain ⟨tx, hput, hrest⟩ := applyAll_cons htx
    obtain ⟨tx', happend, hnil⟩ := applyAll_cons hrest
    cases hput
    simp only [Write.apply, Reliability.append_audit] at happend
    split at happend <;> cases happend
    rw [hafter, hs₁, applyAll_nil hnil]

variable {id t p : String}

variable {execution key observation : Option String} {evidence : List String} {reason : RecoveryReason}

theorem opens_of_open (h : Alone exec (open_recovery_case t p id reason execution observation key evidence) s
      (.ok case) s') : s' = s ∨ Opens t p id reason s s' := by
  rcases (quiet_assert_scope t p).of_bind h with ⟨e, he, -⟩ | ⟨binding, -, hread⟩
  · cases he
  rcases quiet_state.of_bind hread with ⟨e, he, -⟩ | ⟨state, hstate, hcase⟩
  · cases he
  obtain ⟨rfl, -⟩ := of_ask_state hstate
  split at hcase
  · exact .inl hcase.of_ret.2
  · rename_i hnone
    rcases quiet_utc_now.of_bind hcase with ⟨e, he, -⟩ | ⟨created_at, -, hwrite⟩
    · cases he
    rcases hwrite.of_bind with ⟨e, -, he⟩ | ⟨x, s₁, htx, hret⟩
    · cases he
    obtain ⟨hreturned, rfl⟩ := hret.of_ret
    obtain ⟨now, hs⟩ := recovery_transaction htx
    refine .inr ⟨case, now, ?_⟩
    cases hreturned
    exact ⟨rfl, rfl, rfl, rfl, rfl, hnone, hs⟩

variable {e : TrustError}

theorem claim_idempotency_error {key : String} {request : Value}
    (h : Alone exec (claim_idempotency t p key id request) s (.error e) s') :
    s' = s ∨ e = .reliability "IDEMPOTENCY_CONFLICT" ∧ Opens t p id .IDEMPOTENCY_CONFLICT s s' := by
  rcases (quiet_assert_scope t p).of_bind h with ⟨e', -, hs⟩ | ⟨binding, -, hread⟩
  · exact .inl hs
  rcases quiet_state.of_bind hread with ⟨e', -, hs⟩ | ⟨state, hstate, hclaim⟩
  · exact .inl hs
  split at hclaim
  · split at hclaim
    · exact .inl (quiet_fail _ _ _ _ hclaim)
    · split at hclaim
      · rcases hclaim.of_bind with ⟨e', hopen, -⟩ | ⟨case, s₁, hopen, hraise⟩
        · exact .inl (allOrNothing_open_recovery_case _ _ _ _ _ _ _ _ _ _ _ hopen)
        · obtain ⟨he, rfl⟩ := hraise.of_raise
          cases he
          exact (opens_of_open hopen).imp_right fun h => ⟨rfl, h⟩
      · exact .inl hclaim.of_ret.2
  · exact .inl (AllOrNothing.after quiet_utc_now (fun _ => AllOrNothing.after quiet_utc_now
      fun _ => allOrNothing_transaction _ _) _ _ _ hclaim)

/-- What the reconciliation of some pairs has written: at most one case for each, in
    their order. -/
def Reconciled (tenant_id project_id : String) :
    List (String × ExecutionReceipt) → ReliabilityState → ReliabilityState → Prop
  | [], s, s' => s' = s
  | (operation_id, _) :: rest, s, s' => ∃ s₁, (s₁ = s ∨
      Opens tenant_id project_id operation_id .EXECUTION_WITHOUT_OBSERVATION s s₁ ∨
      Opens tenant_id project_id operation_id .OBSERVATION_MISMATCH s s₁) ∧
    Reconciled tenant_id project_id rest s₁ s'

theorem opened_then_error {β : Type} {rest : Trust α} {f : RecoveryCase → α → β}
    (h : Alone exec ((open_recovery_case t p id reason execution observation key evidence).bind
      fun case => rest.bind fun created => .ret (f case created)) s (.error e) s') :
    s' = s ∨ ∃ s₁, (s₁ = s ∨ Opens t p id reason s s₁) ∧ Alone exec rest s₁ (.error e) s' := by
  rcases h.of_bind with ⟨e', hopen, -⟩ | ⟨case, s₁, hopen, hnext⟩
  · exact .inl (allOrNothing_open_recovery_case _ _ _ _ _ _ _ _ _ _ _ hopen)
  · rcases hnext.of_bind with ⟨e', hrest, he⟩ | ⟨created, s₂, -, hret⟩
    · cases he
      exact .inr ⟨s₁, opens_of_open hopen, hrest⟩
    · cases hret.of_ret.1

theorem reconcileEach_error {observations : List (String × ObservationReceipt)}
    {executions : List (String × ExecutionReceipt)}
    (h : Alone exec (reconcileEach t p observations executions) s (.error e) s') :
    ∃ earlier pair later, executions = earlier ++ pair :: later ∧ Reconciled t p earlier s s' := by
  induction executions generalizing s with
  | nil => cases h.of_ret.1
  | cons pair rest ih =>
    obtain ⟨operation_id, execution⟩ := pair
    -- the pairs after this one, from the state this one has left
    have hlater : ∀ s₁, (s₁ = s ∨ Opens t p operation_id .EXECUTION_WITHOUT_OBSERVATION s s₁ ∨
        Opens t p operation_id .OBSERVATION_MISMATCH s s₁) →
        Alone exec (reconcileEach t p observations rest) s₁ (.error e) s' →
        ∃ earlier pair later, (operation_id, execution) :: rest = earlier ++ pair :: later ∧
          Reconciled t p earlier s s' := by
      intro s₁ hs₁ hrest
      obtain ⟨earlier, pair, later, rfl, hdone⟩ := ih hrest
      exact ⟨_ :: earlier, pair, later, rfl, s₁, hs₁, hdone⟩
    unfold reconcileEach at h
    split at h
    · rcases opened_then_error h with hs | ⟨s₁, hs₁, hrest⟩
      · exact ⟨[], _, rest, rfl, hs⟩
      · exact hlater s₁ (hs₁.imp_right .inl) hrest
    · split at h
      · exact hlater s (.inl rfl) h
      · rcases opened_then_error h with hs | ⟨s₁, hs₁, hrest⟩
        · exact ⟨[], _, rest, rfl, hs⟩
        · exact hlater s₁ (hs₁.imp_right .inr) hrest

/-! ## The operations -/

/-- An operation of the kernel with its arguments. -/
inductive Operation where
  | bind_project (tenant_id project_id : String)
  | assert_scope (tenant_id project_id : String)
  | record_policy_decision (tenant_id project_id decision_id subject_ref action target
      policy_version : String) (policy_input : Value) (effect : PolicyEffect)
      (required_authority_refs evidence_refs : List String)
  | require_policy (record : PolicyDecisionRecord) (authority_refs : List String)
  | claim_idempotency (tenant_id project_id idempotency_key operation_id : String)
      (request : Value)
  | complete_idempotency (idempotency_key : String) (result_ref : Option String)
      (status : IdempotencyStatus)
  | enqueue_outbox (tenant_id project_id message_id topic : String) (payload : Value)
      (payload_ref idempotency_key : String)
  | claim_outbox (message_id worker_id : String)
  | mark_outbox_delivered (message_id : String)
  | mark_outbox_failed (message_id error : String)
  | open_recovery_case (tenant_id project_id operation_id : String) (reason : RecoveryReason)
      (execution_ref observation_ref idempotency_key : Option String)
      (evidence_refs : List String)
  | reconcile_receipt_pairs (tenant_id project_id : String)
      (executions : List (String × ExecutionReceipt))
      (observations : List (String × ObservationReceipt))
  | resolve_recovery (tenant_id project_id recovery_id : String) (status : RecoveryStatus)
      (evidence_refs : List String)
  | verify_audit_chain
  | snapshot (tenant_id project_id : String)

def Operation.program : Operation → Trust Unit
  | .bind_project t p => (Reliability.bind_project t p).void
  | .assert_scope t p => (Reliability.assert_scope t p).void
  | .record_policy_decision t p id subject action target version input effect required evidence =>
    (Reliability.record_policy_decision t p id subject action target version input effect required
      evidence).void
  | .require_policy record refs => Reliability.require_policy record refs
  | .claim_idempotency t p key id request => (Reliability.claim_idempotency t p key id request).void
  | .complete_idempotency key ref status => (Reliability.complete_idempotency key ref status).void
  | .enqueue_outbox t p id topic payload ref key =>
    (Reliability.enqueue_outbox t p id topic payload ref key).void
  | .claim_outbox id worker => (Reliability.claim_outbox id worker).void
  | .mark_outbox_delivered id => (Reliability.mark_outbox_delivered id).void
  | .mark_outbox_failed id error => (Reliability.mark_outbox_failed id error).void
  | .open_recovery_case t p id reason execution observation key evidence =>
    (Reliability.open_recovery_case t p id reason execution observation key evidence).void
  | .reconcile_receipt_pairs t p executions observations =>
    (Reliability.reconcile_receipt_pairs t p executions observations).void
  | .resolve_recovery t p id status evidence =>
    (Reliability.resolve_recovery t p id status evidence).void
  | .verify_audit_chain => Reliability.verify_audit_chain.void
  | .snapshot t p => (Reliability.snapshot t p).void

/-- One operation, alone with the store, however it ends. -/
def Operates (s s' : ReliabilityState) : Prop :=
  ∃ (op : Operation) (r : Except TrustError Unit), Alone exec op.program s r s'

/-- Operations one after the other. -/
abbrev Session : ReliabilityState → ReliabilityState → Prop := Relation.ReflTransGen Operates

theorem Session.chained (h : Session .empty s) : Chained s.audits := by
  induction h with
  | refl => exact Chained.nil
  | tail _ hop ih =>
    obtain ⟨op, r, hrun⟩ := hop
    exact hrun.invariant (P := fun s => Chained s.audits) (fun c o _ hs => hs.after c o) ih

/-! ## Runs -/

/-- What an operation that raised has left: the state as it was, but for the case of
    a conflict, and for the cases of the pairs that were reconciled before the one
    that failed. -/
def Operation.Leaves (s s' : ReliabilityState) (e : TrustError) : Operation → Prop
  | .claim_idempotency t p _ id _ =>
    s' = s ∨ e = .reliability "IDEMPOTENCY_CONFLICT" ∧ Opens t p id .IDEMPOTENCY_CONFLICT s s'
  | .reconcile_receipt_pairs t p executions _ => s' = s ∨
    ∃ earlier pair later, executions = earlier ++ pair :: later ∧ Reconciled t p earlier s s'
  | _ => s' = s

theorem Operation.leaves {op : Operation} (h : Alone exec op.program s (.error e) s') : op.Leaves s s' e := by
  cases op with
  | claim_idempotency t p key id request =>
    obtain ⟨r, hr, he⟩ := h.of_void
    obtain rfl := (he e).mp rfl
    exact claim_idempotency_error hr
  | reconcile_receipt_pairs t p executions observations =>
    obtain ⟨r, hr, he⟩ := h.of_void
    obtain rfl := (he e).mp rfl
    rcases (quiet_assert_scope t p).of_bind hr with ⟨e', -, hs⟩ | ⟨binding, -, heach⟩
    · exact .inl hs
    · exact .inr (reconcileEach_error heach)
  | bind_project => exact (allOrNothing_bind_project _ _).void _ _ _ h
  | assert_scope => exact (quiet_assert_scope _ _).allOrNothing.void _ _ _ h
  | record_policy_decision =>
    exact (allOrNothing_record_policy_decision _ _ _ _ _ _ _ _ _ _ _).void _ _ _ h
  | require_policy => exact quiet_require_policy _ _ _ _ _ h
  | complete_idempotency => exact (allOrNothing_complete_idempotency _ _ _).void _ _ _ h
  | enqueue_outbox => exact (allOrNothing_enqueue_outbox _ _ _ _ _ _ _).void _ _ _ h
  | claim_outbox => exact (allOrNothing_claim_outbox _ _).void _ _ _ h
  | mark_outbox_delivered => exact (allOrNothing_mark_outbox_delivered _).void _ _ _ h
  | mark_outbox_failed => exact (allOrNothing_mark_outbox_failed _ _).void _ _ _ h
  | open_recovery_case =>
    exact (allOrNothing_open_recovery_case _ _ _ _ _ _ _ _).void _ _ _ h
  | resolve_recovery => exact (allOrNothing_resolve_recovery _ _ _ _ _).void _ _ _ h
  | verify_audit_chain => exact quiet_verify_audit_chain.allOrNothing.void _ _ _ h
  | snapshot => exact (quiet_snapshot _ _).allOrNothing.void _ _ _ h

/-- **The chain and the records.** After any operations the chain verifies, is
    numbered without gaps and has only been extended; an operation that raises leaves
    every record and the chain as they were, but for the recovery cases it opens on
    purpose. -/
theorem audit_chain_atomic {s s' : ReliabilityState} {op : Operation} {r : Except TrustError Unit}
    (hs : Session .empty s) (h : Alone exec op.program s r s') :
    (∀ valid t, Alone exec verify_audit_chain s' (.ok valid) t → valid = true) ∧
      s'.audits.map AuditCheckpoint.seq = List.range' 1 s'.audits.length ∧
      s.audits <+: s'.audits ∧
      ∀ e, r = .error e → op.Leaves s s' e := by
  have hchain : Chained s'.audits := Session.chained (hs.tail ⟨op, r, h⟩)
  refine ⟨fun valid t hverify => ?_, hchain.numbered, audits_prefix h, fun e he => ?_⟩
  · rcases quiet_state.of_bind hverify with ⟨e, he, -⟩ | ⟨state, hstate, hret⟩
    · cases he
    obtain ⟨rfl, -⟩ := of_ask_state hstate
    cases hret.of_ret.1
    exact verifyFrom_iff.mpr ⟨hchain.linked, hchain.numbered⟩
  · subst he
    exact Operation.leaves h

/-! ## Two runs -/

/-- How moments are written, at the epoch. -/
@[reducible] def epochTime : JsonTime := ⟨fun _ => "1970-01-01T00:00:00Z"⟩

/-- A call made at the epoch, with nothing going wrong. -/
def calm : Outcome := ⟨0, none, true, .ok none⟩

def bindOne : Operation := .bind_project "t" "p"

/-- Two receipts that nobody observed. -/
def reconcileTwo : Operation :=
  .reconcile_receipt_pairs "t" "p" [("a", ⟨"ka", none⟩), ("b", ⟨"kb", none⟩)] []

/-- The operation alone, its ninth call going as `o` says. -/
def runsTo (op : Operation) (o : Outcome) (s : ReliabilityState) :
    Except TrustError Unit × ReliabilityState :=
  runAlone (@exec Canonical.mixHash) calm (@Operation.program Canonical.mixHash epochTime op)
    (List.replicate 8 calm ++ [o]) s

omit [Sha256] [JsonTime] in
theorem runsTo_alone (op : Operation) (o : Outcome) (s : ReliabilityState) :
    Alone (@exec Canonical.mixHash) (@Operation.program Canonical.mixHash epochTime op) s
      (runsTo op o s).1 (runsTo op o s).2 :=
  alone_runAlone _ _ _ _ _

/-- The store with one project bound. -/
def oneProject : ReliabilityState := (runsTo bindOne calm .empty).2

/-- The transaction of the second pair raises. -/
def reconciledOne : Except TrustError Unit × ReliabilityState :=
  runsTo reconcileTwo { calm with fault := some 0 } oneProject

section
omit [Sha256] [JsonTime]

theorem oneProject_session : @Session Canonical.mixHash epochTime .empty oneProject :=
  .single ⟨bindOne, _, runsTo_alone bindOne calm .empty⟩

/-- The reconciliation raises at the second pair, and the first pair's case stays. -/
theorem reconcile_partial : ∃ s r s', @Session Canonical.mixHash epochTime .empty s ∧
    Alone (@exec Canonical.mixHash) (@Operation.program Canonical.mixHash epochTime reconcileTwo)
      s r s' ∧
    r = .error .fault ∧ s'.audits.length = s.audits.length + 1 ∧
    s'.recovery.rows.map RecoveryCase.reason = [.EXECUTION_WITHOUT_OBSERVATION] :=
  ⟨oneProject, reconciledOne.1, reconciledOne.2, oneProject_session, runsTo_alone _ _ _,
    by decide +kernel, by decide +kernel, by decide +kernel⟩

/-- After it the chain has one checkpoint, and verifies. -/
theorem audit_chain_atomic_reconciled : reconciledOne.2.audits.length = 1 ∧
    (∀ valid t, Alone (@exec Canonical.mixHash) (@verify_audit_chain Canonical.mixHash)
      reconciledOne.2 (.ok valid) t → valid = true) ∧
    ∀ e, reconciledOne.1 = .error e →
      @Operation.Leaves Canonical.mixHash epochTime oneProject reconciledOne.2 e reconcileTwo :=
  have h := @audit_chain_atomic Canonical.mixHash epochTime _ _ _ _ oneProject_session
    (runsTo_alone reconcileTwo { calm with fault := some 0 } oneProject)
  ⟨by decide +kernel, h.1, h.2.2.2⟩

end

end Reliability
