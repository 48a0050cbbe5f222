import MissionControl.Reliability.Kernel
import MissionControl.Interleaving.Discipline

/-! # Delivery from the outbox

A dispatcher claims a message, runs its topic's handler and marks the outcome. Any
number of dispatchers run at once. The kernel reads a message before the
transaction that writes it, a claim does not ask who else has claimed, and a mark is
written whatever the message has become; so what delivery promises holds on the
runs in which dispatches of one message do not disturb each other. -/

namespace Reliability

open Canonical (Sha256)
open Interleaving
open Interleaving.Program (Exchange Only only_perform)
open Relational (Table)

/-! ## The dispatcher -/

/-- `type(exc).__name__` -/
def TrustError.name : TrustError → String
  | reliability _ => "ReliabilityError"
  | store _ => "ReliabilityStoreError"
  | fault => "RuntimeError"

inductive DeliveryStatus where
  | ALREADY_DELIVERED | BLOCKED_AUTHORITY | BLOCKED_NO_HANDLER | FAILED | DELIVERED | BLOCKED
  deriving DecidableEq

structure OutboxDeliveryResult where
  message_id : String
  status : DeliveryStatus
  result_ref : Option String
  error : Option String

structure OutboxDispatcher where
  handlers : List String
  max_batch : Nat

def dispatch_one (d : OutboxDispatcher) (message_id worker_id : String) :
    Trust OutboxDeliveryResult := do
  let state ← ask .state
  match state.outbox.find? message_id with
  | none => fail "UNKNOWN_OUTBOX_MESSAGE"
  | some message =>
    if message.status = .DELIVERED then
      pure ⟨message_id, .ALREADY_DELIVERED, none, none⟩
    else do
      let authorized ← ask (.authorize_delivery message)
      if authorized = false then
        pure ⟨message_id, .BLOCKED_AUTHORITY, none, none⟩
      else if message.topic ∉ d.handlers then
        pure ⟨message_id, .BLOCKED_NO_HANDLER, none, none⟩
      else do
        let claimed ← claim_outbox message_id worker_id
        match ← (ask (.handler claimed)).attempt with
        | .error exc => do
          let _ ← mark_outbox_failed message_id exc.name
          pure ⟨message_id, .FAILED, none, some exc.name⟩
        | .ok result_ref => do
          let _ ← mark_outbox_delivered message_id
          pure ⟨message_id, .DELIVERED, result_ref, none⟩

/-- A message that is refused is reported; any other error ends the batch. -/
def dispatchEach (d : OutboxDispatcher) (worker_id : String) :
    List OutboxMessage → Trust (List OutboxDeliveryResult)
  | [] => pure []
  | message :: rest => do
    match ← (dispatch_one d message.message_id worker_id).attempt with
    | .ok result => do
      let results ← dispatchEach d worker_id rest
      pure (result :: results)
    | .error (.reliability code) => do
      let results ← dispatchEach d worker_id rest
      pure (⟨message.message_id, .BLOCKED, none, some code⟩ :: results)
    | .error e => throw e

/-- The order of `(created_at, message_id)`. -/
def OutboxMessage.before (a b : OutboxMessage) : Prop :=
  a.created_at < b.created_at ∨ a.created_at = b.created_at ∧ a.message_id ≤ b.message_id

instance : DecidableRel OutboxMessage.before := fun _ _ =>
  inferInstanceAs (Decidable (_ ∨ _ ∧ _))

def dispatch_pending (d : OutboxDispatcher) (worker_id : String) :
    Trust (List OutboxDeliveryResult) := do
  let state ← ask .state
  let messages := state.outbox.rows.filter (·.status ≠ .DELIVERED)
  dispatchEach d worker_id ((messages.insertionSort OutboxMessage.before).take d.max_batch)

/-- A message nothing has been done about. -/
def OutboxMessage.Fresh (msg : OutboxMessage) : Prop := msg.status = .PENDING ∧ msg.attempts = 0

/-- What happens to the outbox while dispatchers run: new messages are enqueued. -/
def Enqueues (s s' : ReliabilityState) : Prop :=
  s'.outbox = s.outbox ∨ ∃ msg : OutboxMessage, msg.Fresh ∧
    s.outbox.find? msg.message_id = none ∧ s'.outbox = s.outbox.put msg

variable [Sha256]

/-- **The outbox with its dispatchers.** -/
def dispatching : System TrustCalls ReliabilityState Outcome where
  exec := exec
  Starts := fun p => ∃ d worker_id, p = (dispatch_pending d worker_id).void
  Env := Enqueues

abbrev TrustStage : Type := Stage TrustCalls ReliabilityState

/-! ## What a transaction does to the outbox -/

/-- The outbox after a statement. -/
def Write.outbox (t : Table OutboxMessage String OutboxMessage.message_id) :
    Write → Table OutboxMessage String OutboxMessage.message_id
  | .put_outbox value => t.put value
  | _ => t

theorem Write.outbox_apply {read tx tx' : ReliabilityState} {now : Instant} {x : Write}
    (h : x.apply read tx now = .ok tx') : tx'.outbox = x.outbox tx.outbox := by
  cases x with
  | put_policy value =>
    simp only [Write.apply] at h
    split at h <;> cases h
    rfl
  | append_audit e =>
    simp only [Write.apply, Reliability.append_audit] at h
    split at h <;> cases h
    rfl
  | _ =>
    cases h
    rfl

/-- The statements of a transaction that went through. -/
def wrote : (c : Call) → TrustCalls.Answer c → List Write
  | .transaction writes, .ok () => writes
  | _, _ => []

theorem applyAll_view {β : Type} {view : ReliabilityState → β} {effect : β → Write → β}
    (hone : ∀ {read tx tx' now x}, Write.apply read tx now x = .ok tx' → view tx' = effect (view tx) x)
    {read tx s' : ReliabilityState} {now : Instant} {fault : Option Nat} {writes : List Write}
    (h : applyAll read now fault tx writes = .ok s') : view s' = writes.foldl effect (view tx) := by
  induction writes generalizing tx fault with
  | nil => rw [applyAll_nil h, List.foldl_nil]
  | cons x rest ih =>
    obtain ⟨tx', hx, hrest⟩ := applyAll_cons h
    rw [List.foldl_cons, ih hrest, hone hx]

theorem view_after {β : Type} {view : ReliabilityState → β} {effect : β → Write → β}
    (hone : ∀ {read tx tx' now x}, Write.apply read tx now x = .ok tx' → view tx' = effect (view tx) x)
    (c : Call) (o : Outcome) (s : ReliabilityState) :
    view (exec.after c o s) = (wrote c (exec.answer c o s)).foldl effect (view s) := by
  cases c with
  | transaction writes =>
    rcases after_transaction writes o s with ⟨e, hanswer, hafter⟩ | ⟨s', htx, hanswer, hafter⟩
    · rw [hanswer, hafter]
      rfl
    · rw [hanswer, hafter]
      exact applyAll_view hone htx
  | _ =>
    rw [after_eq_self (by simp)]
    rfl

theorem outbox_after (c : Call) (o : Outcome) (s : ReliabilityState) :
    (exec.after c o s).outbox = (wrote c (exec.answer c o s)).foldl Write.outbox s.outbox :=
  view_after Write.outbox_apply c o s

/-! ## The order of a dispatcher's calls -/

/-- The messages a transaction of a dispatcher may write. -/
def DueWrite (writes : List Write) : Prop :=
  (∃ current worker_id, writes = [.put_outbox (OutboxMessage.claimed current worker_id)] ∧
    current.attempts < 3) ∨
  (∃ current error, writes = [.put_outbox (OutboxMessage.markedFailed current error)]) ∨
  ∃ current now e, writes = [.put_outbox (OutboxMessage.markedDelivered current now), .append_audit e]

/-- A handler runs on what the claim returned: the message the dispatcher has just
    written, or one that was delivered already. -/
def Due (i : Nat) (m : TrustStage) : Call → Prop
  | .transaction writes => DueWrite writes
  | .handler message => message.status = .DELIVERED ∨
    ∃ t, m.own i = t ++ [⟨.transaction [.put_outbox message], .ok ()⟩]
  | _ => True

/-- The discipline of dispatchers: order alone. -/
def order : Discipline dispatching where
  Pre i c m := Due i m c
  Ext _ _ := True
  Inv _ := True
  ext_refl _ := trivial
  ext_trans _ _ := trivial
  ext_call _ _ _ := trivial
  ext_env _ := trivial
  inv_call _ _ _ := trivial
  inv_env _ _ := trivial

variable {i : Nat} {m : TrustStage}

theorem safe_only {α : Type} {x : Trust α} (hx : x.Only fun c => ∀ i m, Due i m c) :
    order.Safe i Discipline.Anything x m :=
  Discipline.Safe.mono (Discipline.Safe.only (D := order) (R := fun _ => True)
    (fun i _ m hc => hc i m) (fun _ _ => trivial) hx) fun _ _ _ => trivial

section
omit [Sha256]

theorem due_state : ∀ i m, Due i m .state := fun _ _ => trivial

theorem due_utc_now : ∀ i m, Due i m .utc_now := fun _ _ => trivial

theorem only_mark_outbox_failed (message_id error : String) :
    (mark_outbox_failed message_id error).Only fun c => ∀ i m, Due i m c := by
  refine Only.bind (only_perform due_state) fun state => ?_
  split
  · trivial
  · rename_i current _
    refine Only.bind (only_perform fun _ _ => ?_) fun _ => trivial
    exact .inr (.inl ⟨current, error, rfl⟩)

theorem only_mark_outbox_delivered (message_id : String) :
    (mark_outbox_delivered message_id).Only fun c => ∀ i m, Due i m c := by
  refine Only.bind (only_perform due_state) fun state => ?_
  split
  · trivial
  · rename_i current _
    refine Only.bind (only_perform due_utc_now) fun now => ?_
    refine Only.bind (only_perform fun _ _ => ?_) fun _ => trivial
    exact .inr (.inr ⟨current, now, _, rfl⟩)

end

theorem safe_claim_outbox (message_id worker_id : String) :
    order.Safe i (fun r m' => ∀ v, r = .ok v → Due i m' (.handler v))
      (claim_outbox message_id worker_id) m := by
  refine Discipline.Safe.bind (Discipline.Safe.perform (Q := Discipline.Anything)
    (fun _ _ => trivial) fun _ _ _ _ _ => trivial) (fun state m₁ _ => ?_) fun _ _ _ _ h => by cases h
  split
  · exact fun _ _ _ h => by cases h
  · rename_i current _
    split
    · rename_i hdelivered
      intro m' _ v hv
      cases hv
      exact .inl hdelivered
    · split
      · exact fun _ _ _ h => by cases h
      · rename_i hattempts
        refine Discipline.Safe.call (fun m' h => ?_) (fun m' o r h hr => ?_)
          fun _ _ _ _ _ _ _ v hv => by cases hv
        · exact .inl ⟨current, worker_id, rfl, Nat.not_le.mp hattempts⟩
        · intro m'' h' v hv
          cases hv
          refine .inr ⟨m'.own i, ?_⟩
          rw [h'.own, Stage.own_perform]
          exact congrArg (fun a => m'.own i ++ [⟨_, a⟩]) hr

theorem safe_dispatch_one (d : OutboxDispatcher) (message_id worker_id : String) :
    order.Safe i Discipline.Anything (dispatch_one d message_id worker_id) m := by
  refine Discipline.Safe.bind (Discipline.Safe.perform (Q := Discipline.Anything)
    (fun _ _ => trivial) fun _ _ _ _ _ => trivial) (fun state m₁ _ => ?_) fun _ _ _ => trivial
  split
  · exact fun _ _ => trivial
  · rename_i message _
    split
    · exact fun _ _ => trivial
    · refine Discipline.Safe.bind (Discipline.Safe.perform (Q := Discipline.Anything)
        (fun _ _ => trivial) fun _ _ _ _ _ => trivial) (fun authorized m₂ _ => ?_) fun _ _ _ => trivial
      split
      · exact fun _ _ => trivial
      · split
        · exact fun _ _ => trivial
        · refine Discipline.Safe.bind (safe_claim_outbox message_id worker_id)
            (fun claimed m₃ hclaimed => ?_) fun _ _ _ => trivial
          refine Discipline.Safe.attempt_bind (Q := Discipline.Anything)
            (Discipline.Safe.perform (fun m' h => ?_) fun _ _ _ _ _ => trivial) fun r m₄ _ => ?_
          · rcases hclaimed claimed rfl with hdelivered | ⟨t, ht⟩
            · exact .inl hdelivered
            · exact .inr ⟨t, h.own.trans ht⟩
          · cases r with
            | error exc =>
              exact Discipline.Safe.bind (safe_only (only_mark_outbox_failed message_id exc.name))
                (fun _ _ _ _ _ => trivial) fun _ _ _ => trivial
            | ok result_ref =>
              exact Discipline.Safe.bind (safe_only (only_mark_outbox_delivered message_id))
                (fun _ _ _ _ _ => trivial) fun _ _ _ => trivial

theorem safe_dispatchEach (d : OutboxDispatcher) (worker_id : String) (messages : List OutboxMessage) :
    order.Safe i Discipline.Anything (dispatchEach d worker_id messages) m := by
  induction messages generalizing m with
  | nil => exact fun _ _ => trivial
  | cons message rest ih =>
    refine Discipline.Safe.attempt_bind (safe_dispatch_one d message.message_id worker_id)
      fun r m' _ => ?_
    match r with
    | .ok result =>
      exact Discipline.Safe.bind ih (fun _ _ _ _ _ => trivial) fun _ _ _ => trivial
    | .error (.reliability code) =>
      exact Discipline.Safe.bind ih (fun _ _ _ _ _ => trivial) fun _ _ _ => trivial
    | .error (.store text) => exact fun _ _ => trivial
    | .error .fault => exact fun _ _ => trivial

theorem covers : order.Covers := by
  rintro p ⟨d, worker_id, rfl⟩ i m hm
  refine Discipline.Safe.void (Q := Discipline.Anything) ?_
  exact Discipline.Safe.bind (Discipline.Safe.perform (Q := Discipline.Anything)
    (fun _ _ => trivial) fun _ _ _ _ _ => trivial)
    (fun state m' _ => safe_dispatchEach d worker_id _) fun _ _ _ => trivial

/-! ## What delivery promises -/

/-- The message a claim wrote. -/
def claimOf (e : Event TrustCalls) : Option OutboxMessage :=
  match wrote e.call e.answer with
  | [.put_outbox v] => if v.status = .CLAIMED then some v else none
  | _ => none

/-- The message a delivery mark wrote. -/
def deliveryOf (e : Event TrustCalls) : Option OutboxMessage :=
  match wrote e.call e.answer with
  | .put_outbox v :: _ => if v.status = .DELIVERED then some v else none
  | _ => none

/-- The message a handler ran on. -/
def handledBy (e : Event TrustCalls) : Option OutboxMessage :=
  match e.call with
  | .handler v => some v
  | _ => none

/-- The message a claim or a failure mark writes: the transactions with one statement. -/
def markOrClaim : List Write → Option OutboxMessage
  | [.put_outbox v] => some v
  | _ => none

/-- **Dispatches that do not disturb each other.** When a claim is written, the
    message has the attempts it was read with and is not delivered; when a handler
    starts, the message is still the one its dispatcher's claim wrote; when a
    failure mark is written, the message has the attempts the mark read and is not
    delivered. -/
def Undisturbed (m : TrustStage) : Action TrustCalls ReliabilityState Outcome → Prop
  | .call _ (.transaction writes) _ => ∀ v ∈ markOrClaim writes,
    ∃ stored ∈ m.world.outbox.find? v.message_id, stored.status ≠ .DELIVERED ∧
      stored.attempts + (if v.status = .CLAIMED then 1 else 0) = v.attempts
  | .call _ (.handler v) _ =>
    m.world.outbox.find? v.message_id = some v ∧ v.status = .CLAIMED
  | _ => True

/-- **What holds between calls.** -/
structure Sound (m : TrustStage) : Prop where
  /-- A message that was marked delivered is delivered. -/
  delivered : ∀ e ∈ m.history, ∀ v, deliveryOf e = some v →
    ∃ msg, m.world.outbox.find? v.message_id = some msg ∧ msg.status = .DELIVERED
  /-- A claim's number is within the limit, and the message has come at least as far. -/
  claims : ∀ e ∈ m.history, ∀ v, claimOf e = some v → v.attempts ≤ 3 ∧ 1 ≤ v.attempts ∧
    ∃ msg, m.world.outbox.find? v.message_id = some msg ∧
      (msg.status = .DELIVERED ∨ v.attempts ≤ msg.attempts)
  /-- No two claims of a message have one number. -/
  once : m.history.Pairwise fun e e' => ∀ v v', claimOf e = some v → claimOf e' = some v' →
    v.message_id = v'.message_id → v.attempts ≠ v'.attempts
  /-- Every run of a handler follows the claim of its dispatcher. -/
  handled : ∀ h₁ e h₂, m.history = h₁ ++ e :: h₂ → ∀ v, handledBy e = some v →
    ∃ e' ∈ h₁, e'.worker = e.worker ∧ claimOf e' = some v
  /-- No two runs of a handler on a message have one number. -/
  runs : m.history.Pairwise fun e e' => ∀ v v', handledBy e = some v → handledBy e' = some v' →
    v.message_id = v'.message_id → v.attempts ≠ v'.attempts

/-! ### How the outbox moves on -/

abbrev Outbox : Type := Table OutboxMessage String OutboxMessage.message_id

/-- Messages stay, delivered ones stay delivered, and the others keep their
    attempts. -/
def Onward (t t' : Outbox) : Prop :=
  ∀ id msg, t.find? id = some msg → ∃ msg', t'.find? id = some msg' ∧
    (msg.status = .DELIVERED → msg'.status = .DELIVERED) ∧
    (msg'.status = .DELIVERED ∨ msg.attempts ≤ msg'.attempts)

omit [Sha256] in
theorem Onward.refl (t : Outbox) : Onward t t :=
  fun _ msg h => ⟨msg, h, id, .inr (Nat.le_refl _)⟩

omit [Sha256] in
theorem Onward.trans {t₁ t₂ t₃ : Outbox} (h : Onward t₁ t₂) (h' : Onward t₂ t₃) : Onward t₁ t₃ := by
  intro id msg hfind
  obtain ⟨msg', hfind', hdelivered, hattempts⟩ := h id msg hfind
  obtain ⟨msg'', hfind'', hdelivered', hattempts'⟩ := h' id msg' hfind'
  refine ⟨msg'', hfind'', fun hd => hdelivered' (hdelivered hd), ?_⟩
  rcases hattempts with hd | hle
  · exact .inl (hdelivered' hd)
  · exact hattempts'.imp_right fun hle' => Nat.le_trans hle hle'

variable {v : OutboxMessage} {t : Outbox}

omit [Sha256] in
theorem Onward.put
    (h : ∀ msg, t.find? v.message_id = some msg → (msg.status = .DELIVERED → v.status = .DELIVERED) ∧
      (v.status = .DELIVERED ∨ msg.attempts ≤ v.attempts)) : Onward t (t.put v) := by
  intro id msg hfind
  rw [Table.find?_put]
  by_cases hid : v.message_id = id
  · rw [if_pos hid]
    exact ⟨v, rfl, h msg (hid ▸ hfind)⟩
  · rw [if_neg hid]
    exact ⟨msg, hfind, fun hd => hd, .inr (Nat.le_refl _)⟩

omit [Sha256] in
theorem Enqueues.onward {w w' : ReliabilityState} (h : Enqueues w w') : Onward w.outbox w'.outbox := by
  rcases h with h | ⟨msg, -, hnew, h⟩
  · rw [h]
    exact Onward.refl _
  · rw [h]
    refine Onward.put fun msg' hfind => ?_
    rw [hnew] at hfind
    cases hfind

/-- What an undisturbed call does to the outbox. -/
inductive Moves (t : Outbox) (e : Event TrustCalls) : Outbox → Prop
  | nothing (hclaim : claimOf e = none) (hdelivery : deliveryOf e = none) : Moves t e t
  | claim {v stored : OutboxMessage} (hfind : t.find? v.message_id = some stored)
      (hopen : stored.status ≠ .DELIVERED) (hnext : stored.attempts + 1 = v.attempts)
      (hlimit : v.attempts ≤ 3) (hclaim : claimOf e = some v) (hdelivery : deliveryOf e = none) :
      Moves t e (t.put v)
  | failure {v stored : OutboxMessage} (hfind : t.find? v.message_id = some stored)
      (hopen : stored.status ≠ .DELIVERED) (hsame : stored.attempts = v.attempts)
      (hclaim : claimOf e = none) (hdelivery : deliveryOf e = none) : Moves t e (t.put v)
  | delivery {v : OutboxMessage} (hstatus : v.status = .DELIVERED) (hclaim : claimOf e = none)
      (hdelivery : deliveryOf e = some v) : Moves t e (t.put v)

omit [Sha256] in
theorem Moves.onward {t' : Outbox} {e : Event TrustCalls} (h : Moves t e t') : Onward t t' := by
  cases h with
  | nothing => exact Onward.refl _
  | claim hfind hopen hnext =>
    refine Onward.put fun msg hmsg => ?_
    rw [hfind] at hmsg
    cases hmsg
    exact ⟨fun hd => absurd hd hopen, .inr (by omega)⟩
  | failure hfind hopen hsame =>
    refine Onward.put fun msg hmsg => ?_
    rw [hfind] at hmsg
    cases hmsg
    exact ⟨fun hd => absurd hd hopen, .inr (Nat.le_of_eq hsame)⟩
  | delivery hstatus => exact Onward.put fun msg _ => ⟨fun _ => hstatus, .inl hstatus⟩

variable {o : Outcome} {c : Call}

theorem moves (hdue : Due i m c) (hok : Undisturbed m (.call i c o)) :
    Moves m.world.outbox ⟨i, c, exec.answer c o m.world⟩ (exec.after c o m.world).outbox := by
  rw [outbox_after]
  cases c with
  | transaction writes =>
    rcases after_transaction writes o m.world with ⟨e, hanswer, -⟩ | ⟨s', -, hanswer, -⟩
    · rw [hanswer]
      exact .nothing rfl rfl
    · rw [hanswer]
      rcases hdue with ⟨current, worker_id, rfl, hlt⟩ | ⟨current, error, rfl⟩ | ⟨current, now, e, rfl⟩
      · obtain ⟨stored, hfind, hopen, hnext⟩ := hok _ rfl
        exact .claim hfind hopen hnext hlt rfl rfl
      · obtain ⟨stored, hfind, hopen, hsame⟩ := hok _ rfl
        exact .failure hfind hopen hsame rfl rfl
      · exact .delivery rfl rfl rfl
  | _ => exact .nothing rfl rfl

/-! ### The invariant -/

section
omit [Sha256]

theorem Sound.init {w : ReliabilityState} : Sound ⟨w, []⟩ := by
  refine ⟨by simp, by simp, by simp, ?_, by simp⟩
  intro h₁ e h₂ h
  cases h₁ <;> cases h

theorem Sound.onward (h : Sound m) (hon : Onward m.world.outbox t) :
    (∀ e ∈ m.history, ∀ v, deliveryOf e = some v →
      ∃ msg, t.find? v.message_id = some msg ∧ msg.status = .DELIVERED) ∧
    ∀ e ∈ m.history, ∀ v, claimOf e = some v → v.attempts ≤ 3 ∧ 1 ≤ v.attempts ∧
      ∃ msg, t.find? v.message_id = some msg ∧ (msg.status = .DELIVERED ∨ v.attempts ≤ msg.attempts) := by
  constructor
  · intro e he v hv
    obtain ⟨msg, hfind, hd⟩ := h.delivered e he v hv
    obtain ⟨msg', hfind', hdelivered, -⟩ := hon _ msg hfind
    exact ⟨msg', hfind', hdelivered hd⟩
  · intro e he v hv
    obtain ⟨hle, hge, msg, hfind, hor⟩ := h.claims e he v hv
    obtain ⟨msg', hfind', hdelivered, hattempts⟩ := hon _ msg hfind
    refine ⟨hle, hge, msg', hfind', ?_⟩
    rcases hor with hd | hlt
    · exact .inl (hdelivered hd)
    · exact hattempts.imp_right fun hle' => Nat.le_trans hlt hle'

theorem Sound.env (h : Sound m) {w' : ReliabilityState} (hw : Enqueues m.world w') :
    Sound { m with world := w' } :=
  ⟨(h.onward hw.onward).1, (h.onward hw.onward).2, h.once, h.handled, h.runs⟩

theorem Sound.first_run (h : Sound m) {t : List (Exchange TrustCalls)}
    (hown : m.own i = t ++ [⟨.transaction [.put_outbox v], .ok ()⟩]) (hv : v.status = .CLAIMED) :
    ∀ e ∈ m.history, ∀ v', handledBy e = some v' → v'.message_id = v.message_id → v'.attempts ≠ v.attempts := by
  obtain ⟨h₁, h₂, hhist, hothers⟩ := Stage.split_of_own hown
  have hclaim : claimOf ⟨i, .transaction [.put_outbox v], .ok ()⟩ = some v := if_pos hv
  have honce := h.once
  rw [hhist] at honce
  obtain ⟨-, hafter, hbefore⟩ := List.pairwise_append.mp honce
  -- a claim elsewhere in the history has another number
  have hbefore' : ∀ e' ∈ h₁, ∀ v', claimOf e' = some v' → v'.message_id = v.message_id →
      v'.attempts ≠ v.attempts := fun e' he' v' hv' hid =>
    hbefore e' he' _ List.mem_cons_self v' v hv' hclaim hid
  have hafter' : ∀ e' ∈ h₂, ∀ v', claimOf e' = some v' → v'.message_id = v.message_id →
      v'.attempts ≠ v.attempts := fun e' he' v' hv' hid heq =>
    (List.pairwise_cons.mp hafter).1 e' he' v v' hclaim hv' hid.symm heq.symm
  intro e he v' hv' hid
  rw [hhist, List.mem_append, List.mem_cons] at he
  rcases he with he | rfl | he
  · obtain ⟨a, b, rfl⟩ := List.append_of_mem he
    obtain ⟨e', he', -, hclaim'⟩ := h.handled a e _ (hhist.trans (List.append_assoc ..)) v' hv'
    exact hbefore' e' (List.mem_append_left _ he') v' hclaim' hid
  · cases hv'
  · obtain ⟨a, b, rfl⟩ := List.append_of_mem he
    obtain ⟨e', he', hworker, hclaim'⟩ := h.handled _ e b (hhist.trans (List.append_assoc h₁ (_ :: a) (e :: b)).symm) v' hv'
    rcases List.mem_append.mp he' with he' | he'
    · exact hbefore' e' he' v' hclaim' hid
    · rcases List.mem_cons.mp he' with rfl | he'
      · exact absurd hworker.symm (hothers e he)
      · exact hafter' e' (List.mem_append_left _ he') v' hclaim' hid

theorem claimed_of_handled {a : TrustCalls.Answer c} (hdue : Due i m c) (hok : Undisturbed m (.call i c o))
    (hv : handledBy ⟨i, c, a⟩ = some v) :
    ∃ t, m.own i = t ++ [⟨.transaction [.put_outbox v], .ok ()⟩] ∧ v.status = .CLAIMED := by
  cases c with
  | handler message =>
    cases hv
    obtain ⟨-, hclaimed⟩ := hok
    rcases hdue with hdelivered | ⟨t, hown⟩
    · rw [hclaimed] at hdelivered
      cases hdelivered
    · exact ⟨t, hown, hclaimed⟩
  | _ => cases hv

end

/-- **One call** of a dispatcher, in its order and undisturbed. -/
theorem Sound.call (h : Sound m) (hdue : Due i m c) (hok : Undisturbed m (.call i c o)) :
    Sound (m.perform exec i c o) := by
  have hmoves := moves (o := o) hdue hok
  obtain ⟨hdelivered, hclaims⟩ := h.onward hmoves.onward
  have hworld : (m.perform exec i c o).world.outbox = (exec.after c o m.world).outbox := rfl
  have hlast : ∀ e ∈ (m.perform exec i c o).history, e ∈ m.history ∨
      e = ⟨i, c, exec.answer c o m.world⟩ := fun e he =>
    (List.mem_append.mp he).imp_right List.mem_singleton.mp
  constructor
  case delivered =>
    intro e he v hv
    rcases hlast e he with he | rfl
    · exact hdelivered e he v hv
    · rw [hworld]
      revert hmoves
      generalize (exec.after c o m.world).outbox = t'
      intro hmoves
      cases hmoves with
      | delivery hstatus hclaim hdelivery =>
        rw [hdelivery] at hv
        cases hv
        exact ⟨v, Table.find?_put.trans (if_pos rfl), hstatus⟩
      | nothing hclaim hdelivery => rw [hdelivery] at hv; cases hv
      | claim _ _ _ _ _ hdelivery => rw [hdelivery] at hv; cases hv
      | failure _ _ _ _ hdelivery => rw [hdelivery] at hv; cases hv
  case claims =>
    intro e he v hv
    rcases hlast e he with he | rfl
    · exact hclaims e he v hv
    · rw [hworld]
      revert hmoves
      generalize (exec.after c o m.world).outbox = t'
      intro hmoves
      cases hmoves with
      | claim hfind hopen hnext hlimit hclaim =>
        rw [hclaim] at hv
        cases hv
        exact ⟨hlimit, by omega, v, Table.find?_put.trans (if_pos rfl), .inr (Nat.le_refl _)⟩
      | nothing hclaim => rw [hclaim] at hv; cases hv
      | failure _ _ _ hclaim => rw [hclaim] at hv; cases hv
      | delivery _ hclaim => rw [hclaim] at hv; cases hv
  case once =>
    refine List.pairwise_append.mpr ⟨h.once, List.pairwise_singleton _ _, fun e he e' he' => ?_⟩
    rw [List.mem_singleton.mp he']
    intro v v' hv hv' hid heq
    obtain ⟨-, -, msg, hfind, hor⟩ := h.claims e he v hv
    revert hmoves
    generalize (exec.after c o m.world).outbox = t'
    intro hmoves
    cases hmoves with
    | claim hstored hopen hnext hlimit hclaim =>
      rw [hclaim] at hv'
      cases hv'
      rw [hid, hstored] at hfind
      cases hfind
      rcases hor with hd | hle
      · exact hopen hd
      · omega
    | nothing hclaim => rw [hclaim] at hv'; cases hv'
    | failure _ _ _ hclaim => rw [hclaim] at hv'; cases hv'
    | delivery _ hclaim => rw [hclaim] at hv'; cases hv'
  case handled =>
    intro h₁ e h₂ hhist v hv
    have hhist : m.history ++ [⟨i, c, exec.answer c o m.world⟩] = h₁ ++ e :: h₂ := hhist
    rcases List.eq_nil_or_concat h₂ with rfl | ⟨h₂, e', rfl⟩
    · obtain ⟨rfl, he⟩ := List.append_inj' hhist rfl
      obtain ⟨rfl, -⟩ := List.cons.inj he
      obtain ⟨t, hown, hclaimed⟩ := claimed_of_handled hdue hok hv
      obtain ⟨h₁, h₂, hsplit, -⟩ := Stage.split_of_own hown
      refine ⟨⟨i, .transaction [.put_outbox v], .ok ()⟩, ?_, rfl, if_pos hclaimed⟩
      rw [hsplit]
      exact List.mem_append_right _ List.mem_cons_self
    · have hinit : m.history = h₁ ++ e :: h₂ := by
        rw [List.concat_eq_append, ← List.cons_append, ← List.append_assoc] at hhist
        exact (List.append_inj' hhist rfl).1
      exact h.handled h₁ e h₂ hinit v hv
  case runs =>
    refine List.pairwise_append.mpr ⟨h.runs, List.pairwise_singleton _ _, fun e he e' he' => ?_⟩
    rw [List.mem_singleton.mp he']
    intro v v' hv hv' hid heq
    obtain ⟨t, hown, hclaimed⟩ := claimed_of_handled hdue hok hv'
    exact h.first_run hown hclaimed e he v hv hid heq

/-! ### Runs -/

variable {w : ReliabilityState} {steps : List (TrustStage × Action TrustCalls ReliabilityState Outcome)}
  {s : Pool TrustCalls ReliabilityState}

theorem sound_of_run (run : Run dispatching w steps s) (hok : Meets Undisturbed steps) : Sound s.stage :=
  Discipline.run_invariant covers trivial Sound.init (fun _ _ _ _ h _ hdue hok => h.call hdue hok)
    (fun _ _ h hw => h.env hw) run hok

/-- How often a handler has run on a message. -/
def handlerRuns (m : TrustStage) (message_id : String) : List OutboxMessage :=
  (m.history.filterMap handledBy).filter fun v => v.message_id = message_id

omit [Sha256] in
theorem Sound.handlerRuns_le (h : Sound m) (message_id : String) : (handlerRuns m message_id).length ≤ 3 := by
  have hruns : (handlerRuns m message_id).Pairwise fun v v' => v.attempts ≠ v'.attempts := by
    have hall : (m.history.filterMap handledBy).Pairwise fun v v' =>
        v.message_id = v'.message_id → v.attempts ≠ v'.attempts :=
      List.pairwise_filterMap.mpr (h.runs.imp fun hee' v hv v' hv' => hee' v v' hv hv')
    refine (hall.filter _).imp_of_mem fun {v v'} hv hv' hne => hne ?_
    have hid := of_decide_eq_true (List.mem_filter.mp hv).2
    have hid' := of_decide_eq_true (List.mem_filter.mp hv').2
    exact hid.trans hid'.symm
  have hnodup : ((handlerRuns m message_id).map OutboxMessage.attempts).Nodup :=
    List.pairwise_map.mpr hruns
  have hbound : (handlerRuns m message_id).map OutboxMessage.attempts ⊆ [1, 2, 3] := by
    intro n hn
    obtain ⟨v, hv, rfl⟩ := List.mem_map.mp hn
    obtain ⟨e, he, hhandled⟩ := List.mem_filterMap.mp (List.mem_filter.mp hv).1
    obtain ⟨a, b, hsplit⟩ := List.append_of_mem he
    obtain ⟨e', he', -, hclaim⟩ := h.handled a e b hsplit v hhandled
    have hmem : e' ∈ m.history := by
      rw [hsplit]
      exact List.mem_append_left _ he'
    obtain ⟨hle, hge, -⟩ := h.claims e' hmem v hclaim
    simp only [List.mem_cons, List.not_mem_nil, or_false]
    omega
  have hlength := (List.subperm_of_subset hnodup hbound).length_le
  rwa [List.length_map] at hlength

/-- **Delivery.** In every run of dispatchers whose dispatches of a message do not
    disturb each other: a delivered message stays delivered, a message's handler
    runs at most three times, and no handler starts for a message that has been
    marked delivered. -/
theorem delivery (run : Run dispatching w steps s) (hok : Meets Undisturbed steps) :
    (∀ m ∈ visited steps s, ∀ id msg, m.world.outbox.find? id = some msg →
      msg.status = .DELIVERED →
      ∃ msg', s.stage.world.outbox.find? id = some msg' ∧ msg'.status = .DELIVERED) ∧
    (∀ message_id, (handlerRuns s.stage message_id).length ≤ 3) ∧
    ∀ m i v o, (m, Action.call i (Call.handler v) o) ∈ steps →
      ∀ e ∈ m.history, ∀ v', deliveryOf e = some v' → v'.message_id ≠ v.message_id := by
  refine ⟨fun m hm id msg hfind hstatus => ?_, (sound_of_run run hok).handlerRuns_le, ?_⟩
  · have hon : Onward m.world.outbox s.stage.world.outbox :=
      Discipline.run_later covers (R := fun m m' => Onward m.world.outbox m'.world.outbox)
        (fun _ => Onward.refl _) (fun _ _ _ => Onward.trans) trivial
        (fun _ _ _ _ _ hdue hok => (moves hdue hok).onward) (fun _ _ hw => hw.onward) run hok hm
    obtain ⟨msg', hfind', hd, -⟩ := hon id msg hfind
    exact ⟨msg', hfind', hd hstatus⟩
  · intro m i v o hstep e he v' hv' hid
    obtain ⟨before, s', run', rfl, hpre⟩ := run.visited
      (List.mem_append_left _ (List.mem_map_of_mem hstep))
    obtain ⟨hfind, hclaimed⟩ := hok _ hstep
    obtain ⟨msg, hfind', hd⟩ := (sound_of_run run' (hok.of_prefix hpre)).delivered e he v' hv'
    rw [hid] at hfind'
    rw [show s'.stage.world.outbox.find? v.message_id = some v from hfind] at hfind'
    cases hfind'
    rw [hclaimed] at hd
    cases hd

/-! ### Two dispatchers at once -/

omit [Sha256] in
instance (m : TrustStage) (a : Action TrustCalls ReliabilityState Outcome) :
    Decidable (Undisturbed m a) :=
  match a with
  | .start _ => inferInstanceAs (Decidable True)
  | .env _ => inferInstanceAs (Decidable True)
  | .call _ c _ =>
    match c with
    | .transaction writes => inferInstanceAs (Decidable (∀ v ∈ markOrClaim writes, ∃ stored ∈
        m.world.outbox.find? v.message_id, stored.status ≠ .DELIVERED ∧
          stored.attempts + (if v.status = .CLAIMED then 1 else 0) = v.attempts))
    | .handler v => inferInstanceAs (Decidable
        (m.world.outbox.find? v.message_id = some v ∧ v.status = .CLAIMED))
    | .state | .utc_now | .authorize_delivery _ => inferInstanceAs (Decidable True)

/-- A state with one message nothing has been done about. -/
def oneMessage : ReliabilityState :=
  { ReliabilityState.empty with
    outbox := Table.empty.put
      { message_id := "m", tenant_id := "t", project_id := "p", topic := "topic"
        payload_hash := "", payload_ref := "", idempotency_key := "k", status := .PENDING
        attempts := 0, claimed_by := none, next_attempt_at := none, delivered_at := none
        last_error := none, created_at := 0 } }

/-- A dispatcher of the message's topic. -/
def arrive (worker_id : String) : Move TrustCalls ReliabilityState Outcome :=
  .start (dispatch_pending ⟨["topic"], 25⟩ worker_id).void

/-- Worker `i` makes its next call, and nothing goes wrong. -/
def works (i : Nat) : Move TrustCalls ReliabilityState Outcome := .call i ⟨0, none, true, .ok none⟩

/-- Worker `i`'s handler raises. -/
def raises (i : Nat) : Move TrustCalls ReliabilityState Outcome :=
  .call i ⟨0, none, true, .error .fault⟩

/-- Both dispatchers claim, the first delivers, then the second starts its handler,
    which fails. -/
def overlapping : List (Move TrustCalls ReliabilityState Outcome) :=
  [arrive "w0", arrive "w1"] ++ List.replicate 5 (works 0) ++ List.replicate 5 (works 1) ++
    List.replicate 4 (works 0) ++ [raises 1, works 1, works 1]

/-- One dispatcher alone. -/
def alone : List (Move TrustCalls ReliabilityState Outcome) :=
  arrive "w0" :: List.replicate 9 (works 0)

theorem overlapping_allowed : ∀ x ∈ overlapping, x.Allowed dispatching := by
  intro x hx
  simp only [overlapping, List.mem_append, List.mem_cons, List.not_mem_nil, or_false, List.mem_replicate] at hx
  rcases hx with ((((rfl | rfl) | ⟨-, rfl⟩) | ⟨-, rfl⟩) | ⟨-, rfl⟩) | rfl | rfl | rfl <;>
    first | trivial | exact ⟨_, _, rfl⟩

/-- The message a handler starts on. -/
def handlerStart : Action TrustCalls ReliabilityState Outcome → Option String
  | .call _ (.handler v) _ => some v.message_id
  | _ => none

omit [Sha256] in
/-- A handler starts after the message was delivered, and its failure mark takes the
    message out of `DELIVERED` again. -/
theorem delivery_disturbed : ∃ steps s, Run (@dispatching Canonical.plainHash) oneMessage steps s ∧
    (∃ x ∈ steps, ∃ id ∈ handlerStart x.2, ∃ msg ∈ x.1.world.outbox.find? id,
      msg.status = .DELIVERED) ∧
    (∃ m ∈ visited steps s, ∃ msg ∈ m.world.outbox.find? "m", msg.status = .DELIVERED) ∧
    ∃ msg ∈ s.stage.world.outbox.find? "m", msg.status = .FAILED :=
  ⟨(play (@dispatching Canonical.plainHash) (Pool.init oneMessage) overlapping).1,
    (play (@dispatching Canonical.plainHash) (Pool.init oneMessage) overlapping).2,
    play_run (@overlapping_allowed Canonical.plainHash), by decide +kernel, by decide +kernel,
    by decide +kernel⟩

theorem alone_allowed : ∀ x ∈ alone, x.Allowed dispatching := by
  intro x hx
  simp only [alone, List.mem_cons, List.mem_replicate] at hx
  rcases hx with rfl | ⟨-, rfl⟩
  · exact ⟨_, _, rfl⟩
  · trivial

omit [Sha256] in
/-- One dispatcher is not disturbed; it runs the handler once. -/
theorem delivery_alone :
    (handlerRuns (play (@dispatching Canonical.plainHash) (Pool.init oneMessage) alone).2.stage
      "m").length = 1 ∧
    ∀ message_id, (handlerRuns (play (@dispatching Canonical.plainHash) (Pool.init oneMessage)
      alone).2.stage message_id).length ≤ 3 :=
  ⟨by decide +kernel,
    (@delivery Canonical.plainHash _ _ _ (play_run (@alone_allowed Canonical.plainHash))
      (by decide +kernel)).2.1⟩

end Reliability
