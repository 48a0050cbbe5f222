import MissionControl.Reliability.Outbox
import MissionControl.Interleaving.Solo

/-! # Progress of a dispatch

A dispatcher takes the first messages of the outbox that are not delivered, in the order they came,
and no more than its batch holds. It passes over a message it is not allowed to deliver, one whose
topic has no handler and one that has been claimed three times, but each of them fills a place of
the batch. So a dispatch comes to a message that can be delivered exactly when the batch holds one. -/

namespace Reliability

open Canonical (Sha256)
open Interleaving
open Interleaving.Program (Only only_perform)

/-! ## What can be delivered -/

/-- The messages of one batch. -/
def OutboxDispatcher.batch (d : OutboxDispatcher) (s : ReliabilityState) : List OutboxMessage :=
  ((s.outbox.rows.filter (·.status ≠ .DELIVERED)).insertionSort OutboxMessage.before).take d.max_batch

/-- A message that is not delivered and has an attempt left, a handler and the authority. -/
structure Deliverable (d : OutboxDispatcher) (authority : OutboxMessage → Bool) (msg : OutboxMessage) :
    Prop where
  undelivered : msg.status ≠ .DELIVERED
  attempts : msg.attempts < 3
  handler : msg.topic ∈ d.handlers
  authorized : authority msg = true

variable {d : OutboxDispatcher} {authority : OutboxMessage → Bool} {worker_id : String}

instance (msg : OutboxMessage) : Decidable (Deliverable d authority msg) :=
  decidable_of_iff (msg.status ≠ .DELIVERED ∧ msg.attempts < 3 ∧ msg.topic ∈ d.handlers ∧
    authority msg = true)
    ⟨fun h => ⟨h.1, h.2.1, h.2.2.1, h.2.2.2⟩, fun h => ⟨h.undelivered, h.attempts, h.handler, h.authorized⟩⟩

variable {msg : OutboxMessage}

theorem mem_batch {s : ReliabilityState} (h : msg ∈ d.batch s) : msg ∈ s.outbox ∧ msg.status ≠ .DELIVERED := by
  have hsorted := List.mem_of_mem_take h
  rw [List.mem_insertionSort, List.mem_filter, decide_eq_true_eq] at hsorted
  exact hsorted

variable [Sha256]

/-- The calls of a dispatch, each with the world it was made in. -/
abbrev DispatchCalls : Type := List (OwnCall TrustCalls ReliabilityState Outcome)

/-- The store answers, and the injected authority decides as `authority` does. Whether a handler
    succeeds is left open. -/
def Working (authority : OutboxMessage → Bool) (x : OwnCall TrustCalls ReliabilityState Outcome) : Prop :=
  match x.call with
  | .authorize_delivery message => x.outside.fault = none ∧ x.outside.authorized = authority message
  | .handler _ => True
  | _ => x.outside.fault = none

/-- The message's handler has been run on what its claim wrote. -/
def Attempted (worker_id : String) (l : DispatchCalls) (msg : OutboxMessage) : Prop :=
  ∃ x ∈ l, x.call = .handler (msg.claimed worker_id)

omit [Sha256] in
theorem Attempted.append_left {l : DispatchCalls} (h : Attempted worker_id l msg) (l' : DispatchCalls) :
    Attempted worker_id (l ++ l') msg := by
  obtain ⟨x, hx, hcall⟩ := h
  exact ⟨x, List.mem_append_left _ hx, hcall⟩

variable {l' : DispatchCalls}

omit [Sha256] in
theorem Attempted.append_right (h : Attempted worker_id l' msg) (l : DispatchCalls) :
    Attempted worker_id (l ++ l') msg := by
  obtain ⟨x, hx, hcall⟩ := h
  exact ⟨x, List.mem_append_right _ hx, hcall⟩

/-! ## One message -/

/-- The handlers run are those of the message `id`. -/
def HandlesOnly (id : String) (l : DispatchCalls) : Prop :=
  ∀ x ∈ l, ∀ v, x.call = .handler v → v.message_id = id

variable {id : String}

omit [Sha256] in
theorem HandlesOnly.append {l : DispatchCalls} (h : HandlesOnly id l) (h' : HandlesOnly id l') :
    HandlesOnly id (l ++ l') := by
  intro x hx
  rcases List.mem_append.mp hx with hx | hx
  · exact h x hx
  · exact h' x hx

/-- A call that runs no handler. -/
def NoHandler : Call → Prop
  | .handler _ => False
  | _ => True

omit [Sha256] in
theorem handlesOnly_of_noHandler {l : DispatchCalls} (h : ∀ x ∈ l, NoHandler x.call) : HandlesOnly id l := by
  intro x hx v hv
  have hno := h x hx
  rw [hv] at hno
  exact hno.elim

variable {w w' : ReliabilityState} {l : DispatchCalls}

theorem of_state {β : Type} {f : ReliabilityState → Trust β} {r : Except TrustError β}
    (h : Solo exec ((Program.perform (I := TrustCalls) .state).bind f) w l r w') :
    ∃ o l', l = ⟨w, .state, o⟩ :: l' ∧
      (Solo exec (f w) w l' r w' ∨ o.fault ≠ none ∧ l' = [] ∧ ∃ e, r = .error e) := by
  obtain ⟨o, l', rfl, ⟨a, w₁, hexec, hrest⟩ | ⟨e, hexec, rfl, hr, -⟩⟩ := h.of_ask
  · refine ⟨o, l', rfl, .inl ?_⟩
    simp only [exec] at hexec
    split at hexec
    · cases hexec
    · cases hexec
      exact hrest
  · refine ⟨o, [], rfl, .inr ⟨fun hnone => ?_, rfl, e, hr⟩⟩
    simp [exec, hnone] at hexec

theorem of_authorize_delivery {β : Type} {message : OutboxMessage} {f : Bool → Trust β}
    {r : Except TrustError β}
    (h : Solo exec ((Program.perform (I := TrustCalls) (.authorize_delivery message)).bind f) w l r w') :
    ∃ o l', l = ⟨w, .authorize_delivery message, o⟩ :: l' ∧
      (Solo exec (f o.authorized) w l' r w' ∨ o.fault ≠ none ∧ l' = []) := by
  obtain ⟨o, l', rfl, ⟨a, w₁, hexec, hrest⟩ | ⟨e, hexec, rfl, -, -⟩⟩ := h.of_ask
  · refine ⟨o, l', rfl, .inl ?_⟩
    simp only [exec] at hexec
    split at hexec
    · cases hexec
    · cases hexec
      exact hrest
  · refine ⟨o, [], rfl, .inr ⟨fun hnone => ?_, rfl⟩⟩
    simp [exec, hnone] at hexec

omit [Sha256] in
theorem noHandler_claim_outbox (message_id worker_id : String) :
    (claim_outbox message_id worker_id).Only NoHandler := by
  refine Only.bind (only_perform trivial) fun state => ?_
  split
  · trivial
  · split
    · trivial
    · split
      · trivial
      · exact Only.bind (only_perform trivial) fun _ => trivial

/-- What a claim ends with, where the message `id` is stored as `stored`. -/
inductive ClaimEnd (worker_id : String) (w : ReliabilityState) (stored : Option OutboxMessage) :
    Except TrustError OutboxMessage → ReliabilityState → Prop
  | unknown (h : stored = none) : ClaimEnd worker_id w stored (.error (.reliability "UNKNOWN_OUTBOX_MESSAGE")) w
  | delivered {current : OutboxMessage} (h : stored = some current) (hstatus : current.status = .DELIVERED) :
      ClaimEnd worker_id w stored (.ok current) w
  | exhausted {current : OutboxMessage} (h : stored = some current) (hattempts : 3 ≤ current.attempts) :
      ClaimEnd worker_id w stored (.error (.reliability "OUTBOX_RETRY_EXHAUSTED")) w
  | claimed {current : OutboxMessage} (h : stored = some current) (hattempts : current.attempts < 3)
      {w' : ReliabilityState} : ClaimEnd worker_id w stored (.ok (current.claimed worker_id)) w'

/-- **A claim, alone**, where the store answers. -/
theorem of_claim_outbox (authority : OutboxMessage → Bool) {r : Except TrustError OutboxMessage}
    (h : Solo exec (claim_outbox id worker_id) w l r w') :
    ClaimEnd worker_id w (w.outbox.find? id) r w' ∨ (∃ x ∈ l, ¬ Working authority x) ∧ ∃ e, r = .error e := by
  obtain ⟨o, l', rfl, h | ⟨hfault, rfl, hr⟩⟩ := of_state h
  · cases hfind : w.outbox.find? id with
    | none =>
      rw [hfind] at h
      obtain ⟨-, rfl, rfl⟩ := h.of_raise
      exact .inl (.unknown rfl)
    | some current =>
      rw [hfind] at h
      dsimp only at h
      split at h
      · rename_i hstatus
        obtain ⟨-, rfl, rfl⟩ := h.of_ret
        exact .inl (.delivered rfl hstatus)
      split at h
      · rename_i hattempts
        obtain ⟨-, rfl, rfl⟩ := h.of_raise
        exact .inl (.exhausted rfl hattempts)
      rename_i hattempts
      obtain ⟨o', l₂, rfl, ⟨a, w₁, -, hrest⟩ | ⟨e, hexec, rfl, rfl, rfl⟩⟩ := h.of_ask
      · obtain ⟨-, rfl, rfl⟩ := hrest.of_ret
        exact .inl (.claimed rfl (Nat.not_le.mp hattempts))
      · -- one statement that replaces a row raises only where the store fails
        refine .inr ⟨⟨_, List.mem_cons_of_mem _ List.mem_cons_self, fun hworks => ?_⟩, e, rfl⟩
        have hnone : o'.fault = none := hworks
        simp [exec, transaction, applyAll, Write.apply, hnone, Except.map, bind, Except.bind] at hexec
  · exact .inr ⟨⟨_, List.mem_cons_self, hfault⟩, hr⟩

section
omit [Sha256]

theorem ClaimEnd.message_id {v : OutboxMessage} (h : ClaimEnd worker_id w (w.outbox.find? id) (.ok v) w') :
    v.message_id = id := by
  cases h with
  | delivered h _ => exact Relational.Table.key_of_find? h
  | claimed h _ =>
    have hkey := Relational.Table.key_of_find? h
    exact hkey

theorem noHandler_mark_outbox_failed (message_id error : String) :
    (mark_outbox_failed message_id error).Only NoHandler := by
  refine Only.bind (only_perform trivial) fun state => ?_
  split
  · trivial
  · exact Only.bind (only_perform trivial) fun _ => trivial

theorem noHandler_mark_outbox_delivered (message_id : String) :
    (mark_outbox_delivered message_id).Only NoHandler := by
  refine Only.bind (only_perform trivial) fun state => ?_
  split
  · trivial
  · refine Only.bind (only_perform trivial) fun now => ?_
    exact Only.bind (only_perform trivial) fun _ => trivial

end

variable {r : Except TrustError OutboxDeliveryResult}

/-- The handlers of a dispatch of one message are run on that message. -/
theorem handlesOnly_dispatch_one (h : Solo exec (dispatch_one d id worker_id) w l r w') : HandlesOnly id l := by
  have hread : ∀ (c : Call) (o : Outcome), NoHandler c →
      HandlesOnly id [(⟨w, c, o⟩ : OwnCall TrustCalls ReliabilityState Outcome)] := fun c o hc =>
    handlesOnly_of_noHandler fun x hx => by rwa [List.mem_singleton.mp hx]
  obtain ⟨o, l', rfl, h | ⟨-, rfl, -⟩⟩ := of_state h
  swap
  · exact hread .state o trivial
  show HandlesOnly id ([_] ++ l')
  refine (hread .state o trivial).append ?_
  cases hfind : w.outbox.find? id with
  | none =>
    rw [hfind] at h
    obtain ⟨rfl, -⟩ := h.of_raise
    exact fun x hx => nomatch hx
  | some message =>
    rw [hfind] at h
    dsimp only at h
    split at h
    · obtain ⟨rfl, -⟩ := h.of_ret
      exact fun x hx => nomatch hx
    obtain ⟨o', l₂, rfl, h | ⟨-, rfl⟩⟩ := of_authorize_delivery h
    swap
    · exact hread (.authorize_delivery message) o' trivial
    show HandlesOnly id ([_] ++ l₂)
    refine (hread (.authorize_delivery message) o' trivial).append ?_
    split at h
    · obtain ⟨rfl, -⟩ := h.of_ret
      exact fun x hx => nomatch hx
    split at h
    · obtain ⟨rfl, -⟩ := h.of_ret
      exact fun x hx => nomatch hx
    rcases h.of_bind with ⟨e, hclaim, -⟩ | ⟨claimed, w₁, l₃, l₄, rfl, hclaim, h⟩
    · exact handlesOnly_of_noHandler (hclaim.only (noHandler_claim_outbox id worker_id))
    have hid : claimed.message_id = id := by
      rcases of_claim_outbox (fun _ => true) hclaim with hend | ⟨-, e, he⟩
      · exact hend.message_id
      · cases he
    refine (handlesOnly_of_noHandler (hclaim.only (noHandler_claim_outbox id worker_id))).append ?_
    -- the handler of the message claimed, and then a mark
    have honly : ∀ c : Call, NoHandler c → ∀ v, c = .handler v → v.message_id = id := by
      rintro _ hc v rfl
      exact hc.elim
    refine h.only (R := fun c : Call => ∀ v, c = .handler v → v.message_id = id) ?_
    refine Only.bind (Only.attempt (only_perform ?_)) fun r => ?_
    · rintro v ⟨⟩
      exact hid
    · cases r with
      | error exc =>
        exact Only.bind ((noHandler_mark_outbox_failed id exc.name).mono honly) fun _ => trivial
      | ok result_ref =>
        exact Only.bind ((noHandler_mark_outbox_delivered id).mono honly) fun _ => trivial

/-- **A message that can be delivered is attempted.** -/
theorem dispatch_one_attempts (hfind : w.outbox.find? id = some msg) (hmsg : Deliverable d authority msg)
    (h : Solo exec (dispatch_one d id worker_id) w l r w') (hworks : ∀ x ∈ l, Working authority x) :
    Attempted worker_id l msg := by
  obtain ⟨o, l', rfl, h | ⟨hfault, -⟩⟩ := of_state h
  swap
  · exact absurd (hworks _ List.mem_cons_self) hfault
  rw [hfind] at h
  dsimp only at h
  rw [if_neg hmsg.undelivered] at h
  obtain ⟨o', l₂, rfl, h | ⟨hfault, -⟩⟩ := of_authorize_delivery h
  swap
  · exact absurd (hworks _ (List.mem_cons_of_mem _ List.mem_cons_self)).1 hfault
  have hauthorized : o'.authorized = true :=
    (hworks _ (List.mem_cons_of_mem _ List.mem_cons_self)).2.trans hmsg.authorized
  rw [hauthorized, if_neg Bool.noConfusion, if_neg (not_not_intro hmsg.handler)] at h
  replace hworks : ∀ x ∈ l₂, Working authority x := fun x hx =>
    hworks x (List.mem_cons_of_mem _ (List.mem_cons_of_mem _ hx))
  refine Attempted.append_right ?_ [_, _]
  rcases h.of_bind with ⟨e, hclaim, -⟩ | ⟨claimed, w₁, l₃, l₄, rfl, hclaim, h⟩
  · rcases of_claim_outbox authority hclaim with hend | ⟨⟨x, hx, hfault⟩, -⟩
    · rw [hfind] at hend
      cases hend with
      | unknown hnone => cases hnone
      | exhausted hstored hattempts =>
        cases hstored
        exact absurd hmsg.attempts (Nat.not_lt.mpr hattempts)
    · exact absurd (hworks x hx) hfault
  · have hclaimed : claimed = msg.claimed worker_id := by
      rcases of_claim_outbox authority hclaim with hend | ⟨-, e, he⟩
      · rw [hfind] at hend
        cases hend with
        | delivered hstored hstatus =>
          cases hstored
          exact absurd hstatus hmsg.undelivered
        | claimed hstored _ =>
          cases hstored
          rfl
      · cases he
    refine Attempted.append_right ?_ l₃
    cases h with
    | call o h => exact ⟨_, List.mem_cons_self, congrArg Call.handler hclaimed⟩

/-- **A message that cannot be delivered is passed over**, and nothing has changed. -/
theorem dispatch_one_passes (hfind : w.outbox.find? id = some msg) (hopen : msg.status ≠ .DELIVERED)
    (hmsg : ¬ Deliverable d authority msg) (h : Solo exec (dispatch_one d id worker_id) w l r w')
    (hworks : ∀ x ∈ l, Working authority x) :
    w' = w ∧ ((∃ result, r = .ok result) ∨ ∃ code, r = .error (.reliability code)) := by
  obtain ⟨o, l', rfl, h | ⟨hfault, -⟩⟩ := of_state h
  swap
  · exact absurd (hworks _ List.mem_cons_self) hfault
  rw [hfind] at h
  dsimp only at h
  rw [if_neg hopen] at h
  obtain ⟨o', l₂, rfl, h | ⟨hfault, -⟩⟩ := of_authorize_delivery h
  swap
  · exact absurd (hworks _ (List.mem_cons_of_mem _ List.mem_cons_self)).1 hfault
  have hauthorized : o'.authorized = authority msg :=
    (hworks _ (List.mem_cons_of_mem _ List.mem_cons_self)).2
  split at h
  · obtain ⟨-, rfl, rfl⟩ := h.of_ret
    exact ⟨rfl, .inl ⟨_, rfl⟩⟩
  rename_i hauthority
  split at h
  · obtain ⟨-, rfl, rfl⟩ := h.of_ret
    exact ⟨rfl, .inl ⟨_, rfl⟩⟩
  rename_i hhandler
  -- the attempts are all that is left to be wrong with it
  have hattempts : ¬ msg.attempts < 3 := fun hlt => hmsg
    ⟨hopen, hlt, not_not.mp hhandler, by rw [← hauthorized]; simpa using hauthority⟩
  rcases h.of_bind with ⟨e, hclaim, rfl⟩ | ⟨claimed, w₁, l₃, l₄, rfl, hclaim, -⟩
  · rcases of_claim_outbox authority hclaim with hend | ⟨⟨x, hx, hfault⟩, -⟩
    · cases hend with
      | unknown => exact ⟨rfl, .inr ⟨_, rfl⟩⟩
      | exhausted => exact ⟨rfl, .inr ⟨_, rfl⟩⟩
    · exact absurd (hworks x (List.mem_cons_of_mem _ (List.mem_cons_of_mem _ hx))) hfault
  · rcases of_claim_outbox authority hclaim with hend | ⟨-, e, he⟩
    · rw [hfind] at hend
      cases hend with
      | delivered hstored hstatus =>
        cases hstored
        exact absurd hstatus hopen
      | claimed hstored hlt =>
        cases hstored
        exact absurd hlt hattempts
    · cases he

/-! ## A batch -/

variable {messages : List OutboxMessage}

theorem handles_dispatchEach {r : Except TrustError (List OutboxDeliveryResult)}
    (h : Solo exec (dispatchEach d worker_id messages) w l r w') :
    ∀ x ∈ l, ∀ v, x.call = .handler v → ∃ msg ∈ messages, v.message_id = msg.message_id := by
  induction messages generalizing w w' l r with
  | nil =>
    obtain ⟨rfl, -⟩ := h.of_ret
    exact fun x hx => nomatch hx
  | cons message rest ih =>
    obtain ⟨ended, w₁, l₁, l₂, rfl, hone, h⟩ := Solo.of_attempt h
    intro x hx v hv
    rcases List.mem_append.mp hx with hx | hx
    · exact ⟨message, List.mem_cons_self, handlesOnly_dispatch_one hone x hx v hv⟩
    have hrest : ∃ msg ∈ rest, v.message_id = msg.message_id := by
      match ended with
      | .ok result =>
        rcases h.of_bind with ⟨e, hrest, -⟩ | ⟨results, w₂, l₃, l₄, rfl, hrest, hend⟩
        · exact ih hrest x hx v hv
        · obtain ⟨rfl, -⟩ := hend.of_ret
          rw [List.append_nil] at hx
          exact ih hrest x hx v hv
      | .error (.reliability code) =>
        rcases h.of_bind with ⟨e, hrest, -⟩ | ⟨results, w₂, l₃, l₄, rfl, hrest, hend⟩
        · exact ih hrest x hx v hv
        · obtain ⟨rfl, -⟩ := hend.of_ret
          rw [List.append_nil] at hx
          exact ih hrest x hx v hv
      | .error (.store text) =>
        obtain ⟨rfl, -⟩ := h.of_raise
        cases hx
      | .error .fault =>
        obtain ⟨rfl, -⟩ := h.of_raise
        cases hx
    obtain ⟨msg, hmsg, hid⟩ := hrest
    exact ⟨msg, List.mem_cons_of_mem _ hmsg, hid⟩

/-- **A batch that holds a message that can be delivered comes to one.** The messages before the
    first such leave the state as it is. -/
theorem dispatchEach_attempts {r : Except TrustError (List OutboxDeliveryResult)}
    (hstored : ∀ msg ∈ messages, w.outbox.find? msg.message_id = some msg ∧ msg.status ≠ .DELIVERED)
    (hsome : ∃ msg ∈ messages, Deliverable d authority msg)
    (h : Solo exec (dispatchEach d worker_id messages) w l r w') (hworks : ∀ x ∈ l, Working authority x) :
    ∃ msg ∈ messages, Deliverable d authority msg ∧ Attempted worker_id l msg := by
  induction messages generalizing w w' l r with
  | nil =>
    obtain ⟨msg, hmsg, -⟩ := hsome
    cases hmsg
  | cons message rest ih =>
    obtain ⟨hfind, hopen⟩ := hstored message List.mem_cons_self
    obtain ⟨ended, w₁, l₁, l₂, rfl, hone, h⟩ := Solo.of_attempt h
    have hworks₁ : ∀ x ∈ l₁, Working authority x := fun x hx => hworks x (List.mem_append_left _ hx)
    by_cases hmsg : Deliverable d authority message
    · exact ⟨message, List.mem_cons_self, hmsg, (dispatch_one_attempts hfind hmsg hone hworks₁).append_left l₂⟩
    · -- this one is passed over, and one of the rest can be delivered
      obtain ⟨rfl, hend⟩ := dispatch_one_passes hfind hopen hmsg hone hworks₁
      have hrest : ∃ msg ∈ rest, Deliverable d authority msg := by
        obtain ⟨msg, hmem, hgood⟩ := hsome
        rcases List.mem_cons.mp hmem with rfl | hmem
        · exact absurd hgood hmsg
        · exact ⟨msg, hmem, hgood⟩
      have hstored' := fun msg hmem => hstored msg (List.mem_cons_of_mem _ hmem)
      have hworks₂ : ∀ x ∈ l₂, Working authority x := fun x hx => hworks x (List.mem_append_right _ hx)
      have hgoes : ∃ r₂ l₃ l₄ w₂, l₂ = l₃ ++ l₄ ∧ Solo exec (dispatchEach d worker_id rest) w₁ l₃ r₂ w₂ := by
        rcases hend with ⟨result, rfl⟩ | ⟨code, rfl⟩
        all_goals
          rcases h.of_bind with ⟨e, hrest, -⟩ | ⟨results, w₂, l₃, l₄, rfl, hrest, -⟩
          · exact ⟨_, l₂, [], _, (List.append_nil _).symm, hrest⟩
          · exact ⟨_, l₃, l₄, w₂, rfl, hrest⟩
      obtain ⟨r₂, l₃, l₄, w₂, rfl, hgoes⟩ := hgoes
      obtain ⟨msg, hmem, hgood, hattempt⟩ := ih hstored' hrest hgoes fun x hx =>
        hworks₂ x (List.mem_append_left _ hx)
      exact ⟨msg, List.mem_cons_of_mem _ hmem, hgood, (hattempt.append_left l₄).append_right l₁⟩

/-- **A dispatch comes to a message it can deliver exactly when its batch holds one.** -/
theorem dispatch_attempts_iff {s s' : ReliabilityState} {r : Except TrustError (List OutboxDeliveryResult)}
    (h : Solo exec (dispatch_pending d worker_id) s l r s') (hworks : ∀ x ∈ l, Working authority x) :
    (∃ msg ∈ s.outbox, Deliverable d authority msg ∧ Attempted worker_id l msg) ↔
      ∃ msg ∈ d.batch s, Deliverable d authority msg := by
  obtain ⟨o, l', rfl, h | ⟨hfault, -⟩⟩ := of_state h
  swap
  · exact absurd (hworks _ List.mem_cons_self) hfault
  constructor
  · rintro ⟨msg, hmsg, hgood, x, hx, hcall⟩
    have hx : x ∈ l' := by
      rcases List.mem_cons.mp hx with rfl | hx
      · cases hcall
      · exact hx
    obtain ⟨msg', hmsg', hid⟩ := handles_dispatchEach h x hx _ hcall
    -- the handler ran on a message of the batch, and ids are unique
    have heq : msg = msg' := Relational.Table.eq_of_key hmsg (mem_batch (d := d) hmsg').1 hid
    exact ⟨msg', hmsg', heq ▸ hgood⟩
  · intro hsome
    have hstored : ∀ msg ∈ d.batch s, s.outbox.find? msg.message_id = some msg ∧ msg.status ≠ .DELIVERED :=
      fun msg hmsg => ⟨Relational.Table.find?_key (mem_batch hmsg).1, (mem_batch hmsg).2⟩
    obtain ⟨msg, hmsg, hgood, hattempt⟩ := dispatchEach_attempts hstored hsome h fun x hx =>
      hworks x (List.mem_cons_of_mem _ hx)
    exact ⟨msg, (mem_batch hmsg).1, hgood, hattempt.append_right [_]⟩

/-- **Progress.** Whatever the outbox holds, a dispatch attempts a message that can be delivered
    whenever there is one, exactly when such a message is then among the first of the batch. -/
theorem dispatch_progresses_iff {s s' : ReliabilityState} {r : Except TrustError (List OutboxDeliveryResult)}
    (h : Solo exec (dispatch_pending d worker_id) s l r s') (hworks : ∀ x ∈ l, Working authority x) :
    ((∃ msg ∈ s.outbox, Deliverable d authority msg) →
      ∃ msg ∈ s.outbox, Deliverable d authority msg ∧ Attempted worker_id l msg) ↔
    ((∃ msg ∈ s.outbox, Deliverable d authority msg) → ∃ msg ∈ d.batch s, Deliverable d authority msg) := by
  rw [dispatch_attempts_iff h hworks]

/-! ### A message behind an exhausted one -/

/-- A message that came at `created_at`. -/
def messageAt (message_id : String) (created_at : Instant) (status : OutboxStatus) (attempts : Nat) :
    OutboxMessage where
  message_id := message_id
  tenant_id := "tenant"
  project_id := "project"
  topic := "topic"
  payload_hash := ""
  payload_ref := ""
  idempotency_key := message_id
  status := status
  attempts := attempts
  claimed_by := none
  next_attempt_at := none
  delivered_at := none
  last_error := none
  created_at := created_at

/-- A message whose handler has failed three times, and one that came after it. -/
def crowded : ReliabilityState :=
  { ReliabilityState.empty with
    outbox := ⟨[messageAt "old" 0 .FAILED 3, messageAt "new" 1 .PENDING 0], by decide⟩ }

omit [Sha256] in
theorem new_stored : messageAt "new" 1 .PENDING 0 ∈ crowded.outbox :=
  List.mem_cons_of_mem _ List.mem_cons_self

/-- Nothing goes wrong, and everything is authorized. -/
def unhindered : Outcome := ⟨0, none, true, .ok none⟩

/-- What a dispatch in batches of `max_batch` does to the two messages. -/
def crowdedCalls (max_batch : Nat) : DispatchCalls :=
  soloCalls exec unhindered (dispatch_pending ⟨["topic"], max_batch⟩ "worker") [] crowded

theorem crowded_works (max_batch : Nat) : ∀ x ∈ crowdedCalls max_batch, Working (fun _ => true) x := by
  rintro ⟨w, c, o⟩ hx
  obtain rfl : o = unhindered := outside_of_soloCalls _ hx
  cases c with
  | handler => trivial
  | authorize_delivery => exact ⟨rfl, rfl⟩
  | state | utc_now | transaction => exact rfl

theorem crowded_solo (max_batch : Nat) : ∃ r s', Solo exec
    (dispatch_pending ⟨["topic"], max_batch⟩ "worker") crowded (crowdedCalls max_batch) r s' :=
  ⟨_, _, solo_runAlone exec unhindered _ [] crowded⟩

omit [Sha256] in
/-- Where both fit into the batch, the second is attempted. -/
theorem dispatch_progresses_two : ∃ msg ∈ crowded.outbox, Deliverable ⟨["topic"], 2⟩ (fun _ => true) msg ∧
    Attempted "worker" (@crowdedCalls Canonical.plainHash 2) msg := by
  obtain ⟨r, s', h⟩ := @crowded_solo Canonical.plainHash 2
  refine (@dispatch_progresses_iff _ _ _ Canonical.plainHash _ _ _ _ h
    (@crowded_works Canonical.plainHash 2)).mpr (fun _ => ?_) ?_
  · exact ⟨messageAt "new" 1 .PENDING 0, by decide, by decide⟩
  · exact ⟨_, new_stored, by decide⟩

omit [Sha256] in
/-- Where one fits, the exhausted message is all the dispatch comes to. -/
theorem dispatch_blocked : ∃ l r s', Solo (@exec Canonical.plainHash)
      (dispatch_pending ⟨["topic"], 1⟩ "worker") crowded l r s' ∧
    (∀ x ∈ l, Working (fun _ => true) x) ∧
    (∃ msg ∈ crowded.outbox, Deliverable ⟨["topic"], 1⟩ (fun _ => true) msg) ∧
    ¬ ∃ msg ∈ crowded.outbox, Deliverable ⟨["topic"], 1⟩ (fun _ => true) msg ∧
      Attempted "worker" l msg := by
  obtain ⟨r, s', h⟩ := @crowded_solo Canonical.plainHash 1
  refine ⟨_, r, s', h, @crowded_works Canonical.plainHash 1,
    ⟨_, new_stored, by decide⟩, ?_⟩
  rw [@dispatch_attempts_iff _ _ _ Canonical.plainHash _ _ _ _ h (@crowded_works Canonical.plainHash 1)]
  decide

end Reliability
