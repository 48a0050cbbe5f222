import MissionControl.Actions.Steps

/-! # What a worker owes before each write

One definition per kind of write says what the worker has done and seen when it
makes the call. The calls a worker has made, with their answers, are its *trace*.
`Actions.Safety` shows that every operation meets these duties; everything the
plane guarantees is proved from them. -/

namespace Actions

open Canonical (Value Sha256)
open Interleaving (Program)

abbrev Trace : Type := List (Program.Exchange Plane)

abbrev Stage : Type := Interleaving.Stage Plane World

/-- The worker made the call and it returned `r`. -/
def Did (t : Trace) (c : Call) (r : Call.Resp c) : Prop :=
  (⟨c, .ok r⟩ : Program.Exchange Plane) ∈ t

/-- The trace goes on after a call that returned `r`. -/
structure Since (t : Trace) (c : Call) (r : Call.Resp c) (before after : Trace) : Prop where
  split : t = before ++ (⟨c, .ok r⟩ : Program.Exchange Plane) :: after

variable {t' t : Trace} {c : Call}

variable {r : Call.Resp c}

theorem Did.mono (h : Did t c r) (ht : t <+: t') : Did t' c r :=
  ht.subset h

theorem Since.mono {before after : Trace} (h : Since t c r before after) (ht : t <+: t') :
    ∃ more, Since t' c r before (after ++ more) := by
  obtain ⟨more, rfl⟩ := ht
  exact ⟨more, ⟨by rw [h.split, List.append_assoc, List.cons_append]⟩⟩

/-- The worker has sent the provider nothing. -/
def NoPut (t : Trace) : Prop := ∀ x ∈ t, ∀ a, x.1 ≠ .sandbox_put a

variable [Sha256] [Deployment]

/-- The worker ran `preflight` on the row, and it found nothing against it. -/
def Cleared (t : Trace) (row : ActionRow) (moment : Moment) : Prop :=
  ∃ before during after, t = before ++ during ++ after ∧ Did before .clock moment ∧
    (preflight row moment).Trace during (.ok ([], []))

variable {row : ActionRow}

theorem Cleared.mono {moment : Moment} (h : Cleared t row moment) (ht : t <+: t') : Cleared t' row moment := by
  obtain ⟨before, during, after, rfl, hclock, hrun⟩ := h
  obtain ⟨more, rfl⟩ := ht
  exact ⟨before, during, after ++ more, by simp, hclock, hrun⟩

/-- The worker has taken the lease of an attempt, which left the row as `row`,
    after a preflight that found nothing against the action. -/
def Leased (t : Trace) (row : ActionRow) : Prop :=
  ∃ a before after read moment, Since t (.transition a) row before after ∧
    a.to_state = .DISPATCHING ∧ row.state = .DISPATCHING ∧ Cleared before read moment ∧
    read.toActionIdentity = row.toActionIdentity

/-- After it moved the row to RECONCILING, which left it as `row`, the worker
    found no effect under the action's key. -/
def NotFound (t : Trace) (row : ActionRow) : Prop :=
  ∃ a before after adapter, Since t (.transition a) row before after ∧
    a.to_state = .RECONCILING ∧ row.state = .RECONCILING ∧
    adapterOf row.capability_id = some adapter ∧
    Did after (.sandbox_get row.tenant_id adapter.provider (_ctx row).effect_key) none

theorem Leased.mono (h : Leased t row) (ht : t <+: t') : Leased t' row := by
  obtain ⟨a, before, after, read, moment, hs, rest⟩ := h
  obtain ⟨more, hs'⟩ := hs.mono ht
  exact ⟨a, before, after ++ more, read, moment, hs', rest⟩

theorem NotFound.mono (h : NotFound t row) (ht : t <+: t') : NotFound t' row := by
  obtain ⟨a, before, after, adapter, hs, hto, hst, had, hget⟩ := h
  obtain ⟨more, hs'⟩ := hs.mono ht
  exact ⟨a, before, after ++ more, adapter, hs', hto, hst, had, hget.mono (List.prefix_append _ _)⟩

/-- Since it took the lease, which left the row as `row`, the worker met a failure
    that the adapter raises before any effect, and it has sent the provider nothing. -/
def BeforeEffect (t : Trace) (row : ActionRow) : Prop :=
  ∃ a before after, Since t (.transition a) row before after ∧ a.to_state = .DISPATCHING ∧
    row.state = .DISPATCHING ∧ Did after .fault (some .transient_before_effect) ∧ NoPut t

omit [Sha256] [Deployment] in
theorem BeforeEffect.mono (h : BeforeEffect t row) (ht : t <+: t') (hput : NoPut t') : BeforeEffect t' row := by
  obtain ⟨a, before, after, hs, hto, hstate, hfault, -⟩ := h
  obtain ⟨more, hs'⟩ := hs.mono ht
  exact ⟨a, before, after ++ more, hs', hto, hstate, hfault.mono (List.prefix_append _ _), hput⟩

theorem Leased.beforeEffect {more : Trace} (h : Leased t row)
    (hfault : Did more .fault (some .transient_before_effect)) (hput : NoPut (t ++ more)) :
    BeforeEffect (t ++ more) row := by
  obtain ⟨a, before, after, _, _, hs, hto, hstate, -, -⟩ := h
  refine ⟨a, before, after ++ more, ⟨?_⟩, hto, hstate, List.mem_append_right _ hfault, hput⟩
  rw [hs.split, List.append_assoc, List.cons_append]

/-- The worker knows that the attempt the row records had no effect. -/
def Effectless (t : Trace) (row : ActionRow) : Prop := BeforeEffect t row ∨ NotFound t row

/-! ## What rows, reservations and effects are made of -/

/-- What `propose` puts into the columns that never change. -/
structure WellFormed (x : ActionIdentity) : Prop where
  coherent : x.risk.Coherent
  effective : x.effective_class = x.risk.effective
  subjects : x.binding.approval_subjects = [] ∨
    x.binding.approval_subjects = required_subjects x.risk true
  binding : x.binding_hash = _binding_hash x.binding
  adapter : ∃ a raw, adapterOf x.capability_id = some a ∧ a.validate raw = .ok x.args ∧
    x.binding.capability_ref = a.descriptor.ref ∧
    x.binding.cost_minor = (a.estimate x.args).amount_minor ∧
    x.binding.currency = (a.estimate x.args).currency
  payload : x.payload_hash = Canonical.canonical_hash x.args.model_dump

omit [Sha256] [Deployment] in
/-- The reservation holds the bound cost of the action. -/
structure ReservedFor (x : ActionIdentity) (r : Reservation) : Prop where
  action_id : r.action_id = x.action_id
  tenant_id : r.tenant_id = x.tenant_id
  project_id : r.project_id = x.project_id
  client_id : r.client_id = x.client_id
  amount_minor : r.amount_minor = x.binding.cost_minor
  currency : ∃ currency, x.binding.currency = some currency ∧ r.currency = currency.toUpper

/-- The effect was made for the action. -/
structure MadeFor (x : ActionIdentity) (e : Effect) : Prop where
  action_id : e.action_id = x.action_id
  tenant_id : e.tenant_id = x.tenant_id
  payload_hash : e.payload_hash = x.payload_hash
  key : e.idempotency_key =
    effect_key x.tenant_id x.binding.capability_ref x.target_ref x.payload_hash x.idempotency_key
  adapter : ∃ a args, adapterOf x.capability_id = some a ∧ a.validate x.args = .ok args ∧
    e.provider = a.provider ∧ e.cost_minor = (a.estimate args).amount_minor ∧
    e.currency = (a.estimate args).currency

variable {x : ActionIdentity}

omit [Sha256] [Deployment] in
theorem ReservedFor.follows {r r' : Reservation} (h : ReservedFor x r) (hf : r.Follows r') : ReservedFor x r' :=
  ⟨hf.action_id.trans h.action_id, hf.tenant_id.trans h.tenant_id,
    hf.project_id.trans h.project_id, hf.client_id.trans h.client_id, hf.amount_minor.trans h.amount_minor, by
      obtain ⟨currency, hc, hr⟩ := h.currency
      exact ⟨currency, hc, hf.currency.trans hr⟩⟩

theorem MadeFor.follows {e e' : Effect} (h : MadeFor x e) (hf : e.Follows e') : MadeFor x e' :=
  ⟨hf.action_id.trans h.action_id, hf.tenant_id.trans h.tenant_id,
    hf.payload_hash.trans h.payload_hash, hf.idempotency_key.trans h.key, by
      obtain ⟨a, args, ha, hargs, hp, hc, hcur⟩ := h.adapter
      exact ⟨a, args, ha, hargs, hf.provider.trans hp, hf.cost_minor.trans hc, hf.currency.trans hcur⟩⟩

omit [Sha256] [Deployment] in
/-- Nothing is held for the row. -/
def Released (w : World) (row : ActionRow) : Prop :=
  ∀ id, row.budget_reservation_id = some id → NotReserved w id

/-! ## Moves -/

/-- Why a worker with the trace `t` moves `row` to a state with these updates. -/
inductive Purpose (t : Trace) (w : World) (row : ActionRow) : ActionState → Updates → Prop where
  /-- A move that takes no lease, holds no money and records no failure. -/
  | plain {to_state : ActionState} {u : Updates} (edge : ActionState.Edge row.state to_state)
      (hto : to_state ∉ [.RESERVED, .DISPATCHING, .FAILED]) (hfrom : row.state ≠ .FAILED)
      (hid : u.budget_reservation_id = none) : Purpose t w row to_state u
  /-- The bounded retry. -/
  | retry {u : Updates} (hfrom : row.state = .FAILED) (heligible : row.retry_eligible = true)
      (hid : u.budget_reservation_id = some none) : Purpose t w row .AUTHORIZED u
  /-- The reservation the worker made for this row is named by it. -/
  | reserve {u : Updates} {currency : String} {moment : Moment} {res r : Reservation}
      (hfrom : row.state = .AUTHORIZED) (hcurrency : row.binding.currency = some currency)
      (hres : Did t (.reserve_budget (reserveArgs row currency moment)) res)
      (hmem : r ∈ w.action_budget_reservations) (hr : r.reservation_id = res.reservation_id)
      (hfor : ReservedFor row.toActionIdentity r)
      (hid : u.budget_reservation_id = some (some res.reservation_id)) :
      Purpose t w row .RESERVED u
  /-- The lease, after a preflight that found nothing. -/
  | lease {u : Updates} {read : ActionRow} {moment : Moment}
      (edge : ActionState.Edge row.state .DISPATCHING) (hcleared : Cleared t read moment)
      (hread : read.toActionIdentity = row.toActionIdentity) (hput : NoPut t)
      (hid : u.budget_reservation_id = none) : Purpose t w row .DISPATCHING u
  /-- A failure of the worker's own attempt, before it sent anything. -/
  | failed {u : Updates} (hlease : Leased t row) (hput : NoPut t) (hreleased : Released w row)
      (hid : u.budget_reservation_id = some none ∨
        u.budget_reservation_id = none ∧ u.retry_eligible = some false) :
      Purpose t w row .FAILED u
  /-- The provider has no record of the effect. -/
  | not_applied {u : Updates} (hread : NotFound t row) (hreleased : Released w row)
      (hid : u.budget_reservation_id = some none) : Purpose t w row .FAILED u

/-- The states a lease may stand in. `VERIFIED` keeps the one of the state before. -/
def LEASES : List ActionState := [.DISPATCHING, .OBSERVING, .RECONCILING, .VERIFIED]

/-- The updates clear the lease, or the new state may have one, or there was none and
    they add none. -/
def Lease (from_state to_state : ActionState) (u : Updates) : Prop :=
  u.lease_expires_at = some none ∨ to_state ∈ LEASES ∨
    u.lease_expires_at = none ∧ from_state ∉ LEASES

/-- What a worker with the trace `t` writes into the columns of an attempt: how many
    there were, how long it is leased, and whether its failure may be retried. -/
structure Columns (t : Trace) (row : ActionRow) (to_state : ActionState) (u : Updates) : Prop where
  attempts : u.attempts = if to_state = .DISPATCHING then some (row.attempts + 1) else none
  lease : Lease row.state to_state u
  eligible : u.retry_eligible = some true →
    to_state = .FAILED ∧ row.attempts < MAX_ATTEMPTS ∧ Effectless t row
  bounded : row.state = .FAILED → row.attempts < MAX_ATTEMPTS ∧ u.retry_eligible = some false

/-- The columns of a move that starts no attempt and ends none as retryable. -/
structure PlainColumns (from_state to_state : ActionState) (u : Updates) : Prop where
  attempts : u.attempts = none
  eligible : u.retry_eligible.getD false = false
  lease : Lease from_state to_state u

variable {to_state : ActionState} {u : Updates}

theorem PlainColumns.columns (h : PlainColumns row.state to_state u) (hto : to_state ≠ .DISPATCHING)
    (hfrom : row.state ≠ .FAILED) : Columns t row to_state u where
  attempts := by rw [if_neg hto, h.attempts]
  lease := h.lease
  eligible := fun heligible => by
    have hfalse := h.eligible
    rw [heligible] at hfalse
    cases hfalse
  bounded := fun hfailed => absurd hfailed hfrom

theorem Purpose.edge {w : World} (h : Purpose t w row to_state u) : ActionState.Edge row.state to_state := by
  cases h with
  | plain edge => exact edge
  | retry hfrom => rw [hfrom]; decide
  | reserve hfrom => rw [hfrom]; decide
  | lease edge => exact edge
  | failed hlease =>
    obtain ⟨_, _, _, _, _, -, -, hstate, -⟩ := hlease
    rw [hstate]
    decide
  | not_applied hread =>
    obtain ⟨_, _, _, _, -, -, hstate, -⟩ := hread
    rw [hstate]
    decide

/-! ## Budget and provider -/

/-- The effect is the one under the action's key, with the payload the action is
    bound to. -/
structure ReadBack (w : World) (row : ActionRow) (e : Effect) : Prop where
  mem : e ∈ w.action_sandbox_effects
  tenant_id : e.tenant_id = row.tenant_id
  provider : ∃ a, adapterOf row.capability_id = some a ∧ e.provider = a.provider
  key : e.idempotency_key = (_ctx row).effect_key

/-- Why a worker settles a reservation. -/
inductive SettlePurpose (w : World) (a : SettleArgs) : Prop where
  | release (hstatus : a.status ∈ [.RELEASED, .EXPIRED]) (hexpected : a.expected_status = .RESERVED)
      (hamount : a.committed_minor = none)
  | commit {row : ActionRow} {e : Effect} (hseen : Seen w row) (hstate : row.state = .VERIFIED)
      (hid : row.budget_reservation_id = some a.reservation_id) (hread : ReadBack w row e)
      (hpayload : e.payload_hash = row.payload_hash) (hstatus : a.status = .COMMITTED)
      (hexpected : a.expected_status = .RESERVED)
      (hamount : a.committed_minor = some (e.cost_minor : Int))
  | refund {row : ActionRow} {e : Effect} (hseen : Seen w row) (hstate : row.state = .COMPLETED)
      (hid : row.budget_reservation_id = some a.reservation_id) (hread : ReadBack w row e)
      (hspent : e.state ≠ "SPENT") (hstatus : a.status = .REFUNDED)
      (hexpected : a.expected_status = .COMMITTED) (hamount : a.committed_minor = none)

/-- The row a worker inserts. -/
structure Proposed (row : ActionRow) : Prop where
  wellFormed : WellFormed row.toActionIdentity
  state : row.state = .PROPOSED
  version : row.version = 1
  unnamed : row.budget_reservation_id = none
  attempts : row.attempts = 0
  lease : row.lease_expires_at = none
  retry_eligible : row.retry_eligible = false

/-- **The duty before a call.** `direct` allows reservations outside a dispatch. -/
def Pre (direct : Prop) (i : Nat) (c : Call) (m : Stage) : Prop :=
  match c with
  | .insert_request row .. => Proposed row
  | .transition a => ∃ row to_state actor reason evidence u now,
      a = moveArgs row to_state actor reason evidence u now ∧ Seen m.world row ∧
        Purpose (m.own i) m.world row to_state u ∧ Columns (m.own i) row to_state u
  | .annotate a => ∃ row, Seen m.world row ∧ row.state = .COMPLETED ∧
      a.action_id = row.action_id ∧ a.expected_version = row.version
  | .reserve_budget a => a.now ≤ m.world.now ∧ (direct ∨ ∃ row currency moment,
      Seen m.world row ∧ row.state = .AUTHORIZED ∧ row.binding.currency = some currency ∧
        a = reserveArgs row currency moment)
  | .settle_reservation a => SettlePurpose m.world a
  | .sandbox_put a => ∃ row adapter args, Seen m.world row ∧ Leased (m.own i) row ∧
      NoPut (m.own i) ∧ adapterOf row.capability_id = some adapter ∧
      adapter.validate row.args = .ok args ∧ a = putArgs adapter (_ctx row) args
  | .sandbox_set_state _ state expected_state => ∃ a : Adapter, a.compensation = some (expected_state, state)
  | _ => True

theorem pre_of_minor {direct : Prop} {i : Nat} {m : Stage} (h : c.Minor) : Pre direct i c m := by
  cases c <;> first | exact h.elim | trivial

end Actions

/-! # What a call changes

Every call made within its duties either writes nothing or is one of seven
writes, each with the worker's reason for it. Everything a run keeps is proved
from these cases, without looking at an operation again. -/

namespace Actions

open Canonical (Sha256)
open Interleaving (Exec)

variable [Sha256] [Deployment]

/-- The call, with its answer, is a write to the rows, the budget or the
    effects. -/
def Writes : (c : Call) → Plane.Answer c → Prop
  | .insert_request .., .ok (_, created) => created = true
  | .transition _, .ok _ | .annotate _, .ok _ => True
  | .reserve_budget _, .ok _ | .settle_reservation _, .ok _ => True
  | .sandbox_put _, .ok (_, created) => created = true
  | .sandbox_set_state .., .ok _ => True
  | _, _ => False

omit [Sha256] [Deployment] in
theorem not_writes_error (c : Call) (e : ActionError) : ¬ Writes c (.error e) := by
  intro h
  cases c <;> exact h

/-- **What the call of worker `i` did** to the world, which is `w'` after it. -/
inductive Change (direct : Prop) (i : Nat) (m : Stage) (w' : World) :
    (c : Call) → Plane.Answer c → Prop where
  | quiet {c : Call} {ans : Plane.Answer c} (quiet : ¬ Writes c ans)
      (rest : w' = { m.world with nextId := w'.nextId, approvals := w'.approvals }) :
      Change direct i m w' c ans
  | insert {row : ActionRow} {actor reason : String} {evidence : Option Canonical.Value}
      (done : InsertDone m.world w' row) (proposed : Proposed row) :
      Change direct i m w' (.insert_request row actor reason evidence) (.ok (row, true))
  | move {row r : ActionRow} {to_state : ActionState} {actor reason : String}
      {evidence : List (String × Canonical.Value)} {u : Updates} {now : Moment}
      (done : MoveDone m.world w' row r to_state u now)
      (purpose : Purpose (m.own i) m.world row to_state u)
      (columns : Columns (m.own i) row to_state u) :
      Change direct i m w' (.transition (moveArgs row to_state actor reason evidence u now)) (.ok r)
  | annotate {row r : ActionRow} {a : AnnotateArgs} (done : AnnotateDone m.world w' row r)
      (state : row.state = .COMPLETED) : Change direct i m w' (.annotate a) (.ok r)
  | reserve {a : ReserveArgs} {r : Reservation} (done : ReserveDone m.world w' a r)
      (now : a.now ≤ m.world.now)
      (asked : direct ∨ ∃ row currency moment, Seen m.world row ∧ row.state = .AUTHORIZED ∧
        row.binding.currency = some currency ∧ a = reserveArgs row currency moment) :
      Change direct i m w' (.reserve_budget a) (.ok r)
  | settle {a : SettleArgs} {r₀ r : Reservation} (done : SettleDone m.world w' a r₀ r)
      (purpose : SettlePurpose m.world a) :
      Change direct i m w' (.settle_reservation a) (.ok r)
  | put {row : ActionRow} {adapter : Adapter} {args : ActionArgs} {e : Effect}
      (done : PutDone m.world w' (putArgs adapter (_ctx row) args) e) (seen : Seen m.world row)
      (lease : Leased (m.own i) row) (unsent : NoPut (m.own i))
      (entry : adapterOf row.capability_id = some adapter)
      (valid : adapter.validate row.args = .ok args) :
      Change direct i m w' (.sandbox_put (putArgs adapter (_ctx row) args)) (.ok (e, true))
  | alter {effect_id : Nat} {state expected_state : String} {e : Effect}
      (done : ChangeDone m.world w' effect_id state expected_state)
      (compensates : ∃ a : Adapter, a.compensation = some (expected_state, state)) :
      Change direct i m w' (.sandbox_set_state effect_id state expected_state) (.ok e)

/-- **Every call within its duties is one of these.** -/
theorem Pre.change {direct : Prop} {i : Nat} {c : Call} {m : Stage} (hp : Pre direct i c m) (o : Option Fault) :
    Change direct i m (exec.after c o m.world) c (exec.answer c o m.world) := by
  cases hexec : exec c o m.world with
  | error e =>
    have hans : exec.answer c o m.world = .error e := by
      unfold Exec.answer
      rw [hexec]
      rfl
    rw [hans, Exec.after_of_error hexec]
    exact .quiet (not_writes_error c e) rfl
  | ok x =>
    obtain ⟨r, w'⟩ := x
    have hans : exec.answer c o m.world = .ok r := by
      unfold Exec.answer
      rw [hexec]
      rfl
    rw [hans, Exec.after_of_ok hexec]
    cases c with
    | insert_request row actor reason evidence =>
      obtain ⟨r, created⟩ := r
      rcases insert_done hexec with ⟨rfl, rfl, -⟩ | ⟨rfl, rfl, hd⟩
      · exact .quiet Bool.false_ne_true rfl
      · exact .insert hd hp
    | transition a =>
      obtain ⟨row, to_state, actor, reason, evidence, u, now, rfl, hseen, hpur, hcols⟩ := hp
      exact .move (transition_move hseen hexec) hpur hcols
    | annotate a =>
      obtain ⟨row, hseen, hstate, hid, hver⟩ := hp
      exact .annotate (annotate_done hseen hid hver hexec) hstate
    | reserve_budget a => exact .reserve (reserve_done hexec) hp.1 hp.2
    | settle_reservation a =>
      obtain ⟨r₀, hd⟩ := settle_done hexec
      exact .settle hd hp
    | sandbox_put a =>
      obtain ⟨e, created⟩ := r
      obtain ⟨row, adapter, args, hseen, hlease, hput, had, hargs, rfl⟩ := hp
      rcases put_done hexec with ⟨rfl, rfl, -⟩ | ⟨rfl, hd⟩
      · exact .quiet Bool.false_ne_true rfl
      · exact .put hd hseen hlease hput had hargs
    | sandbox_set_state effect_id state expected_state => exact .alter (change_done hexec) hp
    | create_approval_request a =>
      obtain ⟨-, rfl⟩ : _ = r ∧ _ = w' := by simpa [exec, create_approval_request] using hexec
      exact .quiet (fun h => h) rfl
    | mark_approval_stale id =>
      obtain rfl : _ = w' := by simpa [exec] using hexec
      exact .quiet (fun h => h) rfl
    | _ =>
      cases hexec
      exact .quiet (fun h => h) rfl

end Actions
