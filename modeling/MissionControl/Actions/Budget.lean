import MissionControl.Actions.Requests
import Mathlib.Data.Nat.Find

/-! # Budget windows

The start of the UTC day and of the calendar month a moment lies in. Both are
monotone and not after the moment itself, which is all the budget uses. -/

namespace Actions

def DAY : Nat := 24 * 3600 * SECOND

/-- `now.replace(hour=0, minute=0, second=0, microsecond=0)`. -/
def dayStart (now : Moment) : Moment := now / DAY * DAY

def isLeap (year : Nat) : Bool := year % 4 = 0 && (year % 100 ≠ 0 || year % 400 = 0)

/-- The days of month `m` (0 is January) of a year. -/
def daysInMonth (year m : Nat) : Nat :=
  match m with
  | 1 => if isLeap year then 29 else 28
  | 3 | 5 | 8 | 10 => 30
  | _ => 31

/-- The day, counted from the epoch, on which the `k`-th month since January 1970
    starts. -/
def monthStartDay : Nat → Nat
  | 0 => 0
  | k + 1 => monthStartDay k + daysInMonth (1970 + k / 12) (k % 12)

/-- The month a day lies in, counted from January 1970. -/
def monthOf (day : Nat) : Nat := Nat.findGreatest (fun k => monthStartDay k ≤ day) day

/-- `now.replace(day=1, hour=0, minute=0, second=0, microsecond=0)`. -/
def monthStart (now : Moment) : Moment := monthStartDay (monthOf (now / DAY)) * DAY

variable {b a : Moment}

theorem dayStart_mono (h : a ≤ b) : dayStart a ≤ dayStart b :=
  Nat.mul_le_mul_right _ (Nat.div_le_div_right h)

theorem monthStartDay_mono {j k : Nat} (h : j ≤ k) : monthStartDay j ≤ monthStartDay k := by
  induction h with
  | refl => exact Nat.le_refl _
  | step _ ih => exact Nat.le_trans ih (Nat.le_add_right _ _)

theorem monthOf_mono {a b : Nat} (h : a ≤ b) : monthOf a ≤ monthOf b :=
  Nat.findGreatest_mono (fun _ hk => Nat.le_trans hk h) h

theorem monthStart_mono (h : a ≤ b) : monthStart a ≤ monthStart b :=
  Nat.mul_le_mul_right _ (monthStartDay_mono (monthOf_mono (Nat.div_le_div_right h)))

end Actions

/-! # Persistence of budget reservations -/

namespace Actions

open Relational (Table)

/-! ## Policies and usage -/

def _applicable (policies : List BudgetPolicy) (tenant_id project_id : String)
    (client_id : Option String) : List BudgetPolicy :=
  policies.filter fun p =>
    match p.scope_kind with
    | .ACTION => p.scope_ref = "*" || p.scope_ref = project_id
    | .PROJECT => p.scope_ref = project_id
    -- an empty client id is no client
    | .CLIENT => client_id = some p.scope_ref && p.scope_ref ≠ ""
    | .TENANT_DAY | .TENANT_MONTH => p.scope_ref = tenant_id

namespace Reservation

/-- A status whose money counts against the ceilings. -/
def active (r : Reservation) : Bool := r.status = .RESERVED || r.status = .COMMITTED

/-- What an active reservation counts for. -/
def counted (r : Reservation) : Nat :=
  if r.status = .COMMITTED then r.committed_minor.getD r.amount_minor else r.amount_minor

end Reservation

/-- The extra condition of a policy's scope on the reservations it counts. -/
def inScope (kind : ScopeKind) (project_id : String) (client_id : Option String) (now : Moment)
    (r : Reservation) : Bool :=
  match kind with
  | .ACTION => true
  | .PROJECT => r.project_id = project_id
  | .CLIENT => client_id.isSome && r.client_id = client_id
  | .TENANT_DAY => dayStart now ≤ r.created_at
  | .TENANT_MONTH => monthStart now ≤ r.created_at

/-- The reservations `_usage` sums over. -/
def usageRows (w : World) (kind : ScopeKind) (tenant_id project_id : String)
    (client_id : Option String) (currency : String) (now : Moment) : List Reservation :=
  w.action_budget_reservations.rows.filter fun r =>
    r.tenant_id = tenant_id && r.currency = currency && r.active &&
      inScope kind project_id client_id now r

def _usage (w : World) (policy : BudgetPolicy) (tenant_id project_id : String)
    (client_id : Option String) (currency : String) (now : Moment) : Nat :=
  ((usageRows w policy.scope_kind tenant_id project_id client_id currency now).map (·.counted)).sum

/-! ## Reserving -/

/-- The arguments of `reserve_budget`. -/
structure ReserveArgs where
  tenant_id : String
  project_id : String
  client_id : Option String
  action_id : String
  currency : String
  amount_minor : Int
  expires_at : Moment
  now : Moment

/-- A reservation after the sweep of `reserve_budget`: the tenant's reservations
    that are past their time expire. -/
def Reservation.swept (tenant_id : String) (stamp : Moment) (r : Reservation) : Reservation :=
  if r.tenant_id = tenant_id ∧ r.status = .RESERVED ∧ r.expires_at < stamp then
    { r with status := .EXPIRED, updated_at := stamp }
  else r

theorem Reservation.swept_id (tenant_id : String) (stamp : Moment) (r : Reservation) :
    (r.swept tenant_id stamp).reservation_id = r.reservation_id := by
  unfold Reservation.swept
  split <;> rfl

def World.sweep (w : World) (tenant_id : String) (stamp : Moment) : World :=
  { w with
    action_budget_reservations :=
      w.action_budget_reservations.modify (·.swept tenant_id stamp) (Reservation.swept_id _ _) }

theorem World.mem_sweep {w : World} {tenant_id : String} {stamp : Moment} {r : Reservation} :
    r ∈ (w.sweep tenant_id stamp).action_budget_reservations ↔
      ∃ r₀ ∈ w.action_budget_reservations, r₀.swept tenant_id stamp = r :=
  Table.mem_modify (Reservation.swept_id tenant_id stamp)

/-- The ceilings the amount would exceed. An `ACTION` ceiling bounds the amount
    alone. -/
def breaches (w : World) (applicable : List BudgetPolicy) (a : ReserveArgs) (currency : String)
    (amount : Nat) : List Breach :=
  applicable.filterMap fun p =>
    let used := if p.scope_kind = .ACTION then 0
      else _usage w p a.tenant_id a.project_id a.client_id currency a.now
    if p.ceiling_minor < used + amount then
      some ⟨p.scope_kind, p.scope_ref, p.ceiling_minor, used, amount⟩
    else none

/-- The row `reserve_budget` inserts. -/
def ReserveArgs.reservation (a : ReserveArgs) (id : Nat) (amount : Nat) : Reservation where
  reservation_id := id
  tenant_id := a.tenant_id
  project_id := a.project_id
  client_id := a.client_id
  action_id := a.action_id
  currency := a.currency.toUpper
  amount_minor := amount
  committed_minor := none
  status := .RESERVED
  expires_at := a.expires_at
  created_at := a.now
  updated_at := a.now

/-- The ceilings of the tenant in the currency of a request. -/
def policiesFor (w : World) (tenant_id currency : String) : List BudgetPolicy :=
  w.action_budget_policies.filter fun p => p.tenant_id = tenant_id ∧ p.currency = currency

/-- Atomically check every applicable ceiling and reserve. -/
def reserve_budget (w : World) (a : ReserveArgs) : Tx Reservation :=
  if a.amount_minor < 0 then .error (.ValueError "amount_minor must be >= 0")
  else
    let currency := a.currency.toUpper
    let swept := w.sweep a.tenant_id a.now
    let applicable :=
      _applicable (policiesFor w a.tenant_id currency) a.tenant_id a.project_id a.client_id
    if applicable = [] then .error (.BudgetExceeded "NO_BUDGET_POLICY" [])
    else
      let found := breaches swept applicable a currency a.amount_minor.toNat
      if found ≠ [] then .error (.BudgetExceeded "BUDGET_CEILING_EXCEEDED" found)
      else
        let r := a.reservation w.nextId a.amount_minor.toNat
        if h : swept.action_budget_reservations.find? r.reservation_id = none then
          .ok (r, { swept with
            nextId := w.nextId + 1
            action_budget_reservations := swept.action_budget_reservations.insert r h })
        else .error (.IntegrityError "action_budget_reservations.reservation_id")

def get_reservation (w : World) (reservation_id : Nat) : Option Reservation :=
  w.action_budget_reservations.find? reservation_id

/-! ## Settling -/

/-- The arguments of `settle_reservation`. -/
structure SettleArgs where
  reservation_id : Nat
  status : ReservationStatus
  committed_minor : Option Int := none
  expected_status : ReservationStatus := .RESERVED

/-- A reservation after it is settled. -/
def Reservation.settled (a : SettleArgs) (stamp : Moment) (r : Reservation) : Reservation :=
  { r with
    status := a.status
    committed_minor := (a.committed_minor.map Int.toNat).or r.committed_minor
    updated_at := stamp }

theorem Reservation.settled_id (a : SettleArgs) (stamp : Moment) (r : Reservation) :
    (r.settled a stamp).reservation_id = r.reservation_id := rfl

def settle_reservation (w : World) (a : SettleArgs) : Tx Reservation :=
  if a.status = .RESERVED then .error (.ValueError "unknown reservation status RESERVED")
  else
    match w.action_budget_reservations.find? a.reservation_id with
    | none => .error (.ActionNotFound s!"{a.reservation_id}")
    | some current =>
      if current.status ≠ a.expected_status then
        .error (.ActionConflict s!"reservation {a.reservation_id} has another status")
      else if ∃ c ∈ a.committed_minor, c < 0 then
        .error (.IntegrityError "action_budget_reservations.committed_minor")
      else
        .ok (current.settled a w.now,
          { w with
            action_budget_reservations :=
              w.action_budget_reservations.update a.reservation_id (·.settled a w.now)
                (Reservation.settled_id a w.now) })

end Actions

/-! # The other stores of the action plane

The sandbox provider's effects, approvals, freezes, project settings, clients and
artifact heads, as far as the gateway reads or writes them. -/

namespace Actions

open Relational (Table)

/-! ## The sandbox provider -/

/-- The arguments of `sandbox_put`. `action_id` is the entry of its `body` that
    names the action. -/
structure PutArgs where
  tenant_id : String
  provider : String
  operation : OperationKind
  idempotency_key : String
  target_ref : String
  payload_hash : String
  state : String
  action_id : String
  cost_minor : Nat
  currency : Option String

/-- The effect `sandbox_put` creates. -/
def PutArgs.effect (a : PutArgs) (id : Nat) (stamp : Moment) : Effect where
  effect_id := id
  tenant_id := a.tenant_id
  provider := a.provider
  operation := a.operation
  idempotency_key := a.idempotency_key
  target_ref := a.target_ref
  payload_hash := a.payload_hash
  state := a.state
  cost_minor := a.cost_minor
  currency := a.currency
  action_id := a.action_id
  created_at := stamp
  updated_at := stamp

def sandbox_get (w : World) (tenant_id provider idempotency_key : String) : Option Effect :=
  w.action_sandbox_effects.find? (tenant_id, provider, idempotency_key)

/-- Create the effect, or return the one already there under its key. -/
def sandbox_put (w : World) (a : PutArgs) : Tx (Effect × Bool) :=
  if h : w.action_sandbox_effects.find? (a.tenant_id, a.provider, a.idempotency_key) = none then
    let e := a.effect w.nextId w.now
    .ok ((e, true), { w with
      nextId := w.nextId + 1
      action_sandbox_effects := w.action_sandbox_effects.insert e h })
  else
    match w.action_sandbox_effects.find? (a.tenant_id, a.provider, a.idempotency_key) with
    | some existing => .ok ((existing, false), w)
    | none => .error (.IntegrityError "action_sandbox_effects")

variable {e : Effect} {w' : World}

theorem sandbox_put_ok {w : World} {a : PutArgs} {created : Bool} (h : sandbox_put w a = .ok ((e, created), w')) :
    (created = false ∧ w' = w ∧ e ∈ w.action_sandbox_effects ∧ (e.tenant_id, e.provider, e.idempotency_key) =
        (a.tenant_id, a.provider, a.idempotency_key)) ∨ (created = true ∧ e = a.effect w.nextId w.now ∧
      ∃ hnew : w.action_sandbox_effects.find? (a.tenant_id, a.provider, a.idempotency_key) = none, w' = { w with
          nextId := w.nextId + 1
          action_sandbox_effects :=
            w.action_sandbox_effects.insert (a.effect w.nextId w.now) hnew }) := by
  unfold sandbox_put at h
  split at h
  · rename_i hnew
    obtain ⟨⟨rfl, rfl⟩, rfl⟩ : (_ = e ∧ true = created) ∧ _ = w' := by simpa using h
    exact .inr ⟨rfl, rfl, hnew, rfl⟩
  · split at h
    · rename_i existing hfound
      obtain ⟨⟨rfl, rfl⟩, rfl⟩ : (existing = e ∧ false = created) ∧ w = w' := by simpa using h
      exact .inl ⟨rfl, rfl, Table.find?_eq_some.mp hfound⟩
    · cases h

/-- An effect after `sandbox_set_state`, when it is the one named and in the
    expected state. -/
def Effect.changed (effect_id : Nat) (state expected_state : String) (stamp : Moment)
    (e : Effect) : Effect :=
  if e.effect_id = effect_id ∧ e.state = expected_state then
    { e with state := state, updated_at := stamp }
  else e

theorem Effect.changed_key (effect_id : Nat) (state expected_state : String) (stamp : Moment)
    (e : Effect) : ((e.changed effect_id state expected_state stamp).tenant_id,
      (e.changed effect_id state expected_state stamp).provider,
      (e.changed effect_id state expected_state stamp).idempotency_key) =
        (e.tenant_id, e.provider, e.idempotency_key) := by
  unfold Effect.changed
  split <;> rfl

def sandbox_set_state (w : World) (effect_id : Nat) (state expected_state : String) : Tx Effect :=
  match w.action_sandbox_effects.rows.find? fun e =>
      e.effect_id = effect_id ∧ e.state = expected_state with
  | none => .error (.ActionConflict s!"sandbox effect {effect_id} is not {expected_state}")
  | some e =>
    .ok (e.changed effect_id state expected_state w.now, { w with
      action_sandbox_effects :=
        w.action_sandbox_effects.modify (·.changed effect_id state expected_state w.now)
          (Effect.changed_key effect_id state expected_state w.now) })

theorem sandbox_set_state_ok {w : World} {effect_id : Nat} {state expected_state : String}
    (h : sandbox_set_state w effect_id state expected_state = .ok (e, w')) : w' = { w with
      action_sandbox_effects :=
        w.action_sandbox_effects.modify (·.changed effect_id state expected_state w.now)
          (Effect.changed_key effect_id state expected_state w.now) } := by
  unfold sandbox_set_state at h
  split at h
  · cases h
  · obtain ⟨-, rfl⟩ : _ = e ∧ _ = w' := by simpa using h
    rfl

/-! ## Approvals -/

/-- The arguments of `create_approval_request`. -/
structure ApprovalArgs where
  run_id : String
  tenant_id : String
  project_id : String
  subject_type : String
  subject_ref : String
  subject_hash : Option String

def create_approval_request (w : World) (a : ApprovalArgs) : Tx Approval :=
  let approval : Approval :=
    { approval_id := w.nextId
      run_id := a.run_id
      tenant_id := a.tenant_id
      project_id := a.project_id
      subject_type := a.subject_type
      subject_ref := a.subject_ref
      subject_hash := a.subject_hash
      status := .pending
      decision := none
      reviewer := none
      created_at := w.now
      decided_at := none }
  .ok (approval, { w with nextId := w.nextId + 1, approvals := w.approvals ++ [approval] })

/-- The approvals of a run, newest first. -/
def get_approvals_for_run (w : World) (run_id : String) : List Approval :=
  (w.approvals.filter (·.run_id = run_id)).insertionSort fun a b => b.created_at ≤ a.created_at

def mark_approval_stale (w : World) (approval_id : Nat) : World :=
  { w with
    approvals := w.approvals.map fun a =>
      if a.approval_id = approval_id then { a with status := .stale } else a }

/-! ## Freezes, settings, clients and artifacts -/

def active_freezes (w : World) (tenant_id : String) : List Freeze :=
  w.action_freezes.filter fun f => f.tenant_id = tenant_id ∧ f.lifted_by = none

def get_autonomy (w : World) (project_id : String) : Option AutonomyLevel :=
  (w.action_project_settings.find? (·.1 = project_id)).map (·.2)

def client_for_project (w : World) (project_id : String) : Option String :=
  (w.agency_client_projects.find? (·.1 = project_id)).map (·.2)

/-- The status of a client. -/
def get_client (w : World) (client_id : String) : Option String :=
  (w.agency_clients.find? (·.1 = client_id)).map (·.2)

def get_artifact (w : World) (ref : String) : Option ArtifactHead :=
  w.artifacts.find? (·.ref = ref)

/-- The tenant that owns a project. -/
def _project_tenant (w : World) (project_id : String) : Option String :=
  (w.projects.find? (·.1 = project_id)).map (·.2)

end Actions
