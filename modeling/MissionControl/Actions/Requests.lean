import MissionControl.Actions.Records
import MissionControl.Relational.Table

/-! # Persistence of action requests

The world the action plane runs in, and the transactions on `action_requests` and
`action_transitions`. A transaction either returns a result with the new world or
raises, and then nothing it wrote remains. -/

namespace Actions

open Canonical (Value Sha256 Backend canonical_hash)
open Relational (Table)

/-- The database, the provider's store and the clock. -/
structure World where
  now : Moment
  backend : Backend
  nextId : Nat
  action_requests : Table ActionRow String (·.action_id)
  action_transitions : List TransitionEntry
  action_budget_policies : List BudgetPolicy
  action_budget_reservations : Table Reservation Nat (·.reservation_id)
  action_sandbox_effects : Table Effect (String × String × String)
    fun e => (e.tenant_id, e.provider, e.idempotency_key)
  approvals : List Approval
  action_freezes : List Freeze
  /-- `AMC_ACTIONS_FREEZE` is set. -/
  systemFrozen : Bool
  /-- `AMC_ALLOW_SELF_APPROVAL` is set, outside production. -/
  selfApprovalAllowed : Bool
  action_project_settings : List (String × AutonomyLevel)
  projects : List (String × String)
  agency_client_projects : List (String × String)
  agency_clients : List (String × String)
  artifacts : List ArtifactHead

/-- The world of a new deployment with these ceilings. -/
def World.fresh (backend : Backend) (policies : List BudgetPolicy) : World where
  now := 0
  backend := backend
  nextId := 0
  action_requests := Table.empty
  action_transitions := []
  action_budget_policies := policies
  action_budget_reservations := Table.empty
  action_sandbox_effects := Table.empty
  approvals := []
  action_freezes := []
  systemFrozen := false
  selfApprovalAllowed := false
  action_project_settings := []
  projects := []
  agency_client_projects := []
  agency_clients := []
  artifacts := []

/-- The result of a transaction. -/
abbrev Tx (α : Type) : Type := Except ActionError (α × World)

/-- The world after a transaction: what it wrote, or nothing when it raised. -/
def committed {α : Type} (w : World) : Tx α → World
  | .ok (_, w') => w'
  | .error _ => w

variable [Sha256]

/-! ## The transition log -/

/-- What an entry's hash covers. -/
def TransitionEntry.body (e : TransitionEntry) : Value :=
  .dict
    [("action_id", .str e.action_id), ("tenant_id", .str e.tenant_id),
     ("from_state", match e.from_state with | some s => .str s.value | none => .none),
     ("to_state", .str e.to_state.value), ("actor", .str e.actor), ("reason", .str e.reason),
     ("evidence", e.evidence),
     ("prev_hash", match e.prev_hash with | some h => .str h | none => .none),
     ("created_at", iso e.created_at)]

/-- The entries of one action, oldest first. -/
def World.log (w : World) (action_id : String) : List TransitionEntry :=
  w.action_transitions.filter (·.action_id = action_id)

/-- The entry `_append_transition` writes, with its evidence as it is in memory. -/
def World.nextEntry (w : World) (action_id tenant_id : String) (from_state : Option ActionState)
    (to_state : ActionState) (actor reason : String) (evidence : Value) (created_at : Moment) :
    TransitionEntry :=
  let entry : TransitionEntry :=
    { action_id, tenant_id, from_state, to_state, actor, reason, evidence, created_at
      prev_hash := (w.log action_id).getLast?.map (·.entry_hash)
      entry_hash := "" }
  { entry with entry_hash := canonical_hash entry.body }

def _append_transition (w : World) (action_id tenant_id : String)
    (from_state : Option ActionState) (to_state : ActionState) (actor reason : String)
    (evidence : Value) (created_at : Moment) : Except ActionError World :=
  match w.backend.stored evidence with
  | none => .error (.IntegrityError "evidence")
  | some stored =>
    let entry := w.nextEntry action_id tenant_id from_state to_state actor reason evidence created_at
    .ok { w with action_transitions := w.action_transitions ++ [{ entry with evidence := stored }] }

variable {w' w : World} {reason actor : String}

variable {created_at : Moment} {from_state : Option ActionState} {to_state : ActionState}
  {tenant_id action_id : String}

theorem _append_transition_ok {v : Value}
    (h : _append_transition w action_id tenant_id from_state to_state actor reason v created_at = .ok w') :
    ∃ stored, w.backend.stored v = some stored ∧ w' = { w with
        action_transitions := w.action_transitions ++
          [{ w.nextEntry action_id tenant_id from_state to_state actor reason v created_at with
              evidence := stored }] } := by
  unfold _append_transition at h
  split at h
  · cases h
  · rename_i stored hs
    exact ⟨stored, hs, by simpa using h.symm⟩

theorem _append_transition_error {v : Value} {e : ActionError}
    (h : _append_transition w action_id tenant_id from_state to_state actor reason v created_at =
      .error e) : w.backend.stored v = none := by
  unfold _append_transition at h
  split at h
  · assumption
  · cases h

def list_transitions (w : World) (action_id : String) : List TransitionEntry := w.log action_id

/-- What `verify_transition_chain` reports. -/
inductive ChainReport where
  | intact (entries : Nat) (head : Option String)
  | broken (entries : Nat) (break_at : Nat) (reason : String)
  deriving DecidableEq

/-- The loop of `verify_transition_chain`, at the entry number `i`. -/
def verifyFrom (entries : Nat) : Nat → Option String → List TransitionEntry → ChainReport
  | _, prev, [] => .intact entries prev
  | i, prev, e :: rest =>
    if e.prev_hash ≠ prev then .broken entries i "prev_hash does not link"
    else if canonical_hash e.body ≠ e.entry_hash then .broken entries i "entry content changed"
    else verifyFrom entries (i + 1) (some e.entry_hash) rest

def verify_transition_chain (w : World) (action_id : String) : ChainReport :=
  let entries := list_transitions w action_id
  verifyFrom entries.length 0 none entries

/-! ## Requests -/

def find_by_key (w : World) (tenant_id idempotency_key : String) : Option ActionRow :=
  w.action_requests.rows.find? fun r => r.tenant_id = tenant_id ∧ r.idempotency_key = idempotency_key

def get_request (w : World) (action_id : String) : Option ActionRow :=
  w.action_requests.find? action_id

/-- Insert a PROPOSED action. Returns the row and whether it was created. -/
def insert_request (w : World) (row : ActionRow) (actor reason : String)
    (evidence : Option Value) : Tx (ActionRow × Bool) :=
  match find_by_key w row.tenant_id row.idempotency_key with
  | some existing =>
    if existing.request_hash ≠ row.request_hash then
      .error (.ActionConflict "IDEMPOTENCY_KEY_REUSED: the key was used for a different request")
    else .ok ((existing, false), w)
  | none =>
    if h : w.action_requests.find? row.action_id = none then
      match _append_transition w row.action_id row.tenant_id none row.state actor reason
          (evidence.getD (.dict [])) row.created_at with
      | .error e => .error e
      | .ok w' => .ok ((row, true), { w' with action_requests := w.action_requests.insert row h })
    else .error (.IntegrityError "action_requests.action_id")

variable {r : ActionRow}

theorem insert_request_ok {row : ActionRow} {evidence : Option Value} {created : Bool}
    (h : insert_request w row actor reason evidence = .ok ((r, created), w')) :
    (created = false ∧ w' = w ∧ find_by_key w row.tenant_id row.idempotency_key = some r) ∨
    (created = true ∧ r = row ∧ find_by_key w row.tenant_id row.idempotency_key = none ∧
      ∃ (hnew : w.action_requests.find? row.action_id = none) (stored : Value),
        w.backend.stored (evidence.getD (.dict [])) = some stored ∧ w' = { w with
          action_requests := w.action_requests.insert row hnew
          action_transitions := w.action_transitions ++
            [{ w.nextEntry row.action_id row.tenant_id none row.state actor reason
                (evidence.getD (.dict [])) row.created_at with evidence := stored }] }) := by
  unfold insert_request at h
  split at h
  · rename_i existing hkey
    split at h
    · cases h
    · obtain ⟨⟨rfl, rfl⟩, rfl⟩ : (existing = r ∧ false = created) ∧ w = w' := by simpa using h
      exact .inl ⟨rfl, rfl, hkey⟩
  · rename_i hkey
    split at h
    · rename_i hnew
      split at h
      · cases h
      · rename_i w₁ happ
        obtain ⟨stored, hs, rfl⟩ := _append_transition_ok happ
        obtain ⟨⟨rfl, rfl⟩, rfl⟩ : (row = r ∧ true = created) ∧ _ := by simpa using h
        exact .inr ⟨rfl, rfl, hkey, hnew, stored, hs, rfl⟩
    · cases h

/-- A row after a transition. -/
def ActionRow.moved (r : ActionRow) (to_state : ActionState) (updates : Updates) (stamp : Moment) :
    ActionRow :=
  { toActionIdentity := r.toActionIdentity
    toMutableColumns := updates.apply r.toMutableColumns
    state := to_state
    version := r.version + 1
    updated_at := stamp }

omit [Sha256] in
theorem ActionRow.moved_id (to_state : ActionState) (updates : Updates) (stamp : Moment)
    (r : ActionRow) : (r.moved to_state updates stamp).action_id = r.action_id := rfl

/-- The arguments of `transition`. -/
structure TransitionArgs where
  action_id : String
  expected_version : Nat
  expected_states : List ActionState
  to_state : ActionState
  actor : String
  reason : String
  evidence : Option Value := none
  updates : Updates := {}
  now : Option Moment := none

/-- Compare-and-set state change plus one chained transition entry. -/
def transition (w : World) (a : TransitionArgs) : Tx ActionRow :=
  let stamp := a.now.getD w.now
  match w.action_requests.find? a.action_id with
  | none => .error (.ActionNotFound a.action_id)
  | some current =>
    if current.version = a.expected_version ∧ current.state ∈ a.expected_states then
      match _append_transition w a.action_id current.tenant_id (some current.state) a.to_state
          a.actor a.reason (a.evidence.getD (.dict [])) stamp with
      | .error e => .error e
      | .ok w' =>
        .ok (current.moved a.to_state a.updates stamp,
          { w' with
            action_requests := w.action_requests.update a.action_id
              (·.moved a.to_state a.updates stamp) (ActionRow.moved_id a.to_state a.updates stamp) })
    else
      .error (.ActionConflict
        s!"STALE_ACTION_VERSION: expected v{a.expected_version}, found v{current.version}")

theorem transition_ok {a : TransitionArgs} (h : transition w a = .ok (r, w')) :
    ∃ current stored, w.action_requests.find? a.action_id = some current ∧
      current.version = a.expected_version ∧ current.state ∈ a.expected_states ∧
      r = current.moved a.to_state a.updates (a.now.getD w.now) ∧ w' = { w with
        action_requests := w.action_requests.update a.action_id
          (·.moved a.to_state a.updates (a.now.getD w.now))
          (ActionRow.moved_id a.to_state a.updates (a.now.getD w.now))
        action_transitions := w.action_transitions ++
          [{ w.nextEntry a.action_id current.tenant_id (some current.state) a.to_state a.actor
              a.reason (a.evidence.getD (.dict [])) (a.now.getD w.now) with
              evidence := stored }] } := by
  unfold transition at h
  dsimp only at h
  split at h
  · cases h
  · rename_i current hcur
    split at h
    · rename_i hexp
      split at h
      · cases h
      · rename_i w₁ happ
        obtain ⟨stored, -, rfl⟩ := _append_transition_ok happ
        obtain ⟨rfl, rfl⟩ : _ = r ∧ _ = w' := by simpa using h
        exact ⟨current, stored, hcur, hexp.1, hexp.2, rfl, rfl⟩
    · cases h

/-- A row after an annotation. -/
def ActionRow.annotated (r : ActionRow) (outcome : Outcome) (stamp : Moment) : ActionRow :=
  { r with outcome := some outcome, version := r.version + 1, updated_at := stamp }

omit [Sha256] in
theorem ActionRow.annotated_id (outcome : Outcome) (stamp : Moment) (r : ActionRow) :
    (r.annotated outcome stamp).action_id = r.action_id := rfl

/-- The arguments of `annotate`. -/
structure AnnotateArgs where
  action_id : String
  expected_version : Nat
  actor : String
  reason : String
  evidence : Value
  outcome : Outcome

/-- Record evidence on an action without changing its state. -/
def annotate (w : World) (a : AnnotateArgs) : Tx ActionRow :=
  match w.action_requests.find? a.action_id with
  | none => .error (.ActionNotFound a.action_id)
  | some current =>
    if current.version = a.expected_version then
      match _append_transition w a.action_id current.tenant_id (some current.state) current.state
          a.actor a.reason a.evidence w.now with
      | .error e => .error e
      | .ok w' =>
        .ok (current.annotated a.outcome w.now,
          { w' with
            action_requests := w.action_requests.update a.action_id
              (·.annotated a.outcome w.now) (ActionRow.annotated_id a.outcome w.now) })
    else
      .error (.ActionConflict
        s!"STALE_ACTION_VERSION: expected v{a.expected_version}, found v{current.version}")

theorem annotate_ok {a : AnnotateArgs} (h : annotate w a = .ok (r, w')) :
    ∃ current stored, w.action_requests.find? a.action_id = some current ∧
      current.version = a.expected_version ∧ r = current.annotated a.outcome w.now ∧ w' = { w with
        action_requests := w.action_requests.update a.action_id (·.annotated a.outcome w.now)
          (ActionRow.annotated_id a.outcome w.now)
        action_transitions := w.action_transitions ++
          [{ w.nextEntry a.action_id current.tenant_id (some current.state) current.state a.actor
              a.reason a.evidence w.now with evidence := stored }] } := by
  unfold annotate at h
  split at h
  · cases h
  · rename_i current hcur
    split at h
    · rename_i hexp
      split at h
      · cases h
      · rename_i w₁ happ
        obtain ⟨stored, -, rfl⟩ := _append_transition_ok happ
        obtain ⟨rfl, rfl⟩ : _ = r ∧ _ = w' := by simpa using h
        exact ⟨current, stored, hcur, hexp, rfl, rfl⟩
    · cases h

/-- The rows in one of `states` whose lease has run out. -/
def leased_past (w : World) (now : Moment) (states : List ActionState)
    (tenant_id : Option String) : List ActionRow :=
  (w.action_requests.rows.filter fun r =>
    r.state ∈ states ∧ (∀ t ∈ tenant_id, r.tenant_id = t) ∧
      ∃ m ∈ r.lease_expires_at, m < now).insertionSort
    fun a b => a.lease_expires_at.getD 0 ≤ b.lease_expires_at.getD 0

/-- The tenant's rows in one of `states` that expired before `moment`. -/
def expiring_before (w : World) (tenant_id : String) (moment : Moment)
    (states : List ActionState) : List ActionRow :=
  (w.action_requests.rows.filter fun r =>
    r.tenant_id = tenant_id ∧ r.state ∈ states ∧ r.expires_at < moment).insertionSort
    fun a b => a.expires_at ≤ b.expires_at

/-- The tenant's latest rows in one of `states`. -/
def list_requests (w : World) (tenant_id : String) (states : List ActionState) (limit : Nat) :
    List ActionRow :=
  ((w.action_requests.rows.filter fun r => r.tenant_id = tenant_id ∧ r.state ∈ states).insertionSort
    fun a b => b.created_at ≤ a.created_at).take limit

end Actions
