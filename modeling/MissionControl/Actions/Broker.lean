import MissionControl.Actions.Adapters
import MissionControl.Interleaving.Discipline
import MissionControl.Python.Text

/-! # The calls of the gateway

Each call is one step of the world that nothing interrupts: a database
transaction, a read of the clock or of the process environment, or a request to
the sandbox provider. The gateway's operations are programs over these calls
(`Actions.Gateway`), and any number of workers run them at once. -/

namespace Actions

open Canonical (Value Sha256)
open Interleaving (Interface Exec Program)

/-- The simulated faults of the sandbox adapters. -/
inductive Fault where
  | transient_before_effect | permanent | timeout_before_effect | timeout_after_effect
  | observe_unreachable | observe_mismatch
  deriving DecidableEq

inductive Call where
  | clock
  | fault
  | system_frozen
  | self_approval_allowed
  | _project_tenant (project_id : String)
  | get_request (action_id : String)
  | find_by_key (tenant_id idempotency_key : String)
  | leased_past (now : Moment) (states : List ActionState) (tenant_id : Option String)
  | expiring_before (tenant_id : String) (moment : Moment) (states : List ActionState)
  | list_requests (tenant_id : String) (states : List ActionState) (limit : Nat)
  | get_reservation (reservation_id : Nat)
  | sandbox_get (tenant_id provider idempotency_key : String)
  | active_freezes (tenant_id : String)
  | get_autonomy (project_id : String)
  | client_for_project (project_id : String)
  | get_client (client_id : String)
  | get_artifact (ref : String)
  | get_approvals_for_run (run_id : String)
  | create_approval_request (a : ApprovalArgs)
  | mark_approval_stale (approval_id : Nat)
  | insert_request (row : ActionRow) (actor reason : String) (evidence : Option Value)
  | transition (a : TransitionArgs)
  | annotate (a : AnnotateArgs)
  | reserve_budget (a : ReserveArgs)
  | settle_reservation (a : SettleArgs)
  | sandbox_put (a : PutArgs)
  | sandbox_set_state (effect_id : Nat) (state expected_state : String)

abbrev Call.Resp : Call → Type
  | clock => Moment
  | fault => Option Fault
  | system_frozen | self_approval_allowed => Bool
  | _project_tenant _ | client_for_project _ | get_client _ => Option String
  | get_request _ | find_by_key .. => Option ActionRow
  | leased_past .. | expiring_before .. | list_requests .. => List ActionRow
  | get_reservation _ => Option Reservation
  | sandbox_get .. => Option Effect
  | active_freezes _ => List Freeze
  | get_autonomy _ => Option AutonomyLevel
  | get_artifact _ => Option ArtifactHead
  | get_approvals_for_run _ => List Approval
  | create_approval_request _ => Approval
  | mark_approval_stale _ => Unit
  | insert_request .. => ActionRow × Bool
  | transition _ | annotate _ => ActionRow
  | reserve_budget _ | settle_reservation _ => Reservation
  | sandbox_put _ => Effect × Bool
  | sandbox_set_state .. => Effect

/-- The calls of the action plane. -/
abbrev Plane : Interface where
  Call := Call
  Resp := Call.Resp
  Err := ActionError

/-- A program of the gateway. -/
abbrev Gateway (α : Type) : Type := Program Plane α

variable [Sha256]

/-- What a call does. The outside decides which fault an adapter has. -/
def exec : Exec Plane World (Option Fault) := fun c o w =>
  match c with
  | .clock => .ok (w.now, w)
  | .fault => .ok (o, w)
  | .system_frozen => .ok (w.systemFrozen, w)
  | .self_approval_allowed => .ok (w.selfApprovalAllowed, w)
  | ._project_tenant project_id => .ok (_project_tenant w project_id, w)
  | .get_request action_id => .ok (get_request w action_id, w)
  | .find_by_key tenant_id key => .ok (find_by_key w tenant_id key, w)
  | .leased_past now states tenant_id => .ok (leased_past w now states tenant_id, w)
  | .expiring_before tenant_id moment states => .ok (expiring_before w tenant_id moment states, w)
  | .list_requests tenant_id states limit => .ok (list_requests w tenant_id states limit, w)
  | .get_reservation id => .ok (get_reservation w id, w)
  | .sandbox_get tenant_id provider key => .ok (sandbox_get w tenant_id provider key, w)
  | .active_freezes tenant_id => .ok (active_freezes w tenant_id, w)
  | .get_autonomy project_id => .ok (get_autonomy w project_id, w)
  | .client_for_project project_id => .ok (client_for_project w project_id, w)
  | .get_client client_id => .ok (get_client w client_id, w)
  | .get_artifact ref => .ok (get_artifact w ref, w)
  | .get_approvals_for_run run_id => .ok (get_approvals_for_run w run_id, w)
  | .create_approval_request a => create_approval_request w a
  | .mark_approval_stale id => .ok ((), mark_approval_stale w id)
  | .insert_request row actor reason evidence => insert_request w row actor reason evidence
  | .transition a => transition w a
  | .annotate a => annotate w a
  | .reserve_budget a => reserve_budget w a
  | .settle_reservation a => settle_reservation w a
  | .sandbox_put a => sandbox_put w a
  | .sandbox_set_state id state expected => sandbox_set_state w id state expected

namespace Call

/-- The calls that leave the world as it is. -/
def Reads : Call → Prop
  | create_approval_request _ | mark_approval_stale _ | insert_request .. | transition _
  | annotate _ | reserve_budget _ | settle_reservation _ | sandbox_put _
  | sandbox_set_state .. => False
  | _ => True

/-- The calls that leave everything but approvals as it is. -/
def Minor : Call → Prop
  | insert_request .. | transition _ | annotate _ | reserve_budget _ | settle_reservation _
  | sandbox_put _ | sandbox_set_state .. => False
  | _ => True

omit [Sha256] in
theorem Reads.minor {c : Call} (h : c.Reads) : c.Minor := by
  cases c <;> first | exact h | trivial

theorem after_of_reads {c : Call} (h : c.Reads) (o : Option Fault) (w : World) : exec.after c o w = w := by
  cases c <;> first | exact h.elim | rfl

end Call

/-- How the world may change between the calls of the gateway: the clock moves
    on, and people decide approvals, freeze, unfreeze, and edit settings,
    projects, clients and artifacts. Actions, budgets and effects change only
    through the gateway's calls. -/
structure Outside (w w' : World) : Prop where
  now : w.now ≤ w'.now
  backend : w'.backend = w.backend
  nextId : w.nextId ≤ w'.nextId
  requests : w'.action_requests = w.action_requests
  transitions : w'.action_transitions = w.action_transitions
  policies : w'.action_budget_policies = w.action_budget_policies
  reservations : w'.action_budget_reservations = w.action_budget_reservations
  effects : w'.action_sandbox_effects = w.action_sandbox_effects

end Actions

/-! # Authority, dependencies, freezes and uncertainty

The checks the gateway makes before it acts. Everything here reads; the only
writes are approvals being opened and marked stale. -/

namespace Actions

open Canonical (Value Sha256)
open Interleaving (Program)

variable [Sha256] [Deployment]

namespace Gateway

abbrev perform (c : Call) : Gateway (Call.Resp c) := Program.perform (I := Plane) c

/-- Return a computed result, or raise its error. -/
def fromExcept {α : Type} : Except ActionError α → Gateway α
  | .ok a => .ret a
  | .error e => .raise e

end Gateway

open Gateway (perform fromExcept)

/-! ## Identity and scope -/

def READ_ONLY_ROLES : List String := ["viewer", "read_only", "readonly", "guest", "auditor"]

/-- `role.strip().lower()`. -/
def role (principal : Principal) : String := Deployment.lower (Python.strip principal.role)

def authorize_scope (principal : Principal) (project_id : String) (write : Bool) :
    Gateway Unit := do
  match ← perform (._project_tenant project_id) with
  | none => throw (.LookupError s!"project {project_id} not found")
  | some tenant_id =>
    if tenant_id ≠ principal.tenant_id then
      throw (.ActionForbidden "resource belongs to a different tenant")
    else if !principal.can_access_project project_id then
      throw (.ActionForbidden "principal may not access this project")
    else if write && role principal ∈ READ_ONLY_ROLES then
      throw (.ActionForbidden s!"role {principal.role} is read-only")
    else pure ()

/-- The row, if this principal may see it; otherwise the same "not found" as for
    an absent id. -/
def visible (principal : Principal) : Option ActionRow → Except ActionError ActionRow
  | none => .error (.LookupError "action not found")
  | some row =>
    if row.tenant_id ≠ principal.tenant_id ∨ principal.can_access_project row.project_id = false then
      .error (.LookupError "action not found")
    else .ok row

/-! ## Dependencies -/

/-- The head of one dependency, as it is pinned. -/
def resolve_dependency (project_id ref : String) : Gateway (String × String) := do
  match ← perform (.get_artifact ref) with
  | none => throw (.DependencyInvalid s!"DEPENDENCY_NOT_FOUND: {ref}")
  | some head =>
    if head.project_id ≠ project_id then
      throw (.DependencyInvalid s!"DEPENDENCY_NOT_FOUND: {ref}")
    else
      match head.content_hash with
      | none | some "" => throw (.DependencyInvalid s!"DEPENDENCY_UNHASHED: {ref}")
      | some hash => pure (ref, s!"v{head.version}:{hash}")

/-- The loop of `resolve_dependencies`. -/
def resolveEach (project_id : String) : List String → Gateway (List (String × String))
  | [] => pure []
  | ref :: rest => do
    let pinned ← resolve_dependency project_id ref
    let others ← resolveEach project_id rest
    pure (pinned :: others)

def resolve_dependencies (project_id : String) (refs : List String) :
    Gateway (List (String × String)) :=
  resolveEach project_id (sortedSet refs)

def current_dependencies (project_id : String) (pinned : List (String × String)) :
    Gateway (List (String × String)) := do
  match ← (resolve_dependencies project_id (pinned.map (·.1))).attempt with
  | .ok deps => pure deps
  | .error (.DependencyInvalid _) => pure (pinned.map fun x => (x.1, "MISSING"))
  | .error e => throw e

/-! ## Approvals -/

def required_subjects (risk : RiskAssessment) (needs_execution_approval : Bool) : List Subject :=
  (if needs_execution_approval || risk.requires_approval then [.ACTION_EXECUTION] else []) ++
  (if risk.requires_financial_approval then [.ACTION_SPEND] else []) ++
  (if risk.requires_privileged_review then [.ACTION_GOVERNANCE] else [])

def approval_run_id (action_id : String) : String :=
  "action-" ++ Adapter.hashPrefix 24 (.dict [("action", .str action_id)])

def _past (now expires_at : Moment) : Bool := expires_at < now

def _after (decided_at : Option Moment) (expires_at : Moment) : Bool :=
  decided_at.any (_past · expires_at)

/-- What `check_approvals` records about one approval. -/
structure ApprovalSummary where
  subject : Subject
  approval_id : Nat
  status : ApprovalStatus
  decision : Option Decision
  reviewer : Option String
  decided_at : Option Moment
  subject_hash : Option String

structure ApprovalCheck where
  satisfied : Bool
  rejected : Bool := false
  expired : Bool := false
  stale : Bool := false
  pending : List String := []
  reasons : List String := []
  approvals : List ApprovalSummary := []

/-- The first approval for each subject type that has not been seen. -/
def latestPerSubject : List String → List Approval → List Approval
  | _, [] => []
  | seen, a :: rest =>
    if a.subject_type ∈ seen then latestPerSubject seen rest
    else a :: latestPerSubject (a.subject_type :: seen) rest

/-- What is found about one subject. -/
structure Finding where
  reasons : List String := []
  pending : List String := []
  rejected : Bool := false
  expired : Bool := false
  stale : Bool := false
  summary : List ApprovalSummary := []

/-- The reasons and flags of an approval that has been found. -/
def examineFound (row : ActionRow) (selfAllowed : Bool) (subject : Subject) (a : Approval) :
    Finding :=
  let on (b : Bool) (text : String) : List String :=
    if b then [s!"{subject.value}:{text}"] else []
  let scope := on ((a.tenant_id, a.project_id) ≠ (row.tenant_id, row.project_id))
    "APPROVAL_SCOPE_MISMATCH"
  let mismatch : Bool := a.subject_hash ≠ some row.binding_hash
  let hashed := on mismatch "SUBJECT_HASH_MISMATCH"
  let summary := [⟨subject, a.approval_id, a.status, a.decision, a.reviewer, a.decided_at,
    a.subject_hash⟩]
  match a.status with
  | .stale =>
    { reasons := scope ++ hashed ++ [s!"{subject.value}:APPROVAL_STALE"], stale := true, summary }
  | .pending =>
    { reasons := scope ++ hashed, pending := [subject.value], stale := mismatch, summary }
  | .resolved =>
    if a.decision ≠ some .approve then
      { reasons := scope ++ hashed ++ [s!"{subject.value}:APPROVAL_REJECTED"]
        rejected := true, stale := mismatch, summary }
    else
      let late := _after a.decided_at row.expires_at
      let own := a.reviewer = some row.actor_ref && (subject = .ACTION_GOVERNANCE || !selfAllowed)
      { reasons := scope ++ hashed ++ on late "APPROVED_AFTER_EXPIRY" ++ on own "SELF_APPROVAL"
        expired := late, stale := mismatch, summary }

def examine (row : ActionRow) (selfAllowed : Bool) (subject : Subject) :
    Option Approval → Finding
  | none => { reasons := [s!"{subject.value}:APPROVAL_MISSING"] }
  | some a => examineFound row selfAllowed subject a

/-- The reviewers of the approvals that were given. -/
def deciders (summaries : List ApprovalSummary) : List (Option String) :=
  (summaries.filter fun s => s.status = .resolved ∧ s.decision = some .approve).map (·.reviewer)

/-- Evaluate the approvals found for an action against its binding. -/
def evaluate (row : ActionRow) (found : List Approval) (selfAllowed : Bool) (now : Moment) :
    ApprovalCheck :=
  let subjects := row.binding.approval_subjects
  if subjects = [] then { satisfied := false, reasons := ["NO_APPROVAL_REQUIRED_BY_BINDING"] }
  else
    let findings := subjects.map fun s =>
      examine row selfAllowed s (found.find? (·.subject_type = s.value))
    let summaries := findings.flatMap (·.summary)
    let past := _past now row.expires_at
    let reasons := findings.flatMap (·.reasons) ++
      (if (deciders summaries).Nodup then [] else ["SAME_REVIEWER_FOR_MULTIPLE_APPROVALS"]) ++
      (if past then ["ACTION_EXPIRED"] else [])
    let pending := findings.flatMap (·.pending)
    { satisfied := decide (reasons = [] ∧ pending = [])
      rejected := findings.any (·.rejected)
      expired := findings.any (·.expired) || past
      stale := findings.any (·.stale)
      pending := pending
      reasons := reasons
      approvals := summaries }

/-- The latest approval per subject for this action, read from its anchor run. -/
def _action_approvals (row : ActionRow) : Gateway (List Approval) := do
  match row.run_id with
  | none | some "" => pure []
  | some run_id =>
    let found ← perform (.get_approvals_for_run run_id)
    pure (latestPerSubject [] (found.filter (·.subject_ref = row.action_id)))

/-- Evaluate every approval the action needs against its current binding. -/
def check_approvals (row : ActionRow) (now : Moment) : Gateway ApprovalCheck := do
  let found ← _action_approvals row
  let selfAllowed ← perform .self_approval_allowed
  pure (evaluate row found selfAllowed now)

/-- The loop of `stale_open_approvals`. -/
def staleEach : List Approval → Gateway Unit
  | [] => pure ()
  | a :: rest => do
    if a.status = .pending then perform (.mark_approval_stale a.approval_id)
    staleEach rest

/-- Mark every still pending approval of this action stale. -/
def stale_open_approvals (row : ActionRow) : Gateway Unit := do
  let found ← _action_approvals row
  staleEach found

/-- Open one approval for each subject. Returns their ids. -/
def open_approvals (run_id action_id tenant_id project_id binding_hash : String) :
    List Subject → Gateway (List (Subject × Nat))
  | [] => pure []
  | subject :: rest => do
    let approval ← perform (.create_approval_request
      { run_id, tenant_id, project_id, subject_type := subject.value, subject_ref := action_id
        subject_hash := some binding_hash })
    let others ← open_approvals run_id action_id tenant_id project_id binding_hash rest
    pure ((subject, approval.approval_id) :: others)

/-! ## Freezes, autonomy and uncertainty -/

def FreezeScope.value : FreezeScope → String
  | .TENANT => "TENANT"
  | .PROJECT => "PROJECT"

/-- The freezes over a project. -/
def freezesOver (freezes : List Freeze) (project_id : String) : List Freeze :=
  freezes.filter fun f => f.scope_kind = .TENANT ∨ f.scope_kind = .PROJECT ∧ f.scope_ref = project_id

def freeze_reasons (tenant_id project_id : String) : Gateway (List String) := do
  let frozen ← perform .system_frozen
  let freezes ← perform (.active_freezes tenant_id)
  pure ((if frozen then ["SYSTEM_FROZEN: AMC_ACTIONS_FREEZE is set"] else []) ++
    (freezesOver freezes project_id).map fun f => s!"{f.scope_kind.value}_FROZEN:{f.freeze_id}")

def autonomy (project_id : String) : Gateway AutonomyLevel := do
  let level ← perform (.get_autonomy project_id)
  pure (level.getD DEFAULT_AUTONOMY)

/-- The states whose provider outcome is not yet known. -/
def UNRESOLVED_STATES : List ActionState := [.UNKNOWN, .RECONCILING, .NEEDS_HUMAN]

def UNCERTAINTY_SNAPSHOT_LIMIT : Nat := 1000

/-- `assess_uncertainty` under the zero-tolerance policy: what blocks a high-risk
    dispatch. -/
def uncertaintyBlockers (rows : List ActionRow) (now : Moment) : List String :=
  let seen := rows.take UNCERTAINTY_SNAPSHOT_LIMIT
  let on (b : Bool) (text : String) : List String := if b then [text] else []
  on (UNCERTAINTY_SNAPSHOT_LIMIT < rows.length) "UNCERTAINTY_SNAPSHOT_INCOMPLETE" ++
  on (seen.any fun r => now < r.updated_at) "EFFECT_TIMESTAMP_IN_FUTURE" ++
  on (0 < seen.length) "UNCERTAINTY_COUNT_EXCEEDED" ++
  on (seen.any fun r => RiskClass.R3.rank ≤ r.effective_class.rank) "CRITICAL_UNCERTAINTY_EXCEEDED" ++
  on (seen.any fun r => SECOND ≤ now - r.updated_at) "UNCERTAINTY_AGE_EXCEEDED"

def uncertainty (tenant_id : String) (now : Moment) : Gateway (List String) := do
  let rows ← perform (.list_requests tenant_id UNRESOLVED_STATES (UNCERTAINTY_SNAPSHOT_LIMIT + 1))
  pure (uncertaintyBlockers rows now)

end Actions
