import MissionControl.Interleaving.Pool
import MissionControl.Relational.Table

/-! # Approvals

An approval asks a person to authorize an action. Its row is written by four operations, each a
transaction of its own: it is requested, bound to a subject, decided, and staled. -/

namespace Approvals

open Interleaving (Interface Exec Program System)
open Relational (Table)

/-- A moment, as `_now()` writes it. -/
abbrev Instant : Type := Int

/-! ## Framing -/

inductive Framing where
  | NONE
  | REVIEW
  | HIGH
  deriving DecidableEq, Repr

/-- The patterns, and `str.lower`. -/
class Patterns where
  urgency : String → Bool
  pressure : String → Bool
  minimization : String → Bool
  assurance : String → Bool
  evidence : String → Bool
  lower : String → String

structure FramingAssessment where
  level : Framing
  codes : List String
  deriving DecidableEq

/-- The codes of what a summary is found to have. -/
def framingCodes [Patterns] (text : String) (targets : List String) : List String :=
  (if Patterns.urgency text then ["URGENCY"] else []) ++
  (if Patterns.pressure text then ["PRESSURE_TO_APPROVE"] else []) ++
  (if Patterns.minimization text then ["MINIMIZATION"] else []) ++
  (if Patterns.assurance text && !Patterns.evidence text then ["UNSUPPORTED_ASSURANCE"] else []) ++
  (if targets ≠ [] ∧ ∀ t ∈ targets, t ≠ "" →
      ¬ (Patterns.lower t).toList <:+: (Patterns.lower text).toList
    then ["OMITS_TARGET"] else [])

/-- Score a summary. -/
def assess [Patterns] (summary : String) (targets : List String) : FramingAssessment :=
  let codes := framingCodes summary targets
  if codes = [] then ⟨.NONE, []⟩
  else if "PRESSURE_TO_APPROVE" ∈ codes ∨ 2 ≤ codes.length then ⟨.HIGH, codes⟩
  else ⟨.REVIEW, codes⟩

/-! ## Rows -/

inductive Status where
  | pending
  | resolved
  | stale
  deriving DecidableEq, Repr

structure Approval where
  approval_id : String
  run_id : String
  tenant_id : String
  project_id : String
  reason : String
  status : Status := .pending
  subject_type : String := "RUN_RESULT"
  subject_ref : String
  subject_version_ref : String
  subject_hash : Option String := none
  authority_ref : String := "human-review"
  policy_version : String := "amc-approval/v1"
  created_at : Instant
  framing : FramingAssessment := ⟨.NONE, []⟩
  reviewer : Option String := none
  decision : Option String := none
  decided_at : Option Instant := none
  stale_reason : Option String := none
  staled_at : Option Instant := none
  deriving DecidableEq

/-- The table `approvals`. -/
abbrev Rows : Type := Table Approval String Approval.approval_id

/-- What an approval is requested with. -/
structure Wanted where
  run_id : String
  tenant_id : String
  project_id : String
  reason : String
  subject_type : String := "RUN_RESULT"
  subject_ref : Option String := none
  subject_version_ref : Option String := none
  subject_hash : Option String := none
  authority_ref : String := "human-review"
  policy_version : String := "amc-approval/v1"

/-- `text or default` -/
def orElse (text : Option String) (default : String) : String :=
  match text with
  | some text => if text = "" then default else text
  | none => default

/-- The row that is inserted. -/
def Wanted.row (wanted : Wanted) (approval_id : String) (framing : FramingAssessment) (now : Instant) :
    Approval where
  approval_id := approval_id
  run_id := wanted.run_id
  tenant_id := wanted.tenant_id
  project_id := wanted.project_id
  reason := wanted.reason
  subject_type := wanted.subject_type
  subject_ref := orElse wanted.subject_ref wanted.run_id
  subject_version_ref := orElse wanted.subject_version_ref wanted.run_id
  subject_hash := wanted.subject_hash
  authority_ref := wanted.authority_ref
  policy_version := wanted.policy_version
  created_at := now
  framing := framing

/-- The columns a binding sets: the hash, and what else is given. -/
structure Subject where
  subject_hash : String
  subject_ref : Option String := none
  subject_version_ref : Option String := none
  authority_ref : Option String := none
  policy_version : Option String := none
  deriving DecidableEq

/-! ## What the updates do to a row -/

/-- `SET subject_hash = ?, subject_ref = COALESCE(?, subject_ref), …` -/
def Approval.bind (row : Approval) (subject : Subject) : Approval :=
  { row with
    subject_hash := some subject.subject_hash
    subject_ref := subject.subject_ref.getD row.subject_ref
    subject_version_ref := subject.subject_version_ref.getD row.subject_version_ref
    authority_ref := subject.authority_ref.getD row.authority_ref
    policy_version := subject.policy_version.getD row.policy_version }

/-- `SET status = 'stale', … WHERE status <> 'stale'` -/
def Approval.markStale (row : Approval) (reason : String) (now : Instant) : Approval :=
  if row.status = .stale then row
  else { row with
    status := .stale
    stale_reason := some (String.ofList (reason.toList.take 500))
    staled_at := some now }

/-- `SET status = 'resolved', … WHERE status = 'pending'` -/
def Approval.resolve (row : Approval) (reviewer decision : String) (decided_at : Instant) : Approval :=
  if row.status = .pending then
    { row with
      status := .resolved
      reviewer := some reviewer
      decision := some decision
      decided_at := some decided_at }
  else row

@[simp] theorem Approval.bind_approval_id (row : Approval) (subject : Subject) :
    (row.bind subject).approval_id = row.approval_id := rfl

@[simp] theorem Approval.markStale_approval_id (row : Approval) (reason : String) (now : Instant) :
    (row.markStale reason now).approval_id = row.approval_id := by
  unfold Approval.markStale
  split <;> rfl

@[simp] theorem Approval.resolve_approval_id (row : Approval) (reviewer decision : String)
    (decided_at : Instant) : (row.resolve reviewer decision decided_at).approval_id = row.approval_id := by
  unfold Approval.resolve
  split <;> rfl

/-! ## Transactions -/

/-- The database, as far as approvals go, with the clock. -/
structure World where
  rows : Rows
  clock : Instant

inductive Call where
  | now
  | insert (wanted : Wanted) (framing : FramingAssessment) (now : Instant)
  | get_approval (approval_id : String)
  /-- The update of `bind_approval_subject`; whether there was such a row. -/
  | bind (approval_id : String) (subject : Subject)
  | mark_stale (approval_id reason : String) (now : Instant)
  | resolve (approval_id reviewer decision : String) (framing_acknowledged : Bool) (decided_at : Instant)

abbrev Call.Resp : Call → Type
  | now => Instant
  | insert .. => String
  | get_approval _ => Option Approval
  | bind .. => Bool
  | mark_stale .. => Unit
  | resolve .. => Option Approval

inductive Err where
  | ValueError (text : String)
  | RuntimeError (text : String)
  | FramingAcknowledgementRequired (text : String)
  | IntegrityError
  deriving DecidableEq, Repr

abbrev ApprovalCalls : Interface where
  Call := Call
  Resp := Call.Resp
  Err := Err

abbrev ApprovalProgram (α : Type) : Type := Program ApprovalCalls α

/-- Make one call. -/
abbrev perform (c : Call) : ApprovalProgram (Call.Resp c) := Program.perform (I := ApprovalCalls) c

/-- A reviewer has to acknowledge a summary with high persuasive framing before approving. -/
def unacknowledged (rows : Rows) (approval_id decision : String) (framing_acknowledged : Bool) : Bool :=
  decision == "approve" && !framing_acknowledged &&
    (rows.find? approval_id).any (·.framing.level = .HIGH)

/-- The rows after the update of a decision. -/
def resolved (rows : Rows) (approval_id reviewer decision : String) (decided_at : Instant) : Rows :=
  rows.update approval_id (·.resolve reviewer decision decided_at) (by simp)

/-- The meaning of the calls. The new identifier, a `uuid4`, comes from outside. -/
def exec : Exec ApprovalCalls World String
  | .now, _, w => .ok (w.clock, w)
  | .insert wanted framing now, approval_id, w =>
    if h : w.rows.find? approval_id = none then
      .ok (approval_id, { w with rows := w.rows.insert (wanted.row approval_id framing now) h })
    else .error .IntegrityError
  | .get_approval approval_id, _, w => .ok (w.rows.find? approval_id, w)
  | .bind approval_id subject, _, w =>
    .ok ((w.rows.find? approval_id).isSome,
      { w with rows := w.rows.update approval_id (·.bind subject) (by simp) })
  | .mark_stale approval_id reason now, _, w =>
    .ok ((), { w with rows := w.rows.update approval_id (·.markStale reason now) (by simp) })
  | .resolve approval_id reviewer decision framing_acknowledged decided_at, _, w =>
    if unacknowledged w.rows approval_id decision framing_acknowledged then
      .error (.FramingAcknowledgementRequired
        "this summary has high persuasive framing; the reviewer must acknowledge it before approving")
    else if (w.rows.find? approval_id).any (·.status = .pending) then
      let rows := resolved w.rows approval_id reviewer decision decided_at
      .ok (rows.find? approval_id, { w with rows := rows })
    else .ok (none, w)

/-! ## The operations -/

def create_approval_request [Patterns] (wanted : Wanted) (targets : List String) :
    ApprovalProgram Approval := do
  let framing := assess wanted.reason targets
  let now ← perform .now
  let approval_id ← perform (.insert wanted framing now)
  match ← perform (.get_approval approval_id) with
  | none => throw (.RuntimeError "Approval insert succeeded but record could not be read back")
  | some approval => return approval

def bind_approval_subject (approval_id : String) (subject : Subject) :
    ApprovalProgram (Option Approval) := do
  if ← perform (.bind approval_id subject) then perform (.get_approval approval_id)
  else return none

def mark_approval_stale (approval_id reason : String) : ApprovalProgram (Option Approval) := do
  let now ← perform .now
  perform (.mark_stale approval_id reason now)
  perform (.get_approval approval_id)

def resolve_approval (approval_id reviewer decision : String) (framing_acknowledged : Bool) :
    ApprovalProgram (Option Approval) := do
  if decision ≠ "approve" ∧ decision ≠ "reject" then
    throw (.ValueError "decision must be 'approve' or 'reject'")
  else
    let decided_at ← perform .now
    perform (.resolve approval_id reviewer decision framing_acknowledged decided_at)

/-! ## The system -/

/-- What a worker may be asked to do. -/
inductive Request where
  | create (wanted : Wanted) (targets : List String)
  | bind (approval_id : String) (subject : Subject)
  | mark_stale (approval_id reason : String)
  | resolve (approval_id reviewer decision : String) (framing_acknowledged : Bool)

def Request.program [Patterns] : Request → ApprovalProgram Unit
  | .create wanted targets => (create_approval_request wanted targets).void
  | .bind approval_id subject => (bind_approval_subject approval_id subject).void
  | .mark_stale approval_id reason => (mark_approval_stale approval_id reason).void
  | .resolve approval_id reviewer decision framing_acknowledged =>
    (resolve_approval approval_id reviewer decision framing_acknowledged).void

/-- **The approvals**: any number of workers, each on any request. Between calls the clock
    goes on. -/
def approvals [Patterns] : System ApprovalCalls World String where
  exec := exec
  Starts p := ∃ request : Request, p = request.program
  Env w w' := w'.rows = w.rows ∧ w.clock ≤ w'.clock

end Approvals
