import MissionControl.Canonical.Value
import MissionControl.Python.Text

/-! # Scoped memory

Records of what is known about a subject, with an explicit order of authority. The rules
say where a record may be placed, how a new record relates to the active ones for its
subject, and when a record may be promoted. -/

namespace Memory

open Canonical

inductive MemoryAuthority where
  | BRAND_CANON
  | APPROVED_PROJECT_DECISION
  | VERIFIED_EVIDENCE
  | WORKING_CONTEXT
  | LEARNING_SIGNAL
  deriving DecidableEq, Repr

inductive MemoryScope where
  | M0_AGENCY
  | M1_BRAND_CANON
  | M2_PROJECT
  | M3_CONVERSATION
  | M4_EVIDENCE
  | M5_PERFORMANCE
  | M6_LEARNING
  deriving DecidableEq, Repr

inductive MemoryStatus where
  | ACTIVE
  | SUPERSEDED
  | INVALIDATED
  | QUARANTINED
  deriving DecidableEq, Repr

def MemoryAuthority.value : MemoryAuthority → String
  | .BRAND_CANON => "BRAND_CANON"
  | .APPROVED_PROJECT_DECISION => "APPROVED_PROJECT_DECISION"
  | .VERIFIED_EVIDENCE => "VERIFIED_EVIDENCE"
  | .WORKING_CONTEXT => "WORKING_CONTEXT"
  | .LEARNING_SIGNAL => "LEARNING_SIGNAL"

def MemoryScope.value : MemoryScope → String
  | .M0_AGENCY => "M0_AGENCY"
  | .M1_BRAND_CANON => "M1_BRAND_CANON"
  | .M2_PROJECT => "M2_PROJECT"
  | .M3_CONVERSATION => "M3_CONVERSATION"
  | .M4_EVIDENCE => "M4_EVIDENCE"
  | .M5_PERFORMANCE => "M5_PERFORMANCE"
  | .M6_LEARNING => "M6_LEARNING"

def MEMORY_AUTHORITY_ORDER : List MemoryAuthority :=
  [.BRAND_CANON, .APPROVED_PROJECT_DECISION, .VERIFIED_EVIDENCE, .WORKING_CONTEXT, .LEARNING_SIGNAL]

/-- Higher number, higher authority. -/
def authority_rank (authority : MemoryAuthority) : Nat :=
  MEMORY_AUTHORITY_ORDER.length - MEMORY_AUTHORITY_ORDER.idxOf authority

def MEMORY_SCOPE_AUTHORITIES : MemoryScope → List MemoryAuthority
  | .M0_AGENCY => [.WORKING_CONTEXT]
  | .M1_BRAND_CANON => [.BRAND_CANON]
  | .M2_PROJECT => [.APPROVED_PROJECT_DECISION, .WORKING_CONTEXT]
  | .M3_CONVERSATION => [.WORKING_CONTEXT]
  | .M4_EVIDENCE => [.VERIFIED_EVIDENCE, .WORKING_CONTEXT]
  | .M5_PERFORMANCE => [.VERIFIED_EVIDENCE, .WORKING_CONTEXT]
  | .M6_LEARNING => [.LEARNING_SIGNAL]

/-- The body of a record, a dictionary. -/
abbrev Body : Type := List (String × Value)

/-- `{**body, key: value}` -/
def Body.set (body : Body) (key : String) (value : Value) : Body :=
  if body.any (·.1 == key) then body.map fun e => if e.1 == key then (key, value) else e
  else body ++ [(key, value)]

structure MemoryRecord where
  memory_id : String
  tenant_id : String
  project_id : Option String
  thread_id : Option String
  scope : MemoryScope
  authority : MemoryAuthority
  subject_key : String
  body : Body
  source_refs : List String
  fresh_until : Option String
  status : MemoryStatus
  supersedes : Option String
  content_hash : String
  created_by : String
  created_at : String

/-- What a record is about: one subject of a tenant, in a project or outside all. -/
structure Subject where
  tenant_id : String
  project_id : Option String
  subject_key : String
  deriving DecidableEq

def MemoryRecord.subject (r : MemoryRecord) : Subject := ⟨r.tenant_id, r.project_id, r.subject_key⟩

/-- The record will not be used again. -/
def MemoryRecord.Retired (r : MemoryRecord) : Prop := r.status = .INVALIDATED ∨ r.status = .SUPERSEDED

/-- `MemoryPolicyError` and `ProjectNotFoundError`, with their texts. -/
inductive MemoryError where
  | policy (text : String)
  | notFound (text : String)
  deriving DecidableEq

def allowedText (scope : MemoryScope) : String :=
  ", ".intercalate ((MEMORY_SCOPE_AUTHORITIES scope).map (·.value))

def validate_placement (scope : MemoryScope) (authority : MemoryAuthority)
    (project_id thread_id : Option String) : Except MemoryError Unit :=
  if authority ∉ MEMORY_SCOPE_AUTHORITIES scope then
    .error (.policy ("scope " ++ scope.value ++ " cannot hold " ++ authority.value ++
      " memory (allowed: " ++ allowedText scope ++ ")"))
  else if scope = .M0_AGENCY ∧ project_id ≠ none then
    .error (.policy "M0_AGENCY memory is tenant-wide and must not name a project")
  else if scope ≠ .M0_AGENCY ∧ scope ≠ .M6_LEARNING ∧ project_id = none then
    .error (.policy (scope.value ++ " memory must belong to a project"))
  else if scope = .M3_CONVERSATION ∧ thread_id.getD "" = "" then
    .error (.policy "M3_CONVERSATION memory must name its thread")
  else .ok ()

/-- The statuses of a `WriteDecision`. -/
inductive Decision where
  | ACTIVE
  | QUARANTINED
  | DUPLICATE
  deriving DecidableEq, Repr

structure WriteDecision where
  status : Decision
  supersedes : Option String
  reason : Option String
  deriving DecidableEq

/-- How a new record for a subject relates to the active records for it. -/
def decide_write (authority : MemoryAuthority) (content_hash : String)
    (active : List MemoryRecord) : WriteDecision :=
  let ranked := active.insertionSort fun a b => authority_rank b.authority ≤ authority_rank a.authority
  match ranked with
  | [] => ⟨.ACTIVE, none, none⟩
  | top :: _ =>
    if top.content_hash = content_hash ∧ top.authority = authority then
      ⟨.DUPLICATE, some top.memory_id, some "identical content already active"⟩
    else if authority_rank authority < authority_rank top.authority then
      ⟨.QUARANTINED, none, some (authority.value ++ " cannot override active " ++
        top.authority.value ++ " memory " ++ top.memory_id)⟩
    else
      let same_or_lower := ranked.filter fun r => authority_rank r.authority ≤ authority_rank authority
      ⟨.ACTIVE, same_or_lower.head?.map (·.memory_id), none⟩

def can_promote (scope : MemoryScope) (from_authority to_authority : MemoryAuthority) :
    Except MemoryError Unit :=
  if to_authority ∉ MEMORY_SCOPE_AUTHORITIES scope then
    .error (.policy (scope.value ++ " memory cannot be promoted to " ++ to_authority.value))
  else if authority_rank to_authority ≤ authority_rank from_authority then
    .error (.policy "promotion must raise authority")
  else .ok ()

/-! ## What the rules decide -/

variable {authority to_authority : MemoryAuthority} {content_hash : String}

/-- An active record that a write of the authority and content does not replace. -/
def MemoryRecord.Withstands (r : MemoryRecord) (authority : MemoryAuthority)
    (content_hash : String) : Prop :=
  authority_rank authority < authority_rank r.authority ∨
    (r.content_hash = content_hash ∧ r.authority = authority)

theorem decide_write_singleton (authority : MemoryAuthority) (content_hash : String) (top : MemoryRecord) :
    (top.Withstands authority content_hash ∧ ((decide_write authority content_hash [top]).status = .DUPLICATE ∧
          (decide_write authority content_hash [top]).supersedes = some top.memory_id ∨
        (decide_write authority content_hash [top]).status = .QUARANTINED ∧
          (decide_write authority content_hash [top]).supersedes = none)) ∨
    (¬ top.Withstands authority content_hash ∧ authority_rank top.authority ≤ authority_rank authority ∧
      decide_write authority content_hash [top] = ⟨.ACTIVE, some top.memory_id, none⟩) := by
  unfold decide_write MemoryRecord.Withstands
  rw [List.insertionSort_cons, List.insertionSort_nil, List.orderedInsert_nil]
  dsimp only
  split
  · rename_i hsame
    exact .inl ⟨.inr hsame, .inl ⟨rfl, rfl⟩⟩
  · rename_i hsame
    split
    · rename_i hlower
      exact .inl ⟨.inl hlower, .inr ⟨rfl, rfl⟩⟩
    · rename_i hlower
      refine .inr ⟨not_or.mpr ⟨hlower, hsame⟩, Nat.le_of_not_lt hlower, ?_⟩
      rw [List.filter_cons_of_pos (by simpa using hlower)]
      rfl

variable {scope : MemoryScope}

theorem can_promote_ok (h : can_promote scope authority to_authority = .ok ()) :
    to_authority ∈ MEMORY_SCOPE_AUTHORITIES scope ∧ authority_rank authority < authority_rank to_authority := by
  unfold can_promote at h
  split at h
  · cases h
  · rename_i hallowed
    split at h
    · cases h
    · rename_i hrank
      exact ⟨not_not.mp hallowed, Nat.lt_of_not_le hrank⟩

/-- **A promoted record is placed well**: only its authority changes, to one its scope may
    hold. -/
theorem validate_placement_promoted {project_id thread_id : Option String}
    (h : validate_placement scope authority project_id thread_id = .ok ())
    (hto : to_authority ∈ MEMORY_SCOPE_AUTHORITIES scope) :
    validate_placement scope to_authority project_id thread_id = .ok () := by
  unfold validate_placement at h ⊢
  split at h
  · cases h
  · rw [if_neg (not_not.mpr hto)]
    exact h

end Memory
