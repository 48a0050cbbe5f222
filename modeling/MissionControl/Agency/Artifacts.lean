import MissionControl.Interleaving.Pool
import MissionControl.Relational.Table
import Mathlib.Data.List.Sort
import Mathlib.Data.String.Basic

/-! # Artifacts and their dependencies

An artifact depends on others, hard or soft. A change of one is propagated to those
that depend on it: along hard dependencies they are invalidated, otherwise they need
a review. Every statement outside a write transaction is a step of its own, also the
reads of one search. -/

namespace Agency

open Interleaving (Interface Exec Program)
open Relational (Table)

/-- A moment in microseconds. -/
abbrev Instant : Type := Int

/-! ## The lifecycle of an artifact -/

inductive ArtifactStatus where
  | draft | validating | approved | release_eligible | released | review_required | invalidated
  | archived
  deriving DecidableEq

open ArtifactStatus in
def ARTIFACT_TRANSITIONS : ArtifactStatus → List ArtifactStatus
  | draft => [validating, invalidated, archived]
  | validating => [approved, review_required, draft, invalidated]
  | approved => [release_eligible, review_required, invalidated]
  | release_eligible => [released, review_required, invalidated]
  | released => [review_required, invalidated, archived]
  | review_required => [validating, draft, invalidated, archived]
  | invalidated => [draft, archived]
  | archived => []

/-! ## The tables -/

/-- A row of `agency_artifacts`. -/
structure Artifact where
  artifact_id : String
  engagement_id : String
  tenant_id : String
  project_id : String
  version : ℕ
  status : ArtifactStatus
  content_location : Option String
  content_hash : Option String
  semantic_fingerprint : Option String
  updated_at : Instant

inductive Relationship where
  | hard | soft
  deriving DecidableEq

/-- A row of `artifact_dependencies`. -/
structure Dependency where
  artifact_id : String
  depends_on_artifact_id : String
  relationship : Relationship
  created_at : Instant

/-- The primary key. -/
def Dependency.key (d : Dependency) : String × String := (d.artifact_id, d.depends_on_artifact_id)

structure KernelState where
  artifacts : Table Artifact String Artifact.artifact_id
  dependencies : Table Dependency (String × String) Dependency.key

/-- What the operations raise: `ValueError`, its subclass for a stale version,
    `RuntimeError`, the database's own errors, and whatever else a call may raise. A
    search that is cut off while it runs has raised nothing, and does nothing more. -/
inductive KernelError where
  | value (text : String)
  | stale (text : String)
  | runtime (text : String)
  | integrity
  | fault
  | unfinished
  deriving DecidableEq

/-! ## The statements -/

/-- The statuses a propagation has found, by artifact. -/
abbrev Severities : Type := Table (String × ArtifactStatus) String Prod.fst

/-- `severity.get(artifact_id)` -/
def Severities.get (severity : Severities) (artifact_id : String) : Option ArtifactStatus :=
  (severity.find? artifact_id).map Prod.snd

inductive Call where
  | now
  | get_artifact (artifact_id : String)
  | get_dependency (artifact_id depends_on_artifact_id : String)
  | upstream (artifact_id : String)
  | dependents (artifact_id : String)
  | insert_dependency (d : Dependency)
  | set_statuses (affected : List (String × ArtifactStatus)) (now : Instant) (engagement_id : String)
  | revise (artifact_id : String) (base_version : ℕ)
      (content_hash semantic_fingerprint content_location : Option String) (now : Instant)
  | record_trust_policy (decision_id : String)
  | settle_impacted (impacted_ids : List String) (changed_version_ref : String)

abbrev Call.Resp : Call → Type
  | now => Instant
  | get_artifact _ => Option Artifact
  | get_dependency _ _ => Option Dependency
  | upstream _ => List String
  | dependents _ => List (String × Relationship)
  | insert_dependency _ => Unit
  | set_statuses _ _ _ => Unit
  | revise _ _ _ _ _ _ => Unit
  | record_trust_policy _ => Unit
  | settle_impacted _ _ => Unit

abbrev KernelCalls : Interface where
  Call := Call
  Resp := Call.Resp
  Err := KernelError

/-- What the outside decides about a call: the clock, and whether it raises. -/
structure Outcome where
  now : Instant
  fault : Bool

namespace KernelState

/-- `SELECT depends_on_artifact_id … WHERE artifact_id = ? ORDER BY …` -/
def upstream (s : KernelState) (artifact_id : String) : List String :=
  ((s.dependencies.rows.filter (·.artifact_id = artifact_id)).map
    Dependency.depends_on_artifact_id).insertionSort (· ≤ ·)

/-- `SELECT artifact_id, relationship … WHERE depends_on_artifact_id = ? ORDER BY …` -/
def dependents (s : KernelState) (artifact_id : String) : List (String × Relationship) :=
  ((s.dependencies.rows.filter (·.depends_on_artifact_id = artifact_id)).map
    fun d => (d.artifact_id, d.relationship)).insertionSort (·.1 ≤ ·.1)

/-- The row is new, joins two artifacts there are, and is no loop. -/
def insertDependency (s : KernelState) (d : Dependency) : Except KernelError KernelState :=
  if h : s.dependencies.find? d.key = none then
    if d.artifact_id = d.depends_on_artifact_id ∨ s.artifacts.find? d.artifact_id = none ∨
        s.artifacts.find? d.depends_on_artifact_id = none then
      .error .integrity
    else
      .ok { s with dependencies := s.dependencies.insert d h }
  else
    .error .integrity

/-- `UPDATE … SET status = ?, updated_at = ? WHERE artifact_id = ? AND engagement_id = ?` -/
def setStatus (s : KernelState) (now : Instant) (engagement_id : String)
    (affected : String × ArtifactStatus) : KernelState :=
  { s with
    artifacts := s.artifacts.update affected.1
      (fun a => if a.engagement_id = engagement_id then
        { a with status := affected.2, updated_at := now } else a)
      fun a => by split <;> rfl }

/-- The compare-and-set of a revision. -/
def revise (s : KernelState) (artifact_id : String) (base_version : ℕ)
    (content_hash semantic_fingerprint content_location : Option String) (now : Instant) :
    Except KernelError KernelState :=
  match s.artifacts.find? artifact_id with
  | some a =>
    if a.version = base_version then
      .ok { s with
        artifacts := s.artifacts.update artifact_id
          (fun a => { a with
            version := base_version + 1
            status := .draft
            content_hash := content_hash.or a.content_hash
            semantic_fingerprint := semantic_fingerprint.or a.semantic_fingerprint
            content_location := content_location.or a.content_location
            updated_at := now })
          fun _ => rfl }
    else
      .error (.stale
        s!"artifact {artifact_id} changed concurrently; edit was based on v{base_version}")
  | none =>
    .error (.stale
      s!"artifact {artifact_id} changed concurrently; edit was based on v{base_version}")

end KernelState

/-- What a call does when it does not raise on its own. The last two write tables of
    their own: the trust kernel's, and those of approvals and remediations. -/
def Call.run (now : Instant) (s : KernelState) : (c : Call) → Except KernelError (c.Resp × KernelState)
  | .now => .ok (now, s)
  | .get_artifact artifact_id => .ok (s.artifacts.find? artifact_id, s)
  | .get_dependency artifact_id depends_on_artifact_id =>
    .ok (s.dependencies.find? (artifact_id, depends_on_artifact_id), s)
  | .upstream artifact_id => .ok (s.upstream artifact_id, s)
  | .dependents artifact_id => .ok (s.dependents artifact_id, s)
  | .insert_dependency d => (s.insertDependency d).map fun s' => ((), s')
  | .set_statuses affected now engagement_id =>
    .ok ((), affected.foldl (KernelState.setStatus · now engagement_id) s)
  | .revise artifact_id base_version content_hash semantic_fingerprint content_location now =>
    (s.revise artifact_id base_version content_hash semantic_fingerprint content_location now).map
      fun s' => ((), s')
  | .record_trust_policy _ => .ok ((), s)
  | .settle_impacted _ _ => .ok ((), s)

def exec : Exec KernelCalls KernelState Outcome := fun c o s =>
  if o.fault then .error .fault else c.run o.now s

/-- A program of the agency kernel. -/
abbrev Kernel (α : Type) : Type := Program KernelCalls α

/-- Make one call. -/
abbrev ask (c : Call) : Kernel (Call.Resp c) := .perform (I := KernelCalls) c

/-! ## Adding a dependency -/

/-- The loop over the queue. It is cut off after `fuel` rounds. -/
def _dependency_would_cycle (artifact_id : String) : ℕ → List String → List String → Kernel Bool
  | 0, _, _ => throw .unfinished
  | _ + 1, [], _ => pure false
  | fuel + 1, current :: queue, visited =>
    if current = artifact_id then
      pure true
    else if current ∈ visited then
      _dependency_would_cycle artifact_id fuel queue visited
    else do
      let rows ← ask (.upstream current)
      _dependency_would_cycle artifact_id fuel (queue ++ rows) (current :: visited)

/-- `relationship` is nothing where it is neither `hard` nor `soft`. -/
def add_artifact_dependency (fuel : ℕ) (artifact_id depends_on_artifact_id : String)
    (relationship : Option Relationship) : Kernel Unit :=
  if artifact_id = depends_on_artifact_id then
    throw (.value "An artifact cannot depend on itself")
  else do
    let artifact ← ask (.get_artifact artifact_id)
    let upstream ← ask (.get_artifact depends_on_artifact_id)
    match artifact, upstream with
    | some artifact, some upstream =>
      if artifact.engagement_id ≠ upstream.engagement_id then
        throw (.value "Artifact dependencies cannot cross engagement boundaries")
      else
        match relationship with
        | none => throw (.value "relationship must be 'hard' or 'soft'")
        | some relationship => do
          let cycle ← _dependency_would_cycle artifact_id fuel [depends_on_artifact_id] []
          if cycle then
            throw (.value "Artifact dependency would create a cycle")
          else do
            let created_at ← ask .now
            ask (.insert_dependency
              { artifact_id, depends_on_artifact_id, relationship, created_at })
            ask (.record_trust_policy
              s!"policy-artifact-dependency-{artifact_id}-{depends_on_artifact_id}")
    | _, _ => throw (.value "Both artifacts must exist before a dependency can be added")

def ensure_artifact_dependency (fuel : ℕ) (artifact_id depends_on_artifact_id : String)
    (relationship : Option Relationship) : Kernel Unit := do
  match ← ask (.get_dependency artifact_id depends_on_artifact_id) with
  | some _ => pure ()
  | none => add_artifact_dependency fuel artifact_id depends_on_artifact_id relationship

/-! ## Propagating a change -/

/-- What a change of severity `current` means for a dependent. -/
def nextSeverity (current : ArtifactStatus) (relationship : Relationship) : ArtifactStatus :=
  if current = .invalidated ∧ relationship = .hard then .invalidated else .review_required

/-- One row of the inner loop: the severities and the queue after it. -/
def visitRow (current : ArtifactStatus) (acc : Severities × List (String × ArtifactStatus))
    (row : String × Relationship) : Severities × List (String × ArtifactStatus) :=
  let dependent_id := row.1
  let next := nextSeverity current row.2
  match acc.1.get dependent_id with
  | none => (acc.1.put (dependent_id, next), acc.2 ++ [(dependent_id, next)])
  | some prior =>
    if prior = .invalidated ∨ prior = next then
      acc
    else if prior = .review_required ∧ next = .invalidated then
      (acc.1.put (dependent_id, .invalidated), acc.2 ++ [(dependent_id, .invalidated)])
    else
      (acc.1, acc.2 ++ [(dependent_id, prior)])

/-- The loop over the queue of artifacts with the severity they were reached with. It
    is cut off after `fuel` rounds. -/
def propagateFrom : ℕ → List (String × ArtifactStatus) → List (String × ArtifactStatus) →
    Severities → Kernel Severities
  | 0, _, _, _ => throw .unfinished
  | _ + 1, [], _, severity => pure severity
  | fuel + 1, current :: queue, visited, severity =>
    if current ∈ visited then
      propagateFrom fuel queue visited severity
    else do
      let rows ← ask (.dependents current.1)
      let next := rows.foldl (visitRow current.2) (severity, queue)
      propagateFrom fuel next.2 (current :: visited) next.1

variable (hash_payload : List (String × ArtifactStatus) → String)

def _propagation_decision_id (artifact_id : String) (version : ℕ)
    (severity : List (String × ArtifactStatus)) : String :=
  s!"policy-artifact-propagation-{artifact_id}-v{version}-{hash_payload severity}"

def propagate_artifact_change (fuel : ℕ) (artifact_id : String) :
    Kernel (List (String × ArtifactStatus)) := do
  match ← ask (.get_artifact artifact_id) with
  | none => throw (.value "Artifact not found")
  | some source => do
    let severity ← propagateFrom fuel [(artifact_id, .invalidated)] [] .empty
    let affected := severity.rows.insertionSort (·.1 ≤ ·.1)
    let now ← ask .now
    ask (.set_statuses affected now source.engagement_id)
    if affected = [] then
      pure affected
    else do
      ask (.record_trust_policy
        (_propagation_decision_id hash_payload artifact_id source.version affected))
      pure affected

/-! ## Revising an artifact -/

/-- The arguments of `record_artifact_revision`. -/
structure Revision where
  artifact_id : String
  content_hash : Option String
  semantic_fingerprint : Option String
  content_location : Option String
  expected_version : Option Int

def record_artifact_revision (fuel : ℕ) (r : Revision) :
    Kernel (Artifact × List (String × ArtifactStatus)) := do
  match ← ask (.get_artifact r.artifact_id) with
  | none => throw (.value "Artifact not found")
  | some source =>
    let base_version := r.expected_version.getD source.version
    if base_version ≠ source.version then
      throw (.stale
        s!"artifact {r.artifact_id} is at v{source.version}, edit was based on v{base_version}")
    else do
      let now ← ask .now
      ask (.revise r.artifact_id source.version r.content_hash r.semantic_fingerprint
        r.content_location now)
      match ← ask (.get_artifact r.artifact_id) with
      | none => throw (.runtime "Artifact revision succeeded but record could not be read back")
      | some updated => do
        let affected ← propagate_artifact_change hash_payload fuel r.artifact_id
        ask (.settle_impacted (r.artifact_id :: affected.map Prod.fst)
          s!"{r.artifact_id}:v{source.version + 1}")
        ask (.record_trust_policy
          s!"policy-artifact-revision-{r.artifact_id}-v{source.version + 1}")
        pure (updated, affected)

end Agency
