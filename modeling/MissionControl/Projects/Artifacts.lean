import MissionControl.Agency.Staleness
import MissionControl.Canonical.Value
import MissionControl.Interleaving.Embed
import MissionControl.Python.Text

/-! # Artifacts of a project and their versions

Over the artifact registry of the agency kernel a project keeps the metadata of each artifact (its *v2* keys) and a
row for each version. A revision overlays a patch on the metadata, revises the artifact in the registry, writes the
metadata, and records the version: four writes, each a transaction of its own. To restore a version is to revise the
artifact with what the version's row holds. -/

namespace Projects

open Agency (Artifact ArtifactStatus KernelError Revision)
open Agency.Staling (Protected RevisionCall RevisionCalls RevisionOutcome RevisionState revisionExec)
open Canonical (Value)
open Interleaving
open Relational (Table)

/-- What the operations raise: `ProjectNotFoundError`, `ProjectConflictError`, `StaleArtifactVersionError`,
    `ValueError`, `TypeError`, what else the agency kernel raises, and the database's own errors. -/
inductive ProjectError where
  | not_found (text : String)
  | conflict (text : String)
  | stale (text : String)
  | value (text : String)
  | type_error
  | kernel (e : KernelError)
  | integrity
  | fault
  deriving DecidableEq

/-- An error of the agency kernel, raised on. -/
def ProjectError.ofKernel : KernelError → ProjectError
  | .stale text => .stale text
  | e => .kernel e

/-! ## The tables -/

/-- A `dict` with texts as its keys. -/
abbrev Dict : Type := Table (String × Value) String Prod.fst

/-- `d.get(key)` -/
def Dict.get (d : Dict) (key : String) : Option Value := (d.find? key).map Prod.snd

/-- The metadata of an artifact: what protects it, and the *v2* keys. -/
structure Metadata where
  guards : Protected := {}
  v2 : Dict := .empty

/-- What `get_artifact` returns. -/
structure ArtifactRecord where
  artifact : Artifact
  metadata : Metadata

inductive ChangeKind where
  | create | revise | restore | replace_master
  deriving DecidableEq

/-- A row of `artifact_versions`. -/
structure VersionRow where
  artifact_id : String
  version : ℕ
  tenant_id : String
  project_id : String
  content_hash : Option String
  content_location : Option String
  semantic_fingerprint : Option String
  metadata : Metadata
  change_kind : ChangeKind
  restored_from_version : Option ℕ
  created_by : String

/-- The primary key. -/
def VersionRow.key (r : VersionRow) : String × ℕ := (r.artifact_id, r.version)

/-- A row of `artifact_edit_requests`. -/
structure EditRequest where
  request_id : String
  tenant_id : String
  project_id : String
  artifact_id : String
  base_version_ref : String
  instruction : String
  requested_by : String

structure ArtifactState where
  office : RevisionState
  v2 : String → Dict
  versions : Table VersionRow (String × ℕ) VersionRow.key
  edit_requests : List EditRequest

namespace ArtifactState

/-- `get_artifact` -/
def get_artifact (s : ArtifactState) (artifact_id : String) : Option ArtifactRecord :=
  (s.office.kernel.artifacts.find? artifact_id).map fun a => ⟨a, s.office.metadata artifact_id, s.v2 artifact_id⟩

/-- `UPDATE agency_artifacts SET metadata = ?` -/
def set_metadata (s : ArtifactState) (artifact_id : String) (metadata : Metadata) : ArtifactState :=
  { s with
    office := { s.office with metadata := Function.update s.office.metadata artifact_id metadata.guards }
    v2 := Function.update s.v2 artifact_id metadata.v2 }

/-- `INSERT INTO agency_artifacts` -/
def create_artifact (s : ArtifactState) (r : ArtifactRecord) : Except ProjectError ArtifactState :=
  if h : s.office.kernel.artifacts.find? r.artifact.artifact_id = none then
    let kernel := { s.office.kernel with artifacts := s.office.kernel.artifacts.insert r.artifact h }
    .ok ({ s with office := { s.office with kernel } }.set_metadata r.artifact.artifact_id r.metadata)
  else
    .error .integrity

end ArtifactState

/-! ## Calls -/

/-- What `adapter.put_bytes` returns. -/
structure StoredObject where
  content_hash : String
  storage_uri : String

/-- What `_insert_version` takes. -/
structure VersionChange where
  artifact : ArtifactRecord
  change_kind : ChangeKind
  actor : String
  restored_from_version : Option ℕ := none

/-- The row of a version. -/
def VersionChange.row (c : VersionChange) : VersionRow where
  artifact_id := c.artifact.artifact.artifact_id
  version := c.artifact.artifact.version
  tenant_id := c.artifact.artifact.tenant_id
  project_id := c.artifact.artifact.project_id
  content_hash := c.artifact.artifact.content_hash
  content_location := c.artifact.artifact.content_location
  semantic_fingerprint := c.artifact.artifact.semantic_fingerprint
  metadata := c.artifact.metadata
  change_kind := c.change_kind
  restored_from_version := c.restored_from_version
  created_by := c.actor

inductive ArtifactCall where
  | revision (c : RevisionCall)
  | require_project_workspace (project_id : String)
  /-- The scope and the ontology `create_artifact` checks. -/
  | assert_creatable (artifact_type tenant_id project_id : String)
  | get_artifact (artifact_id : String)
  | create_artifact (record : ArtifactRecord)
  | store_text (tenant_id project_id text : String)
  | set_metadata (artifact_id : String) (metadata : Metadata)
  | version_row (artifact_id : String) (version : ℕ)
  /-- The transaction that records a version, with an edit request for each artifact of the project that the change
      invalidated. -/
  | record_change (change : VersionChange) (project_id changed_version_ref : String)
      (affected : List (String × ArtifactStatus))

abbrev ArtifactCall.Resp : ArtifactCall → Type
  | revision c => Except KernelError c.Resp
  | require_project_workspace _ => Bool
  | assert_creatable .. => Option String
  | get_artifact _ => Option ArtifactRecord
  | create_artifact _ => Unit
  | store_text .. => StoredObject
  | set_metadata .. => Unit
  | version_row .. => Option VersionRow
  | record_change .. => List String

abbrev ArtifactCalls : Interface := ⟨ArtifactCall, ArtifactCall.Resp, ProjectError⟩

/-- What the outside decides about a call: what the kernel's calls leave to it, whether it raises, what the storage
    answers, whether there is such a workspace, what the ontology refuses, and new identifiers. -/
structure ArtifactOutcome where
  revision : RevisionOutcome
  fault : Bool
  stored : StoredObject
  workspace : Bool
  refused : Option String
  fresh : ℕ → String

/-- The edit requests of a change. -/
def editRequests (s : ArtifactState) (fresh : ℕ → String) (updated : Artifact) (project_id changed_version_ref : String)
    (affected : List (String × ArtifactStatus)) : List EditRequest :=
  let downstream := (affected.filter (·.2 = .invalidated)).filterMap fun x =>
    (s.office.kernel.artifacts.find? x.1).filter (·.project_id = project_id)
  downstream.zipIdx.map fun x =>
    { request_id := s!"edit-{fresh x.2}"
      tenant_id := updated.tenant_id
      project_id
      artifact_id := x.1.artifact_id
      base_version_ref := s!"{x.1.artifact_id}:v{x.1.version}"
      instruction := s!"Regenerate against {changed_version_ref} (upstream changed)"
      requested_by := "system:dependency-invalidation" }

/-- The transaction of `record_change`. -/
def recordChange (s : ArtifactState) (fresh : ℕ → String) (change : VersionChange) (project_id changed_version_ref : String)
    (affected : List (String × ArtifactStatus)) : Except ProjectError (List String × ArtifactState) :=
  if h : s.versions.find? change.row.key = none then
    let requests := editRequests s fresh change.artifact.artifact project_id changed_version_ref affected
    .ok (requests.map EditRequest.request_id,
      { s with versions := s.versions.insert change.row h, edit_requests := s.edit_requests ++ requests })
  else
    .error .integrity

def ArtifactCall.run (o : ArtifactOutcome) (s : ArtifactState) :
    (c : ArtifactCall) → Except ProjectError (c.Resp × ArtifactState)
  | .revision c =>
    .ok (revisionExec.answer c o.revision s.office, { s with office := revisionExec.after c o.revision s.office })
  | .require_project_workspace _ => .ok (o.workspace, s)
  | .assert_creatable .. => .ok (o.refused, s)
  | .get_artifact artifact_id => .ok (s.get_artifact artifact_id, s)
  | .create_artifact record => (s.create_artifact record).map fun s' => ((), s')
  | .store_text .. => .ok (o.stored, s)
  | .set_metadata artifact_id metadata => .ok ((), s.set_metadata artifact_id metadata)
  | .version_row artifact_id version => .ok (s.versions.find? (artifact_id, version), s)
  | .record_change change project_id changed_version_ref affected =>
    recordChange s o.fresh change project_id changed_version_ref affected

/-- A call of the kernel brings its own faults. -/
def artifactExec : Exec ArtifactCalls ArtifactState ArtifactOutcome := fun c o s =>
  match c with
  | .revision c => ArtifactCall.run o s (.revision c)
  | c => if o.fault then .error .fault else c.run o s

abbrev ArtifactProgram (α : Type) : Type := Program ArtifactCalls α

abbrev perform (c : ArtifactCall) : ArtifactProgram c.Resp := Program.perform (I := ArtifactCalls) c

/-- The kernel's calls as calls on the tables of a project. -/
def kernelCalls : Embedding RevisionCalls ArtifactCalls := ⟨ArtifactCall.revision, fun _ answer => answer⟩

abbrev withKernel {α : Type} (p : Program RevisionCalls α) : ArtifactProgram α := p.inside kernelCalls .ofKernel

theorem kernelCalls_carries : kernelCalls.Carries revisionExec artifactExec ArtifactState.office
    (fun office s => { s with office }) ArtifactOutcome.revision where
  call _ _ _ := ⟨_, rfl, rfl⟩
  view_put _ _ := rfl
  put_view _ := rfl
  put_put _ _ _ := rfl

/-! ## Creating an artifact -/

def _V2_KEYS : List String :=
  ["campaign_id", "media_type", "mime_type", "language", "locale", "channel", "dimensions", "duration_seconds",
    "parent_artifact_id", "master_artifact_id", "variant_of", "source_refs", "evidence_refs", "prompt_refs",
    "storage_uri", "preview_uri", "thumbnail_uri", "rights_ref", "provenance_ref"]

/-- A character of a slug. -/
def slugChar (c : Char) : Bool := c.isLower || c.isDigit

/-- `text.strip("-")` -/
def stripDashes (text : List Char) : List Char := (text.dropWhile (· = '-')).rdropWhile (· = '-')

/-- `re.sub("[^a-z0-9]+", "-", text)` -/
def dashRuns (text : List Char) : List Char :=
  (text.splitBy fun a b => !slugChar a && !slugChar b).flatMap fun run => if run.all slugChar then run else ['-']

def slugify (value fallback : String) : String :=
  let slug := stripDashes ((stripDashes (dashRuns (value.toList.flatMap Python.lowerLetters))).take 64)
  if slug = [] then fallback else String.ofList slug

def project_artifact_id (project_id artifact_key : String) : String :=
  "art-" ++ project_id ++ "-" ++ slugify artifact_key "artifact"

def project_engagement_id (project_id : String) : String := s!"eng-project-{project_id}"

/-- `value is not None` -/
def Value.isSome : Value → Bool
  | .none => false
  | _ => true

/-- The keys of a patch that are *v2* keys, over what there is. -/
def overlay (v2 patch : Dict) : Dict := (patch.rows.filter (·.1 ∈ _V2_KEYS)).foldl Table.put v2

/-- `d[key] = text` -/
def Dict.setText (d : Dict) (key text : String) : Dict := d.put (key, .str text)

/-- A text that is there and not empty. -/
def given (text : Option String) : Option String := text.filter (· ≠ "")

/-- `if location: v2_meta["storage_uri"] = location` -/
def withLocation (v2 : Dict) (location : Option String) : Dict :=
  match given location with
  | some location => v2.setText "storage_uri" location
  | none => v2

/-- The text at a key, where there is one. -/
def Dict.text (d : Dict) (key : String) : Option String :=
  match d.get key with
  | some (.str text) => some text
  | _ => none

/-- The arguments of `create_project_artifact`. -/
structure NewArtifact where
  tenant_id : String
  project_id : String
  actor : String
  artifact_key : String
  artifact_type : String
  content_text : Option String := none
  content_hash : Option String := none
  storage_uri : Option String := none
  v2 : Dict := .empty
  depends_on : List String := []

/-- The content of a new artifact and its metadata. -/
def storeContent (r : NewArtifact) : ArtifactProgram (Option String × Dict) := do
  let v2_meta : Dict := ((r.v2.filter fun x => x.1 ∈ _V2_KEYS).filter fun x => Value.isSome x.2)
  match r.content_text, r.storage_uri with
  | some text, _ => do
    let obj ← perform (.store_text r.tenant_id r.project_id text)
    let v2_meta := v2_meta.setText "storage_uri" obj.storage_uri
    pure (some obj.content_hash,
      if (v2_meta.get "media_type").isNone then v2_meta.setText "media_type" "text" else v2_meta)
  | none, some storage_uri => pure (r.content_hash, v2_meta.setText "storage_uri" storage_uri)
  | none, none => pure (r.content_hash, v2_meta)

variable (hash_payload : List (String × ArtifactStatus) → String) (fuel : ℕ)

def ensureDependencies (artifact_id : String) : List String → ArtifactProgram Unit
  | [] => pure ()
  | upstream :: depends_on => do
    withKernel (Agency.Staling.lift (Agency.ensure_artifact_dependency fuel artifact_id upstream (some .hard)))
    ensureDependencies artifact_id depends_on

/-- `create_artifact` of the agency kernel, with what it is called with here. -/
def create_artifact (artifact : Artifact) (metadata : Metadata) (artifact_type : String) :
    ArtifactProgram ArtifactRecord := do
  match ← perform (.assert_creatable artifact_type artifact.tenant_id artifact.project_id) with
  | some text => throw (.value text)
  | none => do
    perform (.create_artifact ⟨artifact, metadata⟩)
    match ← perform (.get_artifact artifact.artifact_id) with
    | none => throw (.kernel (.runtime "Artifact insert succeeded but record could not be read back"))
    | some record => do
      withKernel (Agency.Staling.perform (.kernel (.record_trust_policy
        s!"policy-artifact-create-{artifact.artifact_id}-v{artifact.version}")))
      pure record

def create_project_artifact (r : NewArtifact) : ArtifactProgram ArtifactRecord := do
  if (← perform (.require_project_workspace r.project_id)) = false then
    throw (.not_found r.project_id)
  else do
    let artifact_id := project_artifact_id r.project_id r.artifact_key
    match ← perform (.get_artifact artifact_id) with
    | some _ => throw (.conflict s!"artifact key '{r.artifact_key}' already exists in this project")
    | none => do
      let (content_hash, v2_meta) ← storeContent r
      match given content_hash with
      | none => throw (.value "an artifact needs content_text, or a content_hash for externally stored bytes")
      | some content_hash => do
        let created ← create_artifact
          { artifact_id
            engagement_id := project_engagement_id r.project_id
            tenant_id := r.tenant_id
            project_id := r.project_id
            version := 1
            status := .draft
            content_location := v2_meta.text "storage_uri"
            content_hash := some content_hash
            semantic_fingerprint := some content_hash
            updated_at := 0 }
          { v2 := v2_meta } r.artifact_type
        let _ ← perform (.record_change ⟨created, .create, r.actor, none⟩ r.project_id s!"{artifact_id}:v1" [])
        ensureDependencies fuel artifact_id r.depends_on
        match ← perform (.get_artifact artifact_id) with
        | none => throw .type_error
        | some record => pure record

/-! ## Revising and restoring -/

def _scoped_artifact (artifact_id project_id : String) : ArtifactProgram ArtifactRecord := do
  match ← perform (.get_artifact artifact_id) with
  | none => throw (.not_found s!"artifact {artifact_id} not found in project")
  | some record =>
    if record.artifact.project_id ≠ project_id then
      throw (.not_found s!"artifact {artifact_id} not found in project")
    else
      pure record

/-- The arguments of `revise_project_artifact`. -/
structure ProjectRevision where
  project_id : String
  artifact_id : String
  actor : String
  expected_version : Int
  content_text : Option String := none
  content_hash : Option String := none
  storage_uri : Option String := none
  v2_patch : Dict := .empty
  change_kind : ChangeKind := .revise
  restored_from_version : Option ℕ := none

/-- The hash and the location of what is revised to. -/
def revisedContent (r : ProjectRevision) (tenant_id : String) : ArtifactProgram (Option String × Option String) :=
  match r.content_text with
  | some text => do
    let obj ← perform (.store_text tenant_id r.project_id text)
    pure (some obj.content_hash, some obj.storage_uri)
  | none => pure (r.content_hash, r.storage_uri)

/-- What `revise_project_artifact` returns. -/
structure Revised where
  artifact : ArtifactRecord
  changed_version_ref : String
  affected : List (String × ArtifactStatus)
  remediation_requests : List String

/-- The revision in the registry. -/
def registryRevision (r : ProjectRevision) (content_hash location : Option String) : Revision where
  artifact_id := r.artifact_id
  content_hash
  semantic_fingerprint := content_hash
  content_location := location
  expected_version := some r.expected_version

def revise_project_artifact (r : ProjectRevision) : ArtifactProgram Revised := do
  let record ← _scoped_artifact r.artifact_id r.project_id
  let (content_hash, location) ← revisedContent r record.artifact.tenant_id
  let v2_meta := withLocation (overlay record.metadata.v2 r.v2_patch) location
  let revision ← withKernel
    (Agency.Staling.record_artifact_revision hash_payload fuel (registryRevision r content_hash location))
  perform (.set_metadata r.artifact_id { record.metadata with v2 := v2_meta })
  match ← perform (.get_artifact r.artifact_id) with
  | none => throw .type_error
  | some updated => do
    let changed_version_ref := s!"{r.artifact_id}:v{r.expected_version + 1}"
    let remediation_requests ← perform (.record_change
      ⟨updated, r.change_kind, r.actor, r.restored_from_version⟩ r.project_id changed_version_ref revision.2)
    pure ⟨updated, changed_version_ref, revision.2, remediation_requests⟩

/-- The revision that restores a version. -/
def restoring (project_id artifact_id actor : String) (expected_version : Int) (target : VersionRow) :
    ProjectRevision where
  project_id
  artifact_id
  actor
  expected_version
  content_hash := target.content_hash
  storage_uri := target.content_location
  v2_patch := target.metadata.v2
  change_kind := .restore
  restored_from_version := some target.version

def restore_artifact_version (project_id artifact_id : String) (version : ℕ) (actor : String)
    (expected_version : Int) : ArtifactProgram Revised := do
  match ← perform (.version_row artifact_id version) with
  | none => throw (.not_found s!"{artifact_id}:v{version} has no recorded history")
  | some target =>
    revise_project_artifact hash_payload fuel (restoring project_id artifact_id actor expected_version target)

end Projects
