import MissionControl.Content.Store
import MissionControl.Reliability.Outbox

/-! # The calls of content operations

What an operation on content asks of its surroundings: the artifacts of a project and the trust kernel, each a part of
the state with calls of its own, the transactions on the tables of content, and what lies outside. -/

namespace Content

open Canonical (Value Sha256)
open Interleaving
open Projects (ArtifactCall ArtifactCalls ArtifactOutcome Dict ProjectError)
open Reliability (TrustCalls TrustError)

/-- `type(exc).__name__` -/
def ContentError.name : ContentError → String
  | project (.not_found _) => "ProjectNotFoundError"
  | project (.conflict _) => "ProjectConflictError"
  | project (.stale _) | project (.kernel (.stale _)) => "StaleArtifactVersionError"
  | project (.value _) | project (.kernel (.value _)) => "ValueError"
  | project .type_error => "TypeError"
  | project (.kernel (.runtime _)) | project (.kernel .unfinished) => "RuntimeError"
  | project .integrity | project (.kernel .integrity) => "IntegrityError"
  | project .fault | project (.kernel .fault) => "OperationalError"
  | transition _ => "ContentTransitionError"
  | publication_blocked _ => "PublicationBlocked"
  | runtime _ => "RuntimeError"
  | attribute_error => "AttributeError"
  | trust e => e.name
  | provider name => name

/-! ## What the calls are made with -/

/-- A provider, as `resolve_provider` returns it. -/
structure Provider where
  name : String
  mode : ProviderMode

structure PublicationRequest where
  tenant_id : String
  project_id : String
  content_item_id : String
  version : ℕ
  channel : String
  body : Value
  idempotency_key : String

structure ProviderResult where
  external_ref : String
  observed : Dict

/-- How `provider.publish` ends: it returns, it raises `ProviderUncertain`, or it raises something else. -/
inductive Published where
  | published (result : ProviderResult)
  | uncertain (name : String)
  | failed (name : String)

/-- The columns `_set_attempt` writes besides the state. -/
structure AttemptFields where
  external_ref : Option String := none
  readback : Option Dict := none
  error : Option String := none

/-- A step of a journey; the delay is in microseconds. -/
structure JourneyStep where
  content_item_id : String
  delay : Int
  trigger : Option String := none
  channel : Option String := none

structure Journey where
  tenant_id : String
  project_id : String
  journey : String
  start : Datetime
  steps : List JourneyStep

inductive OpsCall where
  | artifact (c : ArtifactCall)
  | trust (c : Reliability.Call)
  | uuid
  | require_project_workspace (project_id : String)
  | get_content_atom (atom_id : String)
  | get_content_item (item_id : String)
  | item_body (item_id : String)
  | get_slot (slot_id : String)
  | get_job (job_id : String)
  | due_jobs (now : String) (project_id : Option String) (limit : Int)
  | insert_item (row : ItemRow)
  /-- By the state and the version of the item as it was read. -/
  | transition_item (item_id : String) (item : ContentItem) (target : ContentState) (approved_version : Option ℕ)
      (approval_ref : Option String)
  /-- By the version only. -/
  | revise_item (item_id : String) (item : ContentItem) (body : ContentBody) (new_state : ContentState)
  | schedule_item (item_id : String) (item : ContentItem) (slot_id : Option String) (job : NewJob)
  | insert_job (job : NewJob)
  | insert_journey (journey : Journey)
  | set_job (job_id : String) (mark : JobMark)
  /-- A claim, and in the same transaction the item moved, by its version only. -/
  | claim_job (job_id : String) (mark : JobMark) (moved : Option (ContentItem × ContentState))
  | move_item (item : ContentItem) (target : ContentState)
  | finish_item (current : ContentItem)
  | ensure_attempt (attempt : PublicationAttempt)
  | set_attempt (attempt_id : String) (state : PublicationState) (fields : AttemptFields)
  | get_attempt (attempt_id : String)
  | append_receipt (attempt_id kind : String)
  | append_event (item_id event : String)
  | publication_mode
  | resolve_provider (channel : String)
  | rights_status (artifact_id : String) (moment : Datetime)
  | validate (provider : Provider) (request : PublicationRequest)
  | publish (provider : Provider) (request : PublicationRequest)
  | verify (provider : String) (idempotency_key : String)

abbrev OpsCall.Resp : OpsCall → Type
  | artifact c => Except ProjectError c.Resp
  | trust c => Except TrustError c.Resp
  | uuid => Hex
  | require_project_workspace _ => Bool
  | get_content_atom _ => Option ContentAtom
  | get_content_item _ => Option ContentItem
  | item_body _ => ContentBody
  | get_slot _ => Option ScheduleSlot
  | get_job _ => Option ScheduledJob
  | due_jobs .. => List ScheduledJob
  | insert_item _ => Unit
  | transition_item .. => Unit
  | revise_item .. => Unit
  | schedule_item .. => ScheduledJob
  | insert_job _ => ScheduledJob
  | insert_journey _ => List ScheduledJob
  | set_job .. => Bool
  | claim_job .. => Bool
  | move_item .. => Unit
  | finish_item _ => Unit
  | ensure_attempt _ => PublicationAttempt
  | set_attempt .. => Unit
  | get_attempt _ => Option PublicationAttempt
  | append_receipt .. => Unit
  | append_event .. => Unit
  | publication_mode => ProviderMode
  | resolve_provider _ => Except String Provider
  | rights_status .. => Rights
  | validate .. => List String
  | publish .. => Published
  | verify .. => Option ProviderResult

abbrev OpsCalls : Interface := ⟨OpsCall, OpsCall.Resp, ContentError⟩

/-- What the outside decides about a call: what the calls of the parts leave to it, whether it raises, new
    identifiers, and what is answered by the tables that are not modelled, the mode and the provider. -/
structure OpsOutcome where
  artifact : ArtifactOutcome
  trust : Reliability.Outcome
  fault : Bool
  fresh : ℕ → Hex
  atom : Option ContentAtom
  workspace : Bool
  rights : Rights
  mode : ProviderMode
  provider : Except String Provider
  problems : List String
  published : Published
  observed : Option ProviderResult

/-! ## The transactions on an item -/

namespace OpsState

/-- The item has the version it was read with. -/
def HasVersion (s : OpsState) (item_id : String) (item : ContentItem) : Prop :=
  ∃ r ∈ s.items.find? item_id, r.item.version = item.version

/-- The item has the state and the version it was read with. -/
def Unmoved (s : OpsState) (item_id : String) (item : ContentItem) : Prop :=
  ∃ r ∈ s.items.find? item_id, r.item.state = item.state ∧ r.item.version = item.version

instance (s : OpsState) (item_id : String) (item : ContentItem) : Decidable (s.HasVersion item_id item) :=
  inferInstanceAs (Decidable (∃ _ ∈ (_ : Option ItemRow), _))

instance (s : OpsState) (item_id : String) (item : ContentItem) : Decidable (s.Unmoved item_id item) :=
  inferInstanceAs (Decidable (∃ _ ∈ (_ : Option ItemRow), _))

def insert_item (s : OpsState) (row : ItemRow) : Except ContentError OpsState :=
  if h : s.items.find? row.content_item_id = none then
    .ok { s with items := s.items.insert row h }
  else
    .error (.project .integrity)

open ContentState in
/-- A move from `state` to `target` takes the item's jobs off the schedule. -/
def Unschedules (state target : ContentState) : Prop :=
  target ∈ [IN_PRODUCTION, ARCHIVED, READY] ∧ state ∈ [SCHEDULED, DUE, READY, APPROVED]

instance (state target : ContentState) : Decidable (Unschedules state target) :=
  inferInstanceAs (Decidable (_ ∧ _))

def transition_item (s : OpsState) (item_id : String) (item : ContentItem) (target : ContentState)
    (approved_version : Option ℕ) (approval_ref : Option String) : Except ContentError OpsState :=
  if s.Unmoved item_id item then
    let s' := s.updateItem item_id (·.transitioned target approved_version approval_ref) fun _ => rfl
    if Unschedules item.state target then
      .ok (s'._cancel_item_jobs item_id "ITEM_LEFT_SCHEDULE")
    else
      .ok s'
  else
    .error (.project (.conflict "content item changed concurrently"))

def revise_item (s : OpsState) (item_id : String) (item : ContentItem) (body : ContentBody)
    (new_state : ContentState) : Except ContentError OpsState :=
  if s.HasVersion item_id item then
    let s' := s.updateItem item_id (·.revised (item.version + 1) body new_state) fun _ => rfl
    .ok (s'._cancel_item_jobs item_id "CONTENT_REVISED")
  else
    .error (.project (.stale "content item changed concurrently"))

/-- A slot that is open is filled. -/
def fillSlot (s : OpsState) (item_id : String) : Option String → OpsState
  | none => s
  | some slot_id =>
    { s with
      slots := s.slots.update slot_id
        (fun slot => if slot.state = .open_ then { slot with state := .filled, content_item_id := some item_id } else slot)
        fun slot => by split <;> rfl }

def jobId (h : Hex) : String := "job-" ++ h.text

def schedule_item (s : OpsState) (fresh : Hex) (item_id : String) (item : ContentItem) (slot_id : Option String)
    (job : NewJob) : Except ContentError (ScheduledJob × OpsState) :=
  if s.Unmoved item_id item then
    let s' := s.updateItem item_id (·.moved .SCHEDULED) fun _ => rfl
    (s'.fillSlot item_id slot_id)._insert_job (jobId fresh) job
  else
    .error (.project (.conflict "content item changed concurrently"))

/-- The transaction at the end of a publication. -/
def finish_item (s : OpsState) (current : ContentItem) : OpsState :=
  if current.state = .PUBLISHING then
    let s' := s._move_item current .PUBLISHED
    -- the item is read again on a connection of its own, which does not see the move
    match s.get_content_item current.content_item_id with
    | some again => if again.state = .PUBLISHED then s'._move_item again .VERIFIED else s'
    | none => s'
  else if current.state = .PUBLISHED then
    s._move_item current .VERIFIED
  else
    s

/-! ## The transactions on jobs and attempts -/

/-- The jobs a tick takes up. -/
def due_jobs (s : OpsState) (now : String) (project_id : Option String) (limit : Int) : List ScheduledJob :=
  let due := s.jobs.table.rows.filter fun j =>
    j.Live ∧ j.due_at ≤ now ∧ ∀ p ∈ Projects.given project_id, j.project_id = p
  (due.insertionSort fun a b => a.due_at < b.due_at ∨ a.due_at = b.due_at ∧ a.job_id ≤ b.job_id).take
    (max 1 (min limit 500)).toNat

def claim_job (s : OpsState) (job_id : String) (mark : JobMark) (moved : Option (ContentItem × ContentState)) :
    Bool × OpsState :=
  match s._set_job job_id mark, moved with
  | (true, s'), some (item, target) => (true, s'._move_item item target)
  | (claimed, s'), _ => (claimed, s')

def attemptId (h : Hex) : String := "pub-" ++ h.text

/-- The attempt under the provider's key, which is this one only if there was none. -/
def ensure_attempt (s : OpsState) (fresh : Hex) (attempt : PublicationAttempt) :
    Except ContentError (PublicationAttempt × OpsState) :=
  match s.attempts.rows.find? (·.claim = attempt.claim) with
  | some existing => .ok (existing, s)
  | none =>
    let attempt := { attempt with attempt_id := attemptId fresh }
    if h : s.attempts.find? attempt.attempt_id = none then
      .ok (attempt, { s with attempts := s.attempts.insert attempt h })
    else
      .error (.project .integrity)

def _set_attempt (s : OpsState) (attempt_id : String) (state : PublicationState) (fields : AttemptFields) : OpsState :=
  { s with
    attempts := s.attempts.update attempt_id
      (fun a =>
        { a with
          state
          external_ref := fields.external_ref.or a.external_ref
          readback := fields.readback.getD a.readback
          error := fields.error.or a.error })
      fun _ => rfl }

variable [IsoTime]

/-- The job of a step of a journey. -/
def journeyJob (journey : Journey) (index : ℕ) (step : JourneyStep) (item : ContentItem) : NewJob :=
  let due := IsoTime.isoformat { journey.start with moment := journey.start.moment + step.delay }
  { tenant_id := journey.tenant_id
    project_id := journey.project_id
    job_kind := .LIFECYCLE
    due_at := due
    idempotency_key := s!"journey:{journey.journey}:{index}:{step.content_item_id}:{due}"
    content_item_id := some step.content_item_id
    slot_id := none
    payload :=
      { journey := some journey.journey
        step := some index
        trigger := some ((Projects.given step.trigger).getD "time")
        channel := some ((Projects.given step.channel).getD item.channel) } }

/-- The steps of a journey, from the one numbered `index` on. -/
def insertSteps (fresh : ℕ → Hex) (journey : Journey) :
    ℕ → List JourneyStep → OpsState → Except ContentError (List ScheduledJob × OpsState)
  | _, [], s => .ok ([], s)
  | index, step :: steps, s =>
    match (s.get_content_item step.content_item_id).filter (·.project_id = journey.project_id) with
    | none => .error (.project (.not_found s!"journey step {index} references an unknown content item"))
    | some item => do
      let (job, s) ← s._insert_job (jobId (fresh index)) (journeyJob journey index step item)
      let (jobs, s) ← insertSteps fresh journey (index + 1) steps s
      pure (job :: jobs, s)

end OpsState

/-! ## What a call does -/

section

variable [Sha256] [IsoTime]

def OpsCall.run (o : OpsOutcome) (s : OpsState) : (c : OpsCall) → Except ContentError (c.Resp × OpsState)
  | .artifact c =>
    .ok (Projects.artifactExec.answer c o.artifact s.office,
      { s with office := Projects.artifactExec.after c o.artifact s.office })
  | .trust c =>
    .ok (Reliability.exec.answer c o.trust s.trust, { s with trust := Reliability.exec.after c o.trust s.trust })
  | .uuid => .ok (o.fresh 0, s)
  | .require_project_workspace _ => .ok (o.workspace, s)
  | .get_content_atom _ => .ok (o.atom, s)
  | .get_content_item item_id => .ok (s.get_content_item item_id, s)
  | .item_body item_id => .ok (s.item_body item_id, s)
  | .get_slot slot_id => .ok (s.slots.find? slot_id, s)
  | .get_job job_id => .ok (s.jobs.table.find? job_id, s)
  | .due_jobs now project_id limit => .ok (s.due_jobs now project_id limit, s)
  | .insert_item row => (s.insert_item row).map fun s' => ((), s')
  | .transition_item item_id item target approved_version approval_ref =>
    (s.transition_item item_id item target approved_version approval_ref).map fun s' => ((), s')
  | .revise_item item_id item body new_state => (s.revise_item item_id item body new_state).map fun s' => ((), s')
  | .schedule_item item_id item slot_id job => s.schedule_item (o.fresh 0) item_id item slot_id job
  | .insert_job job => s._insert_job (OpsState.jobId (o.fresh 0)) job
  | .insert_journey journey => OpsState.insertSteps o.fresh journey 0 journey.steps s
  | .set_job job_id mark => .ok (s._set_job job_id mark)
  | .claim_job job_id mark moved => .ok (s.claim_job job_id mark moved)
  | .move_item item target => .ok ((), s._move_item item target)
  | .finish_item current => .ok ((), s.finish_item current)
  | .ensure_attempt attempt => s.ensure_attempt (o.fresh 0) attempt
  | .set_attempt attempt_id state fields => .ok ((), s._set_attempt attempt_id state fields)
  | .get_attempt attempt_id => .ok (s.attempts.find? attempt_id, s)
  | .append_receipt .. => .ok ((), s)
  | .append_event .. => .ok ((), s)
  | .publication_mode => .ok (o.mode, s)
  | .resolve_provider _ => .ok (o.provider, s)
  | .rights_status .. => .ok (o.rights, s)
  | .validate .. => .ok (o.problems, s)
  | .publish .. => .ok (o.published, s)
  | .verify .. => .ok (o.observed, s)

/-- The calls of the parts bring their own faults, and what a provider raises is how it ends. -/
def opsExec : Exec OpsCalls OpsState OpsOutcome := fun c o s =>
  match c with
  | .artifact c => OpsCall.run o s (.artifact c)
  | .trust c => OpsCall.run o s (.trust c)
  | .publish provider request => OpsCall.run o s (.publish provider request)
  | c => if o.fault then .error (.project .fault) else c.run o s

end

abbrev Ops (α : Type) : Type := Program OpsCalls α

abbrev perform (c : OpsCall) : Ops c.Resp := Program.perform (I := OpsCalls) c

/-! ## The parts -/

/-- The calls on artifacts. -/
def artifactCalls : Embedding ArtifactCalls OpsCalls := ⟨OpsCall.artifact, fun _ answer => answer⟩

abbrev withArtifacts {α : Type} (p : Projects.ArtifactProgram α) : Ops α := p.inside artifactCalls .project

/-- The calls of the trust kernel. -/
def trustCalls : Embedding TrustCalls OpsCalls := ⟨OpsCall.trust, fun _ answer => answer⟩

abbrev withTrust {α : Type} (p : Reliability.Trust α) : Ops α := p.inside trustCalls .trust

variable [Sha256] [IsoTime]

theorem artifactCalls_carries : artifactCalls.Carries Projects.artifactExec opsExec OpsState.office
    (fun office s => { s with office }) OpsOutcome.artifact where
  call _ _ _ := ⟨_, rfl, rfl⟩
  view_put _ _ := rfl
  put_view _ := rfl
  put_put _ _ _ := rfl

theorem trustCalls_carries : trustCalls.Carries Reliability.exec opsExec OpsState.trust
    (fun trust s => { s with trust }) OpsOutcome.trust where
  call _ _ _ := ⟨_, rfl, rfl⟩
  view_put _ _ := rfl
  put_view _ := rfl
  put_put _ _ _ := rfl

end Content
