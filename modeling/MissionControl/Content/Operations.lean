import MissionControl.Content.Calls

/-! # The operations on content

An operation reads what it needs, one transaction at a time, decides, and writes in a transaction of its own, which
asks again for what the operation read: for the item's state and version, or for its version only. -/

namespace Content

open Canonical (Value)
open Interleaving
open Projects (Dict given)
open Relational (Table)

/-- `json.dumps(value, indent=2, sort_keys=True)`, and `canonical_json`. -/
class Json where
  dumps : Value → String
  canonical_json : Value → List UInt8

def _scoped_item (item_id project_id : String) : Ops ContentItem := do
  match ← perform (.get_content_item item_id) with
  | none => throw (.project (.not_found "content item not found in project"))
  | some item =>
    if item.project_id ≠ project_id then
      throw (.project (.not_found "content item not found in project"))
    else
      pure item

/-- `ContentTransitionError`, or nothing. -/
def assertTransition (item : ContentItem) (target : ContentState) (body : ContentBody) : Ops Unit :=
  match assert_content_transition item.state target item.version item.approved_version body.release_blockers with
  | .error text => throw (.transition text)
  | .ok () => pure ()

/-! ## Creating an item -/

/-- The arguments of `create_content_item_from_atom`. -/
structure NewContent where
  project_id : String
  actor : String
  atom_id : String
  kind : ContentKind
  channel : String
  campaign_id : Option String := none
  evidence_fresh_until : Option String := none

/-- `campaign_id or atom.campaign_id` -/
def NewContent.campaign (r : NewContent) (atom : ContentAtom) : Option String :=
  (given r.campaign_id).or atom.campaign_id

/-- `sorted({…})` -/
def evidenceRefs (atom : ContentAtom) (variant : ContentVariantSpec) : List String :=
  ((atom.claims.filter (·.claim_id ∈ variant.claim_refs)).flatMap Claim.evidence_refs).dedup.insertionSort (· ≤ ·)

/-- The *v2* keys of a new item's artifact. -/
def NewContent.v2 (r : NewContent) (atom : ContentAtom) (variant : ContentVariantSpec) : Dict :=
  [("channel", .str r.channel), ("campaign_id", (r.campaign atom).elim .none .str),
    ("evidence_refs", texts (evidenceRefs atom variant)), ("source_refs", texts atom.source_refs),
    ("mime_type", .str "application/json")].foldl Table.put Table.empty

/-- The row of a new item. -/
def NewContent.row (r : NewContent) (atom : ContentAtom) (variant : ContentVariantSpec) (item_id artifact_id : String) :
    ItemRow where
  item :=
    { content_item_id := item_id
      tenant_id := atom.tenant_id
      project_id := r.project_id
      campaign_id := r.campaign atom
      atom_id := some atom.atom_id
      artifact_id := some artifact_id
      kind := variant.kind
      channel := r.channel
      title := variant.title
      state := .PLANNED
      version := 1
      claim_refs := variant.claim_refs
      rights_ref := none
      approved_version := none
      approval_ref := none
      evidence_fresh_until := r.evidence_fresh_until
      created_by := r.actor }
  body := { variant := variant.model_dump, release_blockers := variant.release_blockers }

section

variable [Json] (fuel : ℕ)

def create_content_item_from_atom (r : NewContent) : Ops (Option ContentItem) := do
  match (← perform (.get_content_atom r.atom_id)).filter (·.project_id = r.project_id) with
  | none => throw (.project (.not_found "content atom not found in project"))
  | some atom => do
    let variant := derive_variant atom r.kind r.channel
    let item_id := itemId (← perform .uuid)
    let artifact ← withArtifacts (Projects.create_project_artifact fuel
      { tenant_id := atom.tenant_id
        project_id := r.project_id
        actor := r.actor
        artifact_key := s!"content-{item_id}"
        artifact_type := (CONTENT_KIND_ARTIFACT variant.kind).1
        content_text := some (Json.dumps variant.model_dump)
        v2 := r.v2 atom variant })
    perform (.insert_item (r.row atom variant item_id artifact.artifact.artifact_id))
    perform (.get_content_item item_id)

end

/-! ## Moving an item -/

/-- The arguments of `transition_content_item`. -/
structure TransitionRequest where
  project_id : String
  item_id : String
  target : ContentState
  actor : String
  expected_version : Option Int := none

/-- The approval a move leaves: one bound to the version as the item is approved, none as it goes back. -/
def TransitionRequest.approval (r : TransitionRequest) (item : ContentItem) : Option ℕ × Option String :=
  if r.target = .APPROVED then
    (some item.version, some s!"content-approval:{r.item_id}:v{item.version}:{r.actor}")
  else if r.target = .IN_PRODUCTION ∧ (item.state = .REVIEW ∨ item.state = .APPROVED ∨ item.state = .READY) then
    (none, none)
  else
    (item.approved_version, item.approval_ref)

def transition_content_item (r : TransitionRequest) : Ops (Option ContentItem) := do
  let item ← _scoped_item r.item_id r.project_id
  match r.expected_version.filter (· ≠ (item.version : Int)) with
  | some expected_version =>
    throw (.project (.stale s!"content item is at v{item.version}, request was for v{expected_version}"))
  | none => do
    let body ← perform (.item_body r.item_id)
    assertTransition item r.target body
    perform (.transition_item r.item_id item r.target (r.approval item).1 (r.approval item).2)
    perform (.get_content_item r.item_id)

/-! ## Editing an item -/

/-- The arguments of `revise_content_item`. -/
structure ReviseRequest where
  project_id : String
  item_id : String
  actor : String
  expected_version : Int
  body_patch : Dict

/-- `{**dict(body.get("draft") or {}), **dict(body_patch)}` -/
def ContentBody.patched (body : ContentBody) (body_patch : Dict) : ContentBody :=
  { body with draft := some (body_patch.rows.foldl Table.put (body.draft.getD Table.empty)) }

/-- The body as JSON. -/
def ContentBody.value (body : ContentBody) : Value :=
  .dict ([("variant", body.variant), ("release_blockers", texts body.release_blockers)] ++
    (body.draft.map fun draft => ("draft", Value.dict draft.rows)).toList)

open ContentState in
/-- The states in which an item is not edited in place. -/
def SETTLED_STATES : List ContentState := [PUBLISHING, PUBLISHED, ARCHIVED]

/-- The state an edit leaves an item in. -/
def revisedState (state : ContentState) : ContentState :=
  if state ∈ CONTENT_REVIEW_STATES then .IN_PRODUCTION else state

section

variable [Json] (hash_payload : List (String × Agency.ArtifactStatus) → String) (fuel : ℕ)

/-- The edit of the item's artifact. -/
def reviseArtifact (r : ReviseRequest) (item : ContentItem) (body : ContentBody) : Ops Unit :=
  match given item.artifact_id with
  | none => pure ()
  | some artifact_id => do
    match ← withArtifacts (Projects.perform (.get_artifact artifact_id)) with
    | none => throw (.project .type_error)
    | some record => do
      let _ ← withArtifacts (Projects.revise_project_artifact hash_payload fuel
        { project_id := r.project_id
          artifact_id
          actor := r.actor
          expected_version := record.artifact.version
          content_text := some (Json.dumps body.value) })
      pure ()

def revise_content_item (r : ReviseRequest) : Ops (Option ContentItem) := do
  let item ← _scoped_item r.item_id r.project_id
  if r.expected_version ≠ item.version then
    throw (.project (.stale s!"content item is at v{item.version}, edit was based on v{r.expected_version}"))
  else if item.state ∈ SETTLED_STATES then
    throw (.transition s!"content in {item.state.value} cannot be edited in place")
  else do
    let before ← perform (.item_body r.item_id)
    let body := before.patched r.body_patch
    reviseArtifact hash_payload fuel r item body
    perform (.revise_item r.item_id item body (revisedState item.state))
    perform (.get_content_item r.item_id)

end

/-! ## Scheduling -/

/-- The arguments of `schedule_content_item`. -/
structure ScheduleRequest where
  project_id : String
  item_id : String
  actor : String
  scheduled_for : Option String := none
  slot_id : Option String := none

/-- The time of a slot that is open. -/
def slotTime (project_id slot_id : String) : Ops String := do
  match (← perform (.get_slot slot_id)).filter (·.project_id = project_id) with
  | none => throw (.project (.not_found "slot not found in project"))
  | some slot =>
    if slot.state ≠ .open_ then
      throw (.project (.conflict "slot is not open"))
    else
      pure slot.scheduled_for

/-- The time that is asked for. -/
def ScheduleRequest.time (r : ScheduleRequest) : Ops (Option String) :=
  match given r.slot_id with
  | some slot_id => do
    let scheduled_for ← slotTime r.project_id slot_id
    pure (some scheduled_for)
  | none => pure r.scheduled_for

def publishKey (item_id : String) (version : ℕ) (due_at : String) : String :=
  "publish:" ++ item_id ++ ":v" ++ Nat.repr version ++ ":" ++ due_at

/-- The job that publishes an item. -/
def publishJob (r : ScheduleRequest) (item : ContentItem) (due_at : String) : NewJob where
  tenant_id := item.tenant_id
  project_id := r.project_id
  job_kind := .PUBLISH
  due_at
  idempotency_key := publishKey r.item_id item.version due_at
  content_item_id := some r.item_id
  slot_id := r.slot_id
  payload := { version := some item.version, channel := some item.channel }

variable [IsoTime]

/-- `parse_ts(text).isoformat()` -/
def isoText (text : String) : Ops String :=
  match IsoTime.parse_ts text with
  | .error text => throw (.project (.value text))
  | .ok moment => pure (IsoTime.isoformat moment)

def schedule_content_item (r : ScheduleRequest) : Ops ScheduledJob := do
  let item ← _scoped_item r.item_id r.project_id
  match given (← r.time) with
  | none => throw (.project (.value "scheduled_for or slot_id is required"))
  | some scheduled_for => do
    let body ← perform (.item_body r.item_id)
    assertTransition item .SCHEDULED body
    let due_at ← isoText scheduled_for
    perform (.schedule_item r.item_id item (given r.slot_id) (publishJob r item due_at))

/-- The job that refreshes an item: one for each version. -/
def refreshJob (project_id item_id : String) (item : ContentItem) (due_at : String) : NewJob where
  tenant_id := item.tenant_id
  project_id
  job_kind := .REFRESH
  due_at
  idempotency_key := s!"refresh:{item_id}:v{item.version}"
  content_item_id := some item_id
  slot_id := none
  payload := { version := some item.version }

def schedule_refresh (project_id item_id due_at : String) : Ops ScheduledJob := do
  let item ← _scoped_item item_id project_id
  let due_at ← isoText due_at
  perform (.insert_job (refreshJob project_id item_id item due_at))

def schedule_journey (journey : Journey) : Ops (List ScheduledJob) := do
  if (← perform (.require_project_workspace journey.project_id)) = false then
    throw (.project (.not_found journey.project_id))
  else
    perform (.insert_journey journey)

end Content
