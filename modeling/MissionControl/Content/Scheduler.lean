import MissionControl.Content.Operations

/-! # The scheduler and the publication of an item

A tick takes up the jobs that are due. A job that passes its gate is claimed, its message is written to the outbox, and
the outbox is dispatched: three writes of their own, and the handler of the message takes the item through the
provider's contract with one more transaction for each step. -/

namespace Content

open Canonical (Value Sha256)
open Interleaving
open Projects (given)
open Relational (Table)
open Reliability (DeliveryStatus OutboxDeliveryResult OutboxMessage)

def PUBLICATION_TOPIC : String := "project.publication"

variable [Sha256] [Json]

def PublicationRequest.request_hash (r : PublicationRequest) : String :=
  Sha256.hexdigest (Json.canonical_json (.dict [("content_item_id", .str r.content_item_id), ("version", .int r.version),
    ("channel", .str r.channel), ("body", r.body)]))

/-! ## Publishing -/

/-- `_attempt` of the row, which has to be there. -/
def _reload_attempt (attempt_id : String) : Ops PublicationAttempt := do
  match ← perform (.get_attempt attempt_id) with
  | none => throw (.project .type_error)
  | some attempt => pure attempt

/-- What is done only where the publication is a live one. -/
def whenLive (live : Bool) (p : Ops Unit) : Ops Unit := if live then p else pure ()

/-- The item goes back on the schedule. -/
def putBack (item : ContentItem) : Ops Unit := do
  match ← perform (.get_content_item item.content_item_id) with
  | none => pure ()
  | some current =>
    if current.state = .DUE ∨ current.state = .PUBLISHING then
      perform (.move_item current .SCHEDULED)
    else
      pure ()

def _after_failure (item : ContentItem) (live : Bool) : Ops Unit := do
  whenLive live (putBack item)
  perform (.append_event item.content_item_id "FAILED")

/-- The item's last moves, once its publication has been read back. -/
def finishItem (item : ContentItem) : Ops Unit := do
  match ← perform (.get_content_item item.content_item_id) with
  | none => pure ()
  | some current => perform (.finish_item current)

/-- The end of a publication that was read back. A dry run leaves the item alone. -/
def conclude (item : ContentItem) (live : Bool) : Ops Unit :=
  if live then do
    finishItem item
    perform (.append_event item.content_item_id "PUBLISHED")
    perform (.append_event item.content_item_id "VERIFIED")
  else
    perform (.append_event item.content_item_id "MESSAGE")

def _reconcile (attempt : PublicationAttempt) (provider : Provider) (item : ContentItem) (live : Bool) :
    Ops String := do
  match ← perform (.verify provider.name attempt.idempotency_key) with
  | none => do
    perform (.set_attempt attempt.attempt_id .FAILED { error := some "READBACK_NOT_FOUND" })
    _after_failure item live
    throw (.runtime "PUBLICATION_NOT_FOUND_ON_READBACK")
  | some observed => do
    perform (.append_receipt attempt.attempt_id "observation")
    if observed.observed.text "request_hash" ≠ some attempt.request_hash then do
      perform (.set_attempt attempt.attempt_id .FAILED
        { error := some "READBACK_MISMATCH", readback := some observed.observed })
      _after_failure item live
      throw (.runtime "PUBLICATION_READBACK_MISMATCH")
    else do
      perform (.set_attempt attempt.attempt_id .RECONCILED
        { external_ref := some observed.external_ref, readback := some observed.observed })
      perform (.set_attempt attempt.attempt_id .VERIFIED {})
      conclude item live
      pure attempt.attempt_id

/-- The version of the item's artifact goes into the permit. -/
def permitDependencies (item : ContentItem) : Ops Unit :=
  match given item.artifact_id with
  | none => pure ()
  | some artifact_id => do
    match ← withArtifacts (Projects.perform (.get_artifact artifact_id)) with
    | none => throw (.project .type_error)
    | some _ => pure ()

/-- The provider is called, and what came of it is read back. -/
def executeAttempt (attempt_id : String) (provider : Provider) (request : PublicationRequest) (item : ContentItem)
    (live : Bool) : Ops String := do
  whenLive live (perform (.move_item item .PUBLISHING))
  perform (.set_attempt attempt_id .EXECUTING {})
  match ← perform (.publish provider request) with
  | .uncertain name => do
    perform (.set_attempt attempt_id .UNCERTAIN { error := some s!"UNCERTAIN:{name}" })
    perform (.append_event item.content_item_id "RECOVERING")
    let attempt ← _reload_attempt attempt_id
    _reconcile attempt provider item live
  | .failed name => do
    perform (.set_attempt attempt_id .FAILED { error := some name })
    _after_failure item live
    throw (.provider name)
  | .published result => do
    perform (.append_receipt attempt_id "execution")
    perform (.set_attempt attempt_id .READBACK { external_ref := some result.external_ref })
    whenLive live (perform (.move_item item .PUBLISHED))
    let attempt ← _reload_attempt attempt_id
    _reconcile attempt provider item live

/-- An attempt from its start to the provider's call. -/
def startAttempt (attempt_id : String) (provider : Provider) (request : PublicationRequest) (item : ContentItem)
    (live : Bool) : Ops String := do
  match ← perform (.validate provider request) with
  | problem :: problems => do
    perform (.set_attempt attempt_id .FAILED { error := some (",".intercalate (problem :: problems)) })
    throw (.runtime "PUBLICATION_VALIDATION_FAILED")
  | [] => do
    perform (.set_attempt attempt_id .VALIDATED {})
    permitDependencies item
    perform (.append_receipt attempt_id "dispatch_permit")
    perform (.set_attempt attempt_id .AUTHORIZED {})
    if item.approved_version ≠ some item.version ∨ given item.approval_ref = none then do
      perform (.set_attempt attempt_id .BLOCKED { error := some "APPROVAL_NOT_BOUND_TO_CURRENT_VERSION" })
      throw (.runtime "PUBLICATION_APPROVAL_STALE")
    else do
      perform (.set_attempt attempt_id .APPROVED {})
      executeAttempt attempt_id provider request item live

/-- `job.payload.get("channel") or item.channel` -/
def channelOf (job : ScheduledJob) (item : Option ContentItem) : Ops String :=
  match given job.payload.channel, item with
  | some channel, _ => pure channel
  | none, some item => pure item.channel
  | none, none => throw .attribute_error

/-- The request of a job. -/
def publicationRequest (job : ScheduledJob) (item : ContentItem) (channel : String) (body : ContentBody) :
    PublicationRequest where
  tenant_id := item.tenant_id
  project_id := item.project_id
  content_item_id := item.content_item_id
  version := item.version
  channel
  body := .dict [("variant", body.variant), ("draft", body.draft.elim .none fun draft => .dict draft.rows)]
  idempotency_key := job.idempotency_key

/-- The row of a new attempt. -/
def newAttempt (job : ScheduledJob) (provider : Provider) (request : PublicationRequest) : PublicationAttempt where
  attempt_id := ""
  tenant_id := request.tenant_id
  project_id := request.project_id
  job_id := some job.job_id
  content_item_id := request.content_item_id
  provider := provider.name
  mode := provider.mode
  state := .SPEC
  request_hash := request.request_hash
  idempotency_key := job.idempotency_key
  external_ref := none
  readback := Table.empty
  error := none

/-- A publication of the job that changes the item's state. -/
def Provider.publishesLive (provider : Provider) (job : ScheduledJob) : Bool :=
  provider.mode = .LIVE ∧ job.job_kind ≠ .LIFECYCLE

/-- The attempt of a job, from where it stands. -/
def runAttempt (job : ScheduledJob) (provider : Provider) (channel : String) (item : ContentItem) : Ops String := do
  let body ← perform (.item_body item.content_item_id)
  let request := publicationRequest job item channel body
  let attempt ← perform (.ensure_attempt (newAttempt job provider request))
  if attempt.state = .VERIFIED then
    pure attempt.attempt_id
  else if attempt.state = .UNCERTAIN then
    _reconcile attempt provider item (provider.publishesLive job)
  else
    startAttempt attempt.attempt_id provider request item (provider.publishesLive job)

def execute_publication (job_id : String) : Ops String := do
  match ← perform (.get_job job_id) with
  | none => throw (.project .type_error)
  | some job => do
    let item ← perform (.get_content_item (job.content_item_id.getD ""))
    let channel ← channelOf job item
    match ← perform (.resolve_provider channel) with
    | .error text => throw (.publication_blocked text)
    | .ok provider =>
      match item with
      | none => throw .attribute_error
      | some item => runAttempt job provider channel item

/-! ## Dispatching -/

/-- The dispatcher a tick makes: the authority and the handler are its own. -/
def dispatch_one (authorize_delivery : OutboxMessage → Bool) (handler : Ops String) (message_id worker_id : String) :
    Ops OutboxDeliveryResult := do
  let state ← withTrust (Reliability.ask .state)
  match state.outbox.find? message_id with
  | none => throw (.trust (.reliability "UNKNOWN_OUTBOX_MESSAGE"))
  | some message =>
    if message.status = .DELIVERED then
      pure ⟨message_id, .ALREADY_DELIVERED, none, none⟩
    else if authorize_delivery message = false then
      pure ⟨message_id, .BLOCKED_AUTHORITY, none, none⟩
    else if message.topic ≠ PUBLICATION_TOPIC then
      pure ⟨message_id, .BLOCKED_NO_HANDLER, none, none⟩
    else do
      let _ ← withTrust (Reliability.claim_outbox message_id worker_id)
      match ← handler.attempt with
      | .error exc => do
        let _ ← withTrust (Reliability.mark_outbox_failed message_id exc.name)
        pure ⟨message_id, .FAILED, none, some exc.name⟩
      | .ok result_ref => do
        let _ ← withTrust (Reliability.mark_outbox_delivered message_id)
        pure ⟨message_id, .DELIVERED, some result_ref, none⟩

def deliveryText : DeliveryStatus → String
  | .ALREADY_DELIVERED => "ALREADY_DELIVERED"
  | .BLOCKED_AUTHORITY => "BLOCKED_AUTHORITY"
  | .BLOCKED_NO_HANDLER => "BLOCKED_NO_HANDLER"
  | .FAILED => "FAILED"
  | .DELIVERED => "DELIVERED"
  | .BLOCKED => "BLOCKED"

/-! ## The tick -/

variable [IsoTime]

/-- What stands in an item's way from its artifact. -/
structure ArtifactGate where
  dependency_statuses : List (String × Agency.ArtifactStatus) := []
  rights : Option Rights := none
  media_rights : Bool := false

/-- A value that is not empty. -/
def truthy : Option Value → Bool
  | none | some .none | some (.bool false) | some (.int 0) | some (.str "") | some (.bytes []) | some (.list [])
  | some (.dict []) => false
  | some (.float f) => f.coefficient ≠ 0
  | some _ => true

def artifactGate (item : ContentItem) (now : Datetime) : Ops ArtifactGate :=
  match given item.artifact_id with
  | none => pure {}
  | some artifact_id => do
    match ← withArtifacts (Projects.perform (.get_artifact artifact_id)) with
    | none => pure {}
    | some record => do
      let status := record.artifact.status
      let dependency_statuses :=
        if status = .invalidated ∨ status = .review_required ∨ status = .archived then
          [(record.artifact.artifact_id, status)]
        else
          []
      let media_rights := record.metadata.v2.text "media_type" ∈ [some "image", some "video", some "audio"]
      if media_rights ∨ truthy (record.metadata.v2.get "rights_ref") = true ∨ (given item.rights_ref).isSome then do
        let rights ← perform (.rights_status artifact_id now)
        pure { dependency_statuses, rights := some rights, media_rights }
      else
        pure { dependency_statuses, media_rights }

def _gate_for (item : ContentItem) (now : Datetime) : Ops (List String) := do
  let body ← perform (.item_body item.content_item_id)
  let gate ← artifactGate item now
  match due_gate
      { version := item.version
        approved_version := item.approved_version
        approval_ref := item.approval_ref
        release_blockers := body.release_blockers
        evidence_fresh_until := item.evidence_fresh_until
        dependency_statuses := gate.dependency_statuses
        rights_required := gate.media_rights || requires_rights item.kind && gate.rights.isSome
        rights := gate.rights } now with
  | .error text => throw (.project (.value text))
  | .ok reasons => pure reasons

/-- What became of a job in a tick. -/
inductive TickStatus where
  | CANCELLED
  | BLOCKED (reasons : List String)
  | ALREADY_CLAIMED
  | DELIVERED
  | dispatched (delivery : OutboxDeliveryResult)

/-- The statuses a job is taken up from. -/
def TAKEN_UP : List ScheduledJobStatus := [.PENDING, .BLOCKED]

def cancelMark (reason : String) : JobMark := { status := .CANCELLED, from_statuses := TAKEN_UP, reasons := [reason] }

def blockMark (reasons : List String) : JobMark := { status := .BLOCKED, from_statuses := TAKEN_UP, reasons }

def refreshMark : JobMark := { status := .DELIVERED, from_statuses := TAKEN_UP, bump_attempt := true }

def enqueueMark (message_id : String) : JobMark :=
  { status := .ENQUEUED, from_statuses := TAKEN_UP, outbox_message_id := some message_id, bump_attempt := true }

/-- What the delivery makes of an enqueued job. -/
def deliveryMark (delivery : OutboxDeliveryResult) : JobMark :=
  if delivery.status = .DELIVERED ∨ delivery.status = .ALREADY_DELIVERED then
    { status := .DELIVERED, from_statuses := [.ENQUEUED] }
  else
    { status := .FAILED, from_statuses := [.ENQUEUED]
      reasons := [(given delivery.error).getD (deliveryText delivery.status)] }

/-- The item a refresh job can refresh. -/
def refreshable (job : ScheduledJob) (item : Option ContentItem) : Option ContentItem :=
  item.filter fun item => job.payload.version = some item.version ∧ (item.state = .VERIFIED ∨ item.state = .MEASURED)

def _run_refresh (job : ScheduledJob) : Ops TickStatus := do
  match refreshable job (← perform (.get_content_item (job.content_item_id.getD ""))) with
  | none => do
    let _ ← perform (.set_job job.job_id (cancelMark "ITEM_NOT_REFRESHABLE"))
    pure .CANCELLED
  | some item => do
    if (← perform (.claim_job job.job_id refreshMark (some (item, .REFRESH_DUE)))) = false then
      pure .ALREADY_CLAIMED
    else
      pure .DELIVERED

/-- The item a job can deliver: as it was scheduled, unless the job is a journey's. -/
def deliverable (job : ScheduledJob) (item : Option ContentItem) : Option ContentItem :=
  item.filter fun item => job.job_kind = .LIFECYCLE ∨
    job.payload.version = some item.version ∧ (item.state = .SCHEDULED ∨ item.state = .DUE)

/-- The reasons a job is not delivered for now. -/
def blockReasons (job : ScheduledJob) (item : ContentItem) (now : Datetime) : Ops (List String) := do
  match ← _gate_for item now with
  | reason :: reasons => pure (reason :: reasons)
  | [] => do
    match ← perform (.resolve_provider ((given job.payload.channel).getD item.channel)) with
    | .error text => pure [s!"PUBLICATION_UNAVAILABLE:{text}"]
    | .ok _ => pure []

def messageId (job_id : String) : String := "outbox-" ++ job_id

/-- The message of a claimed job is written, and delivered. -/
def deliver (job : ScheduledJob) (item : ContentItem) (worker_id : String) : Ops OutboxDeliveryResult := do
  let _ ← withTrust (Reliability.bind_project item.tenant_id item.project_id)
  let channel := (given job.payload.channel).getD item.channel
  let _ ← withTrust (Reliability.enqueue_outbox item.tenant_id item.project_id (messageId job.job_id) PUBLICATION_TOPIC
    (.dict [("job_id", .str job.job_id), ("content_item_id", .str item.content_item_id), ("version", .int item.version),
      ("channel", .str channel)])
    s!"scheduled_job:{job.job_id}" job.idempotency_key)
  dispatch_one
    (fun message => message.topic = PUBLICATION_TOPIC ∧ message.project_id = item.project_id ∧
      message.tenant_id = item.tenant_id)
    (execute_publication job.job_id) (messageId job.job_id) worker_id

/-- A job whose gate is passed. -/
def claimAndDeliver (job : ScheduledJob) (item : ContentItem) (worker_id : String) : Ops TickStatus := do
  let mode ← perform .publication_mode
  let moved := if mode = .LIVE ∧ job.job_kind ≠ .LIFECYCLE ∧ item.state = .SCHEDULED then some (item, .DUE) else none
  if (← perform (.claim_job job.job_id (enqueueMark (messageId job.job_id)) moved)) = false then
    pure .ALREADY_CLAIMED
  else do
    let delivery ← deliver job item worker_id
    let _ ← perform (.set_job job.job_id (deliveryMark delivery))
    pure (.dispatched delivery)

def _run_delivery (job : ScheduledJob) (now : Datetime) (worker_id : String) : Ops TickStatus := do
  match deliverable job (← perform (.get_content_item (job.content_item_id.getD ""))) with
  | none => do
    let _ ← perform (.set_job job.job_id (cancelMark "ITEM_CHANGED_SINCE_SCHEDULING"))
    pure .CANCELLED
  | some item => do
    match ← blockReasons job item now with
    | reason :: reasons => do
      let _ ← perform (.set_job job.job_id (blockMark (reason :: reasons)))
      pure (.BLOCKED (reason :: reasons))
    | [] => claimAndDeliver job item worker_id

def runJob (now : Datetime) (worker_id : String) (job : ScheduledJob) : Ops TickStatus :=
  if job.job_kind = .REFRESH then _run_refresh job else _run_delivery job now worker_id

/-- The jobs of a tick, one after the other. -/
def runJobs (now : Datetime) (worker_id : String) : List ScheduledJob → Ops (List (String × TickStatus))
  | [] => pure []
  | job :: jobs => do
    let status ← runJob now worker_id job
    let results ← runJobs now worker_id jobs
    pure ((job.job_id, status) :: results)

/-- The arguments of `run_scheduler_tick`. -/
structure Tick where
  now : Datetime
  worker_id : String
  project_id : Option String := none
  limit : Int := 50

def run_scheduler_tick (t : Tick) : Ops (List (String × TickStatus)) := do
  let due ← perform (.due_jobs (IsoTime.isoformat t.now) t.project_id t.limit)
  runJobs t.now t.worker_id due

/-! ## The systems -/

/-- The operations on content. -/
inductive Operation where
  | create (r : NewContent)
  | transition (r : TransitionRequest)
  | revise (r : ReviseRequest)
  | schedule (r : ScheduleRequest)
  | refresh (project_id item_id due_at : String)
  | journey (journey : Journey)
  | tick (t : Tick)
  | publish (job_id : String)

variable (hash_payload : List (String × Agency.ArtifactStatus) → String) (fuel : ℕ)

def Operation.program : Operation → Ops Unit
  | create r => (create_content_item_from_atom fuel r).void
  | transition r => (transition_content_item r).void
  | revise r => (revise_content_item hash_payload fuel r).void
  | schedule r => (schedule_content_item r).void
  | refresh project_id item_id due_at => (schedule_refresh project_id item_id due_at).void
  | journey j => (schedule_journey j).void
  | tick t => (run_scheduler_tick t).void
  | publish job_id => (execute_publication job_id).void

/-- What is done elsewhere meanwhile: to artifacts, to calendars, and to the trust kernel, where messages stay. -/
structure Elsewhere (s s' : OpsState) : Prop where
  items : s'.items = s.items
  jobs : s'.jobs = s.jobs
  attempts : s'.attempts = s.attempts
  outbox : ∀ m ∈ s.trust.outbox, ∃ m' ∈ s'.trust.outbox, m'.message_id = m.message_id

/-- **The operations on content, with each other and with what is done elsewhere.** -/
def operations : System OpsCalls OpsState OpsOutcome where
  exec := opsExec
  Starts p := ∃ op : Operation, p = op.program hash_payload fuel
  Env := Elsewhere

/-- **Scheduling alone.** -/
def scheduling : System OpsCalls OpsState OpsOutcome where
  exec := opsExec
  Starts p := ∃ r : ScheduleRequest, p = (schedule_content_item r).void
  Env s s' := s' = s

abbrev OpsStage : Type := Stage OpsCalls OpsState

end Content
