import MissionControl.Content.Writes

/-! # The calls of the operations

Every operation makes only proper calls (`only_proper`), so what proper calls keep, every run of the operations
keeps. -/

namespace Content

open Canonical (Sha256)
open Interleaving
open Interleaving.Program (Only only_perform)

variable {moves claims : Prop}

/-! ## Operations on an item -/

variable {α : Type}

theorem only_parts (p : Projects.ArtifactProgram α) : (withArtifacts p).Only (ProperIf moves claims) :=
  p.only_any.inside fun _ _ => trivial

theorem only_trust (p : Reliability.Trust α) : (withTrust p).Only (ProperIf moves claims) :=
  p.only_any.inside fun _ _ => trivial

variable {R : OpsCall → Prop}

theorem only_scoped_item {item_id project_id : String} (h : R (.get_content_item item_id)) :
    (_scoped_item item_id project_id).Only R := by
  refine Only.bind (only_perform h) fun item => ?_
  cases item with
  | none => trivial
  | some item =>
    dsimp only
    split <;> trivial

variable {item : ContentItem}

theorem only_assertTransition {target : ContentState} {body : ContentBody} {f : Unit → Ops α}
    (h : target ∈ CONTENT_TRANSITIONS item.state →
      (target ∈ APPROVAL_BOUND_CONTENT_STATES → target = .APPROVED ∨ item.approved_version = some item.version) →
      (f ()).Only R) : ((assertTransition item target body).bind f).Only R := by
  unfold assertTransition
  split
  · trivial
  · rename_i hassert
    obtain ⟨hedge, hbound⟩ := of_assert_content_transition hassert
    exact h hedge hbound

theorem approval_bound {r : TransitionRequest} (hbound : r.target ∈ APPROVAL_BOUND_CONTENT_STATES)
    (h : r.target = .APPROVED ∨ item.approved_version = some item.version) :
    (r.approval item).1 = some item.version := by
  unfold TransitionRequest.approval
  split
  · rfl
  · rename_i happroved
    split
    · rename_i hback
      rw [hback.1] at hbound
      simp [APPROVAL_BOUND_CONTENT_STATES] at hbound
    · exact h.resolve_left happroved

theorem only_time (h : ∀ slot_id, R (.get_slot slot_id)) (r : ScheduleRequest) : r.time.Only R := by
  unfold ScheduleRequest.time
  split
  · refine Only.bind ?_ fun _ => trivial
    refine Only.bind (only_perform (h _)) fun slot => ?_
    dsimp only
    split
    · trivial
    · split <;> trivial
  · trivial

theorem only_journey (journey : Journey) : (schedule_journey journey).Only (ProperIf moves claims) := by
  refine Only.bind (only_perform trivial) fun workspace => ?_
  dsimp only
  split
  · trivial
  · exact only_perform trivial

theorem only_whenLive {live : Bool} {p : Ops Unit} (hp : p.Only (ProperIf moves claims)) : (whenLive live p).Only (ProperIf moves claims) := by
  unfold whenLive
  split
  · exact hp
  · trivial

theorem only_putBack (item : ContentItem) : (putBack item).Only (ProperIf moves claims) := by
  refine Only.bind (only_perform trivial) fun current => ?_
  cases current with
  | none => trivial
  | some current =>
    dsimp only
    split
    · exact only_perform trivial
    · trivial

theorem only_after_failure (item : ContentItem) (live : Bool) : (_after_failure item live).Only (ProperIf moves claims) :=
  (only_whenLive (only_putBack item)).bind fun _ => only_perform trivial

theorem only_finishItem (item : ContentItem) : (finishItem item).Only (ProperIf moves claims) := by
  refine Only.bind (only_perform trivial) fun current => ?_
  cases current with
  | none => trivial
  | some current => exact only_perform trivial

theorem only_conclude (item : ContentItem) (live : Bool) : (conclude item live).Only (ProperIf moves claims) := by
  unfold conclude
  split
  · refine (only_finishItem item).bind fun _ => ?_
    exact Only.bind (only_perform trivial) fun _ => only_perform trivial
  · exact only_perform trivial

theorem only_reload {attempt_id : String} : (_reload_attempt attempt_id).Only (ProperIf moves claims) := by
  refine Only.bind (only_perform trivial) fun attempt => ?_
  cases attempt <;> trivial

variable [Sha256] [IsoTime] [Json]
omit [Sha256] [IsoTime] [Json] in
theorem only_transition (hmoves : moves) (r : TransitionRequest) :
    (transition_content_item r).Only (ProperIf moves claims) := by
  refine Only.bind (only_scoped_item trivial) fun item => ?_
  split
  · trivial
  · refine Only.bind (only_perform trivial) fun body => ?_
    refine only_assertTransition fun hedge hbound => ?_
    have hproper : ProperIf moves claims (.transition_item r.item_id item r.target (r.approval item).1 (r.approval item).2) :=
      ⟨hmoves, hedge, fun htarget => approval_bound htarget (hbound htarget)⟩
    exact Only.bind (only_perform hproper) fun _ => only_perform trivial

omit [Sha256] [IsoTime] in
theorem only_create (fuel : ℕ) (r : NewContent) : (create_content_item_from_atom fuel r).Only (ProperIf moves claims) := by
  refine Only.bind (only_perform trivial) fun atom => ?_
  dsimp only
  split
  · trivial
  · refine Only.bind (only_perform trivial) fun fresh => ?_
    refine (only_parts _).bind fun artifact => ?_
    exact Only.bind (only_perform ⟨⟨fresh, rfl⟩, rfl, rfl⟩) fun _ => only_perform trivial

variable (hash_payload : List (String × Agency.ArtifactStatus) → String) (fuel : ℕ)

omit [Sha256] [IsoTime] in
theorem only_reviseArtifact (r : ReviseRequest) (item : ContentItem) (body : ContentBody) :
    (reviseArtifact hash_payload fuel r item body).Only (ProperIf moves claims) := by
  unfold reviseArtifact
  split
  · trivial
  · refine (only_parts _).bind fun record => ?_
    cases record with
    | none => trivial
    | some record => exact (only_parts _).bind fun _ => trivial

omit [Sha256] [IsoTime] in
theorem only_revise (r : ReviseRequest) : (revise_content_item hash_payload fuel r).Only (ProperIf moves claims) := by
  refine Only.bind (only_scoped_item trivial) fun item => ?_
  dsimp only
  split
  · trivial
  · split
    · trivial
    · rename_i hsettled
      refine Only.bind (only_perform trivial) fun before => ?_
      refine (only_reviseArtifact hash_payload fuel r item _).bind fun _ => ?_
      exact Only.bind (only_perform ⟨hsettled, rfl⟩) fun _ => only_perform trivial

section
omit [Sha256] [Json]

theorem only_isoText {text : String} : (isoText text).Only R := by
  unfold isoText
  split <;> trivial

theorem only_schedule (r : ScheduleRequest) : (schedule_content_item r).Only (ProperIf moves claims) := by
  refine Only.bind (only_scoped_item trivial) fun item => ?_
  refine (only_time (fun _ => trivial) r).bind fun time => ?_
  dsimp only
  split
  · trivial
  · refine Only.bind (only_perform trivial) fun body => ?_
    refine only_assertTransition fun hedge hbound => ?_
    refine only_isoText.bind fun due_at => ?_
    have happroved := (hbound (by simp [APPROVAL_BOUND_CONTENT_STATES])).resolve_left (by simp)
    exact only_perform ⟨⟨hedge, happroved⟩, r, due_at, rfl, rfl, rfl⟩

theorem only_refresh (project_id item_id due_at : String) : (schedule_refresh project_id item_id due_at).Only (ProperIf moves claims) := by
  refine Only.bind (only_scoped_item trivial) fun item => ?_
  refine only_isoText.bind fun due_at => ?_
  exact only_perform ⟨project_id, item_id, item, due_at, rfl⟩

end

/-! A publication writes attempts, and moves the item. -/

section
omit [Sha256] [IsoTime] [Json]

theorem only_reconcile (attempt : PublicationAttempt) (provider : Provider) (item : ContentItem) (live : Bool) :
    (_reconcile attempt provider item live).Only (ProperIf moves claims) := by
  refine Only.bind (only_perform trivial) fun observed => ?_
  cases observed with
  | none =>
    refine Only.bind (only_perform trivial) fun _ => ?_
    exact (only_after_failure item live).bind fun _ => trivial
  | some observed =>
    refine Only.bind (only_perform trivial) fun _ => ?_
    dsimp only
    split
    · refine Only.bind (only_perform trivial) fun _ => ?_
      exact (only_after_failure item live).bind fun _ => trivial
    · refine Only.bind (only_perform trivial) fun _ => ?_
      refine Only.bind (only_perform trivial) fun _ => ?_
      exact (only_conclude item live).bind fun _ => trivial

theorem only_executeAttempt (attempt_id : String) (provider : Provider) (request : PublicationRequest)
    (item : ContentItem) (live : Bool) : (executeAttempt attempt_id provider request item live).Only (ProperIf moves claims) := by
  refine (only_whenLive (only_perform trivial)).bind fun _ => ?_
  refine Only.bind (only_perform trivial) fun _ => ?_
  refine Only.bind (only_perform trivial) fun published => ?_
  cases published with
  | uncertain name =>
    refine Only.bind (only_perform trivial) fun _ => ?_
    refine Only.bind (only_perform trivial) fun _ => ?_
    exact only_reload.bind fun attempt => only_reconcile attempt provider item live
  | failed name =>
    refine Only.bind (only_perform trivial) fun _ => ?_
    exact (only_after_failure item live).bind fun _ => trivial
  | published result =>
    refine Only.bind (only_perform trivial) fun _ => ?_
    refine Only.bind (only_perform trivial) fun _ => ?_
    refine (only_whenLive (only_perform trivial)).bind fun _ => ?_
    exact only_reload.bind fun attempt => only_reconcile attempt provider item live

theorem only_permitDependencies (item : ContentItem) : (permitDependencies item).Only (ProperIf moves claims) := by
  unfold permitDependencies
  split
  · trivial
  · refine (only_parts _).bind fun record => ?_
    cases record <;> trivial

theorem only_startAttempt (attempt_id : String) (provider : Provider) (request : PublicationRequest)
    (item : ContentItem) (live : Bool) : (startAttempt attempt_id provider request item live).Only (ProperIf moves claims) := by
  refine Only.bind (only_perform trivial) fun problems => ?_
  cases problems with
  | cons problem problems => exact Only.bind (only_perform trivial) fun _ => trivial
  | nil =>
    refine Only.bind (only_perform trivial) fun _ => ?_
    refine (only_permitDependencies item).bind fun _ => ?_
    refine Only.bind (only_perform trivial) fun _ => ?_
    refine Only.bind (only_perform trivial) fun _ => ?_
    dsimp only
    split
    · exact Only.bind (only_perform trivial) fun _ => trivial
    · exact Only.bind (only_perform trivial) fun _ => only_executeAttempt _ _ _ _ _

end

omit [IsoTime] in
theorem only_runAttempt (job : ScheduledJob) (provider : Provider) (channel : String) (item : ContentItem) :
    (runAttempt job provider channel item).Only (ProperIf moves claims) := by
  refine Only.bind (only_perform trivial) fun body => ?_
  refine Only.bind (only_perform trivial) fun attempt => ?_
  split
  · trivial
  · split
    · exact only_reconcile _ _ _ _
    · exact only_startAttempt _ _ _ _ _

omit [IsoTime] in
theorem only_publication (job_id : String) : (execute_publication job_id).Only (ProperIf moves claims) := by
  refine Only.bind (only_perform trivial) fun job => ?_
  cases job with
  | none => trivial
  | some job =>
    refine Only.bind (only_perform trivial) fun item => ?_
    refine Only.bind (by unfold channelOf; split <;> trivial) fun channel => ?_
    refine Only.bind (only_perform trivial) fun provider => ?_
    cases provider with
    | error text => trivial
    | ok provider =>
      cases item with
      | none => trivial
      | some item => exact only_runAttempt job provider channel item

/-! A tick marks jobs as it takes them up. -/

section
omit [Sha256] [IsoTime] [Json]

theorem only_dispatch (authorize_delivery : Reliability.OutboxMessage → Bool) {handler : Ops String}
    (hhandler : handler.Only (ProperIf moves claims)) (message_id worker_id : String) :
    (dispatch_one authorize_delivery handler message_id worker_id).Only (ProperIf moves claims) := by
  refine (only_trust _).bind fun state => ?_
  dsimp only
  split
  · trivial
  · split
    · trivial
    · split
      · trivial
      · split
        · trivial
        · refine (only_trust _).bind fun _ => ?_
          refine hhandler.attempt.bind fun result => ?_
          cases result with
          | error e => exact (only_trust _).bind fun _ => trivial
          | ok result_ref => exact (only_trust _).bind fun _ => trivial

theorem proper_set_job {job_id : String} {mark : JobMark} (hfrom : mark.from_statuses = TAKEN_UP)
    (hpending : mark.status ≠ .PENDING) (henqueued : mark.status ≠ .ENQUEUED) : ProperIf moves claims (.set_job job_id mark) :=
  ⟨movesOn_of_taken_up hfrom hpending, henqueued⟩

theorem only_run_refresh (hclaims : claims) (job : ScheduledJob) : (_run_refresh job).Only (ProperIf moves claims) := by
  refine Only.bind (only_perform trivial) fun item => ?_
  split
  · refine Only.bind (only_perform ?_) fun _ => trivial
    exact proper_set_job rfl (by simp [cancelMark]) (by simp [cancelMark])
  · refine Only.bind (only_perform ⟨hclaims, .inl rfl⟩) fun claimed => ?_
    split <;> trivial

end

omit [Sha256] [Json] in
theorem only_gate_for (item : ContentItem) (now : Datetime) : (_gate_for item now).Only (ProperIf moves claims) := by
  refine Only.bind (only_perform trivial) fun body => ?_
  refine Only.bind ?_ fun gate => ?_
  · unfold artifactGate
    split
    · trivial
    · refine (only_parts _).bind fun record => ?_
      cases record with
      | none => trivial
      | some record =>
        dsimp only
        split
        · exact Only.bind (only_perform trivial) fun _ => trivial
        · trivial
  · dsimp only
    split <;> trivial

omit [Sha256] [Json] in
theorem only_blockReasons (job : ScheduledJob) (item : ContentItem) (now : Datetime) :
    (blockReasons job item now).Only (ProperIf moves claims) := by
  refine (only_gate_for item now).bind fun reasons => ?_
  cases reasons with
  | cons reason reasons => trivial
  | nil =>
    refine Only.bind (only_perform trivial) fun provider => ?_
    cases provider <;> trivial

omit [IsoTime] in
theorem only_deliver (job : ScheduledJob) (item : ContentItem) (worker_id : String) :
    (deliver job item worker_id).Only (ProperIf moves claims) := by
  refine (only_trust _).bind fun _ => ?_
  refine (only_trust _).bind fun _ => ?_
  exact only_dispatch _ (only_publication _) _ _

omit [Sha256] [IsoTime] [Json] in
theorem proper_deliveryMark (job_id : String) (delivery : Reliability.OutboxDeliveryResult) :
    ProperIf moves claims (.set_job job_id (deliveryMark delivery)) := by
  refine ⟨movesOn_deliveryMark delivery, ?_⟩
  unfold deliveryMark
  split <;> simp

omit [IsoTime] in
theorem only_claimAndDeliver (hclaims : claims) (job : ScheduledJob) (item : ContentItem) (worker_id : String) :
    (claimAndDeliver job item worker_id).Only (ProperIf moves claims) := by
  refine Only.bind (only_perform trivial) fun mode => ?_
  refine Only.bind (only_perform ⟨hclaims, .inr rfl⟩) fun claimed => ?_
  split
  · trivial
  · refine (only_deliver job item worker_id).bind fun delivery => ?_
    exact Only.bind (only_perform (proper_deliveryMark _ _)) fun _ => trivial

theorem only_run_delivery (hclaims : claims) (job : ScheduledJob) (now : Datetime) (worker_id : String) :
    (_run_delivery job now worker_id).Only (ProperIf moves claims) := by
  refine Only.bind (only_perform trivial) fun item => ?_
  split
  · refine Only.bind (only_perform ?_) fun _ => trivial
    exact proper_set_job rfl (by simp [cancelMark]) (by simp [cancelMark])
  · refine (only_blockReasons job _ now).bind fun reasons => ?_
    cases reasons with
    | cons reason reasons =>
      refine Only.bind (only_perform ?_) fun _ => trivial
      exact proper_set_job rfl (by simp [blockMark]) (by simp [blockMark])
    | nil => exact only_claimAndDeliver hclaims job _ worker_id

theorem only_runJob (hclaims : claims) (now : Datetime) (worker_id : String) (job : ScheduledJob) :
    (runJob now worker_id job).Only (ProperIf moves claims) := by
  unfold runJob
  split
  · exact only_run_refresh hclaims job
  · exact only_run_delivery hclaims job now worker_id

theorem only_runJobs (hclaims : claims) (now : Datetime) (worker_id : String) (jobs : List ScheduledJob) :
    (runJobs now worker_id jobs).Only (ProperIf moves claims) := by
  induction jobs with
  | nil => trivial
  | cons job jobs ih =>
    refine (only_runJob hclaims now worker_id job).bind fun status => ?_
    exact ih.bind fun _ => trivial

theorem only_tick (hclaims : claims) (t : Tick) : (run_scheduler_tick t).Only (ProperIf moves claims) :=
  Only.bind (only_perform trivial) fun due => only_runJobs hclaims t.now t.worker_id due

theorem only_program (op : Operation) (hmoves : ∀ r, op = .transition r → moves) (hclaims : ∀ t, op = .tick t → claims) :
    (op.program hash_payload fuel).Only (ProperIf moves claims) := by
  cases op with
  | create r => exact (only_create fuel r).void
  | transition r => exact (only_transition (hmoves r rfl) r).void
  | revise r => exact (only_revise hash_payload fuel r).void
  | schedule r => exact (only_schedule r).void
  | refresh project_id item_id due_at => exact (only_refresh project_id item_id due_at).void
  | journey journey => exact (only_journey journey).void
  | tick t => exact (only_tick (hclaims t rfl) t).void
  | publish job_id => exact (only_publication job_id).void

/-- **The operations make proper calls.** -/
theorem only_proper (op : Operation) : (op.program hash_payload fuel).Only Proper :=
  only_program hash_payload fuel op (fun _ _ => trivial) fun _ _ => trivial

end Content
