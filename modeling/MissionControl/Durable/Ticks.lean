import MissionControl.Durable.Store

/-! # Ticks

One tick takes at most one job: it claims it, writes an intent, dispatches, reads the effect back,
verifies it, and commits. An interrupted job is claimed into `RECONCILING`, where its open intent is
looked at before anything is dispatched again. Every call of a handler and every statement is a step
of its own; a worker that takes no further step has crashed. -/

namespace Durable

open Canonical (Sha256)
open Interleaving (Program System)
open Python (Object)

abbrev DurableProgram (α : Type) : Type := Program DurableCalls α

/-- Make one call. -/
abbrev ask (c : Call) : DurableProgram c.Resp := .perform (I := DurableCalls) c

/-! ## Moves -/

def illegal (src dst : RunState) : Err :=
  .illegal_transition s!"{src.value} -> {dst.value} is not a legal run transition"

/-- A fenced, logged state change. -/
def transition (job_id : String) (dst : RunState) (fencing_token : ℕ) (now : Instant) (reason : String)
    (fields : Fields := {}) : DurableProgram Job := do
  match ← ask (.get_job job_id) with
  | none => throw (.stale_fence s!"job {job_id}: fencing token {fencing_token} superseded")
  | some current =>
    if current.lease_token ≠ fencing_token then
      throw (.stale_fence s!"job {job_id}: fencing token {fencing_token} superseded")
    else if current.state ∈ IN_FLIGHT ∧ current.lease_owner.isSome ∧ current.lapsed now then
      throw (.stale_fence s!"job {job_id}: worker lease expired before transition")
    else if dst ∉ TRANSITIONS current.state then throw (illegal current.state dst)
    else ask (.move_job job_id fencing_token current.state dst now reason fields)

/-- `operator_move` at a moment. -/
def operatorMoveAt (job_id : String) (dst : RunState) (actor reason : String) (moment : Instant) :
    DurableProgram Job := do
  match ← ask (.get_job job_id) with
  | none => throw (.lookup job_id)
  | some job =>
    if job.state ∈ IN_FLIGHT ∧ job.lease_expires_at.any (moment < ·) then
      throw (.stale_fence s!"job {job_id} is leased")
    else
      transition job_id dst job.lease_token moment (clip 500 s!"operator {actor}: {reason}")
        (if dst = .SCHEDULED then { next_due_at := some moment } else {})

/-- A human operator's state change. -/
def operator_move (job_id : String) (dst : RunState) (actor reason : String) : Option Instant → DurableProgram Job
  | some now => operatorMoveAt job_id dst actor reason now
  | none => do
    let now ← ask .clock
    operatorMoveAt job_id dst actor reason now

/-- `LEASED` for due work, `RECONCILING` for an interrupted job. -/
def Job.entered (job : Job) : RunState := if job.state ∈ IN_FLIGHT then .RECONCILING else .LEASED

/-- Take the first candidate that no other worker has won. -/
def claimFirst (worker_id : String) (now expires : Instant) : List Job → DurableProgram (Option (Job × RunState))
  | [] => return none
  | job :: rest => do
    if job.entered ∉ TRANSITIONS job.state then throw (illegal job.state job.entered)
    else
      match ← ask (.claim_job job.job_id job.version job.state job.entered worker_id now expires) with
      | some claimed => return some (claimed, job.entered)
      | none => claimFirst worker_id now expires rest

def claim_due_job (worker_id : String) (now : Instant) (lease_seconds : ℕ) (job_id project_id : Option String) :
    DurableProgram (Option (Job × RunState)) := do
  let candidates ← ask (.due_jobs now job_id project_id)
  claimFirst worker_id now (now + lease_seconds * SECOND) candidates

/-! ## A tick -/

structure Handler where
  operation : String
  contract_version : String
  retry_class : String
  target : Job → String
  input_hash : Job → String

structure TickReport where
  outcome : String := "NO_WORK"
  job_id : Option String := none
  final_state : Option String := none
  idempotency_key : Option String := none
  dispatched : Bool := false
  adopted : Bool := false
  reasons : List String := []

def MAX_RETRIES : ℕ := 3

def RETRY_BACKOFF_S : List ℕ := [30, 120, 600]

section Tick

variable [Sha256]

/-- No wall clock is in the key. -/
def idempotency_key (tenant project job : String) (logical_tick : ℕ)
    (operation target input_hash contract_version : String) : String :=
  Canonical.canonical_hash (.dict [("tenant", .str tenant), ("project", .str project), ("job", .str job),
    ("logical_tick", .int logical_tick), ("operation", .str operation), ("target", .str target),
    ("input_hash", .str input_hash), ("contract_version", .str contract_version)])

/-- `reason.split(":")[0].split(" ")[0][:80]` -/
def failureCode (reason : String) : String :=
  let head := (Python.split ':' reason.toList).headD []
  clip 80 (String.ofList ((Python.split ' ' head).headD []))

def _fingerprint (operation reason env : String) : String :=
  clip 24 (Canonical.canonical_hash
    (.dict [("operation", .str operation), ("code", .str (failureCode reason)), ("env", .str env)]))

/-- What a tick knows once it has claimed its job. -/
structure Tick where
  handler : Handler
  token : ℕ
  tick_n : ℕ
  key : String
  trace_id : String

/-- Where a tick goes on. -/
inductive Reached where
  | done (report : TickReport)
  | dispatching (report : TickReport) (job : Job)
  | observed (report : TickReport) (job : Job) (observation : Object)

def move (token : ℕ) (job : Job) (dst : RunState) (reason : String) (fields : Fields := {}) : DurableProgram Job := do
  let now ← ask .clock
  transition job.job_id dst token now reason fields

/-- The last move of a tick. It gives up the lease. -/
def release (token : ℕ) (report : TickReport) (job : Job) (dst : RunState) (reasons : List String)
    (retry : Bool := false) (fields : Fields := {}) : DurableProgram TickReport := do
  let now ← ask .clock
  let delay := if retry then RETRY_BACKOFF_S.getD (min job.attempts 2) 0 else 300
  let _ ← move token job dst (clip 500 ("; ".intercalate reasons))
    { fields with
      lease_owner := some none
      lease_expires_at := some none
      next_due_at := some (now + delay * SECOND) }
  return { report with outcome := dst.value, final_state := some dst.value, reasons := reasons }

/-- One more failure under the fingerprint. -/
def countFailure (seen : List (String × Fingerprint)) (fp env : String) (now : Instant) :
    List (String × Fingerprint) :=
  let count := ((seen.lookup fp).map Fingerprint.count).getD 0 + 1
  if (seen.lookup fp).isSome then seen.map fun x => if x.1 = fp then (fp, ⟨count, env, now⟩) else x
  else seen ++ [(fp, ⟨count, env, now⟩)]

def fail (t : Tick) (report : TickReport) (job : Job) (reason : String) : DurableProgram TickReport := do
  let env ← ask (.environment_fingerprint job)
  let fp := _fingerprint t.handler.operation reason env
  let again := (job.failure_fingerprints.lookup fp).isSome
  let now ← ask .clock
  let seen := countFailure job.failure_fingerprints fp env now
  let attempts := job.attempts + 1
  let fields : Fields := { attempts := some attempts, failure_fingerprints := some seen }
  if t.handler.retry_class = "RETRY_SAFE" ∧ attempts < min MAX_RETRIES job.max_attempts ∧ again = false then
    release t.token report job .RETRY_PENDING [reason] true fields
  else
    let why := if again then [reason, "NEGATIVE_KNOWLEDGE: identical failure under unchanged environment"]
      else [reason]
    release t.token report job .DEAD_LETTER why false fields

def unconfirmed (report : TickReport) (reason : String) : TickReport :=
  { report with outcome := "UNCONFIRMED", final_state := some RunState.RECONCILING.value, reasons := [reason] }

/-- Write the intent ahead of the effect. -/
def reserve (t : Tick) (job : Job) : DurableProgram (Intent × Bool) := do
  let pre_image ← ask (.pre_image job)
  let now ← ask .clock
  ask (.reserve_intent ⟨t.key, job, t.tick_n, t.handler.operation, t.handler.target job, t.handler.input_hash job,
    t.handler.contract_version, t.handler.retry_class, pre_image, t.token, now⟩)

def markUnconfirmed (t : Tick) (job : Job) (error_class : String) : DurableProgram Unit := do
  let now ← ask .clock
  ask (.mark_intent_unconfirmed t.key job.job_id t.token now error_class)

/-- Look at an open intent before anything is dispatched again. -/
def probe (t : Tick) (report : TickReport) (job : Job) (intent : Intent) : DurableProgram Reached := do
  match ← Program.attempt (ask (.reconcile job intent)) with
  | .error e => do
    markUnconfirmed t job e.name
    return .done (unconfirmed report "PROVIDER_PROBE_UNAVAILABLE")
  | .ok ("ADOPT", some observation) => do
    let job ← move t.token job .OBSERVING "provider status verified; adopting remote effect"
    return .observed { report with adopted := true } job observation
  | .ok (decision, _) =>
    if decision = "REDO" ∧ t.handler.retry_class = "RETRY_SAFE" then do
      let job ← move t.token job .READY "provider verified no effect; safe retry under same key"
      return .dispatching report job
    else if decision = "FAILED" then do
      let now ← ask .clock
      ask (.settle_intent_failed t.key job.job_id t.token now
        (.dict [(.str "status", .str "FAILED"), (.str "source", .str "provider_reconcile")]))
      let report ← release t.token report job .DEAD_LETTER ["PROVIDER_CONFIRMED_FAILURE"]
      return .done report
    else do
      markUnconfirmed t job "ProviderStatusUnknown"
      return .done (unconfirmed report "PROVIDER_STATUS_UNCONFIRMED")

/-- An interrupted tick. -/
def resume (t : Tick) (report : TickReport) (job : Job) : DurableProgram Reached := do
  match ← ask (.get_intent t.key) with
  | none => do
    let job ← move t.token job .READY "no intent was written before the interruption"
    let _ ← reserve t job
    return .dispatching report job
  | some intent =>
    match intent.status with
    | .COMMITTED =>
      match intent.receipt.get "observation" with
      | none | some .none => do
        let report ← release t.token report job .DEAD_LETTER ["COMMITTED_RECEIPT_MISSING_OBSERVATION"]
        return .done report
      | some observation => do
        let job ← move t.token job .OBSERVING "adopting the committed receipt; nothing re-dispatched"
        return .observed { report with adopted := true } job observation
    | .FAILED | .ABANDONED => do
      let report ← release t.token report job .DEAD_LETTER ["PROVIDER_INTENT_TERMINAL:" ++ intent.status.value]
      return .done report
    | .INTENT | .UNCONFIRMED => probe t report job intent

/-- A tick on due work. -/
def begin (t : Tick) (report : TickReport) (job : Job) : DurableProgram Reached := do
  let job ← move t.token job .PRECHECK "precheck"
  match ← ask (.precheck job) with
  | (some blocked, reasons) => do
    let report ← release t.token report job blocked reasons
    return .done report
  | (none, _) => do
    let job ← move t.token job .READY "precheck passed"
    let (_, created) ← reserve t job
    if created then return .dispatching report job
    else do
      let job ← move t.token job .RECONCILING "intent already exists for this tick"
      resume t report job

/-- An exception may follow a remote commit: its effect is unknown. -/
def dispatchJob (t : Tick) (report : TickReport) (job : Job) : DurableProgram Reached := do
  let job ← move t.token job .RUNNING "dispatch"
  match ← Program.attempt (ask (.dispatch job)) with
  | .error e => do
    markUnconfirmed t job e.name
    let _ ← move t.token job .RECONCILING "dispatch outcome unknown; provider probe required"
    return .done (unconfirmed report ("DISPATCH_OUTCOME_UNKNOWN:" ++ e.name))
  | .ok dispatched =>
    let report := { report with dispatched := true }
    match dispatched.blocked_state with
    | some blocked => do
      let reasons := if dispatched.reasons = [] then ["BLOCKED"] else dispatched.reasons
      let report ← release t.token report job blocked reasons
      return .done report
    | none =>
      if dispatched.failed then do
        let report ← fail t report job ("RENDER_FAILED:" ++ clip 300 ("; ".intercalate dispatched.reasons))
        return .done report
      else do
        let job ← move t.token job .OBSERVING "dispatch returned; reading back"
        match ← Program.attempt (ask (.observe job dispatched)) with
        | .error e => do
          let job ← move t.token job .INCONCLUSIVE s!"readback failed: {e.name}"
          let report ← release t.token report job .SCHEDULED ["READBACK_FAILED:" ++ e.name] true
          return .done report
        | .ok observation => return .observed report job observation

/-- Commit what has been verified. -/
def commit (t : Tick) (report : TickReport) (job : Job) (observation verification : Object) :
    DurableProgram TickReport := do
  let job ← move t.token job .COMMITTING "verified; committing"
  let committed ← ask .clock
  let receipt : Object := .dict [(.str "observation", observation), (.str "verification", verification),
    (.str "trace_id", .str t.trace_id), (.str "logical_tick", .int t.tick_n),
    (.str "wall_committed_at", .int committed)]
  let current ← ask (.get_intent t.key)
  if current.any fun intent => intent.status = .INTENT || intent.status = .UNCONFIRMED then do
    let now ← ask .clock
    ask (.commit_intent t.key receipt t.token job.job_id now)
  let (final_state, _) ← ask (.on_commit job observation verification)
  let now ← ask .clock
  let _ ← move t.token job final_state "committed"
    { logical_tick := some t.tick_n
      attempts := some 0
      lease_owner := some none
      lease_expires_at := some none
      next_due_at := some (now + job.recurrence_seconds.getD 0 * SECOND) }
  return { report with outcome := "COMMITTED", final_state := some final_state.value }

def conclude (t : Tick) (report : TickReport) (job : Job) (observation : Object) : DurableProgram TickReport := do
  let job ← move t.token job .VERIFYING "independent verification"
  let verification ← ask (.verify job observation)
  if verification.hasText "status" "PASSED" then commit t report job observation verification
  else if verification.hasText "status" "INCONCLUSIVE" then do
    let job ← move t.token job .INCONCLUSIVE "verifier inconclusive"
    release t.token report job .SCHEDULED ["VERIFICATION_INCONCLUSIVE"] true
  else
    fail t report job ("VERIFICATION_FAILED:" ++ clip 300 (",".intercalate (verification.texts "findings")))

/-- Go on from where the tick is. -/
def Reached.goOn (t : Tick) : Reached → DurableProgram TickReport
  | .done report => return report
  | .observed report job observation => conclude t report job observation
  | .dispatching report job => do
    match ← dispatchJob t report job with
    | .done report | .dispatching report _ => return report
    | .observed report job observation => conclude t report job observation

/-- The tick on a job that has been claimed. -/
def runClaimed (handlers : String → Option Handler) (trace_id : String) (job : Job) (entered : RunState) :
    DurableProgram TickReport := do
  let report : TickReport := { job_id := some job.job_id }
  let token := job.lease_token
  match handlers job.kind with
  | none => do
    let job ← move token job .PRECHECK "precheck"
    release token report job .BLOCKED_ENVIRONMENT ["NO_HANDLER_FOR_KIND:" ++ job.kind]
  | some handler => do
    let tick_n := job.logical_tick + 1
    let key := idempotency_key job.tenant_id job.project_id job.job_id tick_n handler.operation
      (handler.target job) (handler.input_hash job) handler.contract_version
    let t : Tick := ⟨handler, token, tick_n, key, trace_id⟩
    let report := { report with idempotency_key := some key }
    let reached ← if entered = .LEASED then begin t report job else resume t report job
    reached.goOn t

def run_tick (handlers : String → Option Handler) (trace_id worker_id : String) (now : Option Instant)
    (lease_seconds : ℕ) (job_id project_id : Option String) : DurableProgram TickReport := do
  let started ← match now with
    | some now => pure now
    | none => ask .clock
  match ← claim_due_job worker_id started lease_seconds job_id project_id with
  | none => return {}
  | some (job, entered) => runClaimed handlers trace_id job entered

/-! ## The runtime -/

abbrev DurableStage : Type := Interleaving.Stage DurableCalls Store

abbrev DurableAction : Type := Interleaving.Action DurableCalls Store Outside

inductive Request where
  | create_job (input : CreateJob)
  | claim_due_job (worker_id : String) (now : Instant) (lease_seconds : ℕ) (job_id project_id : Option String)
  | run_tick (trace_id worker_id : String) (now : Option Instant) (lease_seconds : ℕ)
      (job_id project_id : Option String)
  | operator_move (job_id : String) (dst : RunState) (actor reason : String) (now : Option Instant)
  | renew_lease (job_id worker_id : String) (fencing_token : ℕ) (now : Instant) (lease_seconds : ℕ)

/-- What the runtime is deployed with: its handlers, and what redaction makes of a string. -/
structure Deployment where
  handlers : String → Option Handler
  _redact_string : String → String

def Request.program (d : Deployment) : Request → DurableProgram Unit
  | .create_job input => (ask (.create_job input)).void
  | .claim_due_job worker_id now lease_seconds job_id project_id =>
    (Durable.claim_due_job worker_id now lease_seconds job_id project_id).void
  | .run_tick trace_id worker_id now lease_seconds job_id project_id =>
    (Durable.run_tick d.handlers trace_id worker_id now lease_seconds job_id project_id).void
  | .operator_move job_id dst actor reason now => (Durable.operator_move job_id dst actor reason now).void
  | .renew_lease job_id worker_id fencing_token now lease_seconds =>
    (ask (.renew_lease job_id worker_id fencing_token now lease_seconds)).void

/-- **The runtime**: any number of workers and operators, each on any of the requests. -/
def runtime (d : Deployment) : System DurableCalls Store Outside where
  exec := exec d._redact_string
  Starts p := ∃ request : Request, p = request.program d
  Env _ _ := False

end Tick

end Durable

/-! # Moves by operators

`operator_move` refuses a job whose lease runs, and `transition` refuses a job in flight whose lease has
expired, unless nobody owns it. Between the two an operator moves no job in flight that a worker owns. -/

namespace Durable

open Canonical (Sha256)
open Interleaving

variable {_redact_string : String → String} {s s' : Store} {α : Type}

/-! ## One call at a time -/

theorem exec_of_quiet (_redact_string : String → String) (s : Store) (c : Call) {o : Outside} (h : o.raises = none) :
    exec _redact_string c o s = run _redact_string o s c := by
  unfold exec
  rw [h]

variable {l : List (OwnCall DurableCalls Store Outside)}

theorem solo_ask {c : Call} {f : c.Resp → DurableProgram α} {r : Except Err α}
    (h : Solo (exec _redact_string) ((ask c).bind f) s l r s')
    (hl : ∀ x ∈ l, x.outside.raises = none) : ∃ o l', l = ⟨s, c, o⟩ :: l' ∧
      ((∃ a s₁, run _redact_string o s c = .ok (a, s₁) ∧ Solo (exec _redact_string) (f a) s₁ l' r s') ∨
        ∃ e, run _redact_string o s c = .error e ∧ r = .error e ∧ s' = s) := by
  obtain ⟨o, l', rfl, hend⟩ := h.of_ask
  refine ⟨o, l', rfl, ?_⟩
  rw [exec_of_quiet _redact_string s c (hl _ List.mem_cons_self)] at hend
  rcases hend with hok | ⟨e, herr, -, rfl, rfl⟩
  · exact .inl hok
  · exact .inr ⟨e, herr, rfl, rfl⟩

theorem solo_quiet (_redact_string : String → String) (p : DurableProgram α) (o : Outside) (s : Store)
    (h : o.raises = none) : ∃ l, Solo (exec _redact_string) p s l (runAlone (exec _redact_string) o p [] s).1
        (runAlone (exec _redact_string) o p [] s).2 ∧ ∀ x ∈ l, x.outside = o ∧ x.outside.raises = none := by
  refine ⟨_, solo_runAlone _ _ _ _ _, fun x hx => ?_⟩
  have ho := outside_of_soloCalls x hx
  exact ⟨ho, ho ▸ h⟩

/-! ## Operators -/

/-- The transition is logged after those there were, from the state the job was in. -/
def Chained (s s' : Store) (job : Job) (dst : RunState) : Prop :=
  ∃ reason moment, s'.transitions = s.transitions ++
    [⟨job.job_id, job.tenant_id, job.project_id, job.state, dst, job.lease_token, job.logical_tick, reason, moment⟩]

variable {job : Job} {dst : RunState} {actor reason : String} {t : Instant}

variable {r : Except Err Job}

variable {moment : Instant}

/-- What a transition comes to, alone and without faults. -/
theorem transition_alone {fencing_token : ℕ} {fields : Fields} (hjob : s.jobs.find? job.job_id = some job)
    (htoken : job.lease_token = fencing_token) (hdst : dst ∈ TRANSITIONS job.state)
    (hl : ∀ x ∈ l, x.outside.raises = none)
    (h : Solo (exec _redact_string) (transition job.job_id dst fencing_token moment reason fields) s l r s') :
    if job.state ∈ IN_FLIGHT ∧ job.lease_owner.isSome = true ∧ job.lapsed moment = true then
      ∃ text, r = .error (.stale_fence text)
    else
      r = .ok (job.move dst fields) ∧ s'.jobs.find? job.job_id = some (job.move dst fields) ∧
        s'.transitions = s.transitions ++ [⟨job.job_id, job.tenant_id, job.project_id, job.state, dst,
          fencing_token, (job.move dst fields).logical_tick, clip 500 reason, moment⟩] := by
  obtain ⟨o, l', rfl, ⟨a, s₁, hrun, hrest⟩ | ⟨e, hrun, -⟩⟩ := solo_ask h hl
  · cases hrun
    rw [hjob] at hrest
    dsimp only at hrest
    rw [if_neg (by rw [htoken]; exact fun hne => hne rfl)] at hrest
    split
    · rename_i hguard
      rw [if_pos hguard] at hrest
      exact ⟨_, hrest.of_raise.2.1⟩
    · rename_i hguard
      rw [if_neg hguard, if_neg (not_not_intro hdst)] at hrest
      obtain ⟨o', rfl, hanswer, hafter⟩ := hrest.of_perform
      have hquiet : o'.raises = none := hl _ (List.mem_cons_of_mem _ List.mem_cons_self)
      have hmove : run _redact_string o' s (.move_job job.job_id fencing_token job.state dst moment reason fields) =
          .ok (job.move dst fields, { s with
            jobs := s.jobs.update job.job_id (·.move dst fields) (Job.move_job_id dst fields)
            transitions := s.transitions ++ [⟨job.job_id, job.tenant_id, job.project_id, job.state, dst,
              fencing_token, (job.move dst fields).logical_tick, clip 500 reason, moment⟩] }) := by
        show Store.move_job .. = _
        unfold Store.move_job
        rw [hjob]
        exact if_pos ⟨htoken, rfl⟩
      have hexec := (exec_of_quiet _redact_string s _ hquiet).trans hmove
      refine ⟨?_, ?_, ?_⟩
      · rw [hanswer]
        unfold Exec.answer
        rw [hexec]
        rfl
      · rw [hafter, Exec.after_of_ok hexec]
        show (s.jobs.update job.job_id (·.move dst fields) (Job.move_job_id dst fields)).find? job.job_id = _
        rw [Relational.Table.find?_update, if_pos rfl, hjob]
        rfl
      · rw [hafter, Exec.after_of_ok hexec]
  · cases hrun

theorem operatorMoveAt_alone (hjob : s.jobs.find? job.job_id = some job) (hflight : job.state ∈ IN_FLIGHT)
    (hexpires : job.lease_expires_at = some t) (hmoment : t ≤ moment) (hdst : dst ∈ TRANSITIONS job.state)
    (hl : ∀ x ∈ l, x.outside.raises = none)
    (h : Solo (exec _redact_string) (operatorMoveAt job.job_id dst actor reason moment) s l r s') :
    if job.lease_owner.isSome = true then ∃ text, r = .error (.stale_fence text)
    else (∃ moved, r = .ok moved ∧ moved.state = dst ∧ s'.jobs.find? job.job_id = some moved) ∧
      Chained s s' job dst := by
  obtain ⟨o, l', rfl, ⟨a, s₁, hrun, hrest⟩ | ⟨e, hrun, -⟩⟩ := solo_ask h hl
  · cases hrun
    rw [hjob] at hrest
    have hexpired : job.lease_expires_at.any (moment < ·) = false := by
      rw [hexpires]
      simpa using hmoment
    have hlapsed : job.lapsed moment = true := by
      unfold Job.lapsed
      rw [hexpires]
      simpa using hmoment
    dsimp only at hrest
    rw [if_neg (by rw [hexpired]; exact fun hand => nomatch hand.2)] at hrest
    have hmoved := transition_alone hjob rfl hdst (fun x hx => hl x (List.mem_cons_of_mem _ hx)) hrest
    by_cases howner : job.lease_owner.isSome = true
    · rw [if_pos ⟨hflight, howner, hlapsed⟩] at hmoved
      rw [if_pos howner]
      exact hmoved
    · rw [if_neg fun hand => howner hand.2.1] at hmoved
      rw [if_neg howner]
      obtain ⟨hr, hfind, hlog⟩ := hmoved
      -- an operator does not move the tick on
      have htick : (job.move dst (if dst = .SCHEDULED then { next_due_at := some moment } else {})).logical_tick =
          job.logical_tick := by
        split <;> rfl
      rw [htick] at hlog
      exact ⟨⟨_, hr, rfl, hfind⟩, _, moment, hlog⟩
  · cases hrun

theorem operator_alone {now : Option Instant} (hjob : s.jobs.find? job.job_id = some job)
    (hflight : job.state ∈ IN_FLIGHT) (hexpires : job.lease_expires_at = some t)
    (hnow : ∀ moment ∈ now, t ≤ moment) (hdst : dst ∈ TRANSITIONS job.state)
    (hl : ∀ x ∈ l, x.outside.raises = none ∧ t ≤ x.outside.now)
    (h : Solo (exec _redact_string) (operator_move job.job_id dst actor reason now) s l r s') :
    if job.lease_owner.isSome = true then ∃ text, r = .error (.stale_fence text)
    else (∃ moved, r = .ok moved ∧ moved.state = dst ∧ s'.jobs.find? job.job_id = some moved) ∧
      Chained s s' job dst := by
  cases now with
  | some moment => exact operatorMoveAt_alone hjob hflight hexpires (hnow moment rfl) hdst (fun x hx => (hl x hx).1) h
  | none =>
    obtain ⟨o, l', rfl, ⟨moment, s₁, hrun, hrest⟩ | ⟨e, hrun, -⟩⟩ := solo_ask h fun x hx => (hl x hx).1
    · cases hrun
      exact operatorMoveAt_alone hjob hflight hexpires (hl _ List.mem_cons_self).2 hdst
        (fun x hx => (hl x (List.mem_cons_of_mem _ hx)).1) hrest
    · cases hrun

/-- **An operator moves an orphaned job exactly when nobody owns it.** The job is in flight, its lease has
    expired, and the target is one that may follow. -/
theorem operator_moves_iff {now : Option Instant} (hjob : job ∈ s.jobs) (hflight : job.state ∈ IN_FLIGHT)
    (hexpires : job.lease_expires_at = some t) (hnow : ∀ moment ∈ now, t ≤ moment)
    (hdst : dst ∈ TRANSITIONS job.state) :
    (∀ l r s', Solo (exec _redact_string) (operator_move job.job_id dst actor reason now) s l r s' →
      (∀ x ∈ l, x.outside.raises = none ∧ t ≤ x.outside.now) →
        (∃ moved, r = .ok moved ∧ moved.state = dst ∧ s'.jobs.find? job.job_id = some moved) ∧
          Chained s s' job dst) ↔ job.lease_owner = none := by
  have hfind : s.jobs.find? job.job_id = some job := Relational.Table.find?_key hjob
  constructor
  · intro hall
    obtain ⟨l, hsolo, hl⟩ := solo_quiet _redact_string
      (operator_move job.job_id dst actor reason now) { now := t } s rfl
    have hl : ∀ x ∈ l, x.outside.raises = none ∧ t ≤ x.outside.now := by
      intro x hx
      obtain ⟨ho, hraises⟩ := hl x hx
      exact ⟨hraises, by rw [ho]⟩
    obtain ⟨⟨moved, hr, -⟩, -⟩ := hall l _ _ hsolo hl
    have halone := operator_alone hfind hflight hexpires hnow hdst hl hsolo
    rw [hr] at halone
    cases howner : job.lease_owner with
    | none => rfl
    | some owner =>
      rw [howner, Option.isSome_some, if_pos rfl] at halone
      obtain ⟨text, htext⟩ := halone
      cases htext
  · intro howner l r s' hsolo hl
    have halone := operator_alone hfind hflight hexpires hnow hdst hl hsolo
    rw [howner, if_neg (by exact fun h => nomatch h)] at halone
    exact halone

/-! ## An orphan -/

theorem orphan_named : "render" ≠ "" := by decide

/-- A job that was running when its lease expired. -/
def orphan (owner : Option String) : Job where
  job_id := "render"
  tenant_id := "tenant"
  project_id := "project"
  kind := "visual_render"
  spec := .dict []
  spec_hash := "spec"
  state := .RUNNING
  logical_tick := 0
  version := 5
  lease_owner := owner
  lease_token := 1
  lease_expires_at := some 10
  attempts := 0
  max_attempts := 3
  recurrence_seconds := none
  next_due_at := 0
  failure_fingerprints := []
  bounded := by decide
  named := orphan_named

def orphaned (owner : Option String) : Store := { jobs := ⟨[orphan owner], List.nodup_singleton _⟩ }

/-- An orphan that nobody owns may be stopped. -/
theorem unowned_orphan_moves : (∀ l r s', Solo (exec id) (operator_move "render" .STOPPED "ada" "stuck" (some 20))
      (orphaned none) l r s' → (∀ x ∈ l, x.outside.raises = none ∧ 10 ≤ x.outside.now) →
        (∃ moved, r = .ok moved ∧ moved.state = .STOPPED ∧ s'.jobs.find? "render" = some moved) ∧
          Chained (orphaned none) s' (orphan none) .STOPPED) ↔ (orphan none).lease_owner = none :=
  operator_moves_iff (s := orphaned none) (t := 10) (List.mem_singleton_self _) (by decide) rfl
    (by rintro moment ⟨⟩; decide) (by decide)

/-- One that a worker owned is refused, whatever may follow its state: nothing is moved, and nothing is
    logged. -/
theorem owned_orphan_stays : orphan (some "worker") ∈ (orphaned (some "worker")).jobs ∧
    (orphan (some "worker")).state ∈ IN_FLIGHT ∧ (orphan (some "worker")).lease_expires_at = some 10 ∧
    RunState.STOPPED ∈ TRANSITIONS (orphan (some "worker")).state ∧
    ∃ l text, Solo (exec id) (operator_move "render" .STOPPED "ada" "stuck" (some 20)) (orphaned (some "worker")) l
        (.error (.stale_fence text)) (orphaned (some "worker")) ∧
      ∀ x ∈ l, x.outside.raises = none ∧ 10 ≤ x.outside.now := by
  refine ⟨List.mem_singleton_self _, by decide, rfl, by decide, ?_⟩
  obtain ⟨l, hsolo, hl⟩ := solo_quiet id
    (operator_move "render" .STOPPED "ada" "stuck" (some 20)) { now := 20 } (orphaned (some "worker")) rfl
  refine ⟨l, _, hsolo, fun x hx => ?_⟩
  obtain ⟨ho, hraises⟩ := hl x hx
  exact ⟨hraises, by rw [ho]; decide⟩

end Durable
