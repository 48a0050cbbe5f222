import MissionControl.Durable.Duties

/-! # Leases of jobs in flight

A job in flight can be claimed again once its lease has expired, so it must have one. A claim sets it, a
worker that goes on keeps it, and a release leaves flight. Only an operator who moves a job into `LEASED`
puts it in flight without a claim. -/

namespace Durable

open Canonical (Sha256)
open Interleaving Discipline
open Relational (Table)

/-! ## Claims -/

/-- The job can be claimed from some moment on: alone and without faults, a claim by its identifier takes
    it into `RECONCILING`. -/
def Reclaimable (_redact_string : String → String) (s : Store) (job : Job) : Prop :=
  ∃ t, job.lease_expires_at = some t ∧ ∀ now, t ≤ now → ∀ worker_id lease_seconds l r s',
    Solo (exec _redact_string) (claim_due_job worker_id now lease_seconds (some job.job_id) none) s l r s' →
      (∀ x ∈ l, x.outside.raises = none) →
        r = .ok (some (job.claim .RECONCILING worker_id (now + lease_seconds * SECOND), .RECONCILING))

variable {_redact_string : String → String} {s s' : Store} {job : Job}

variable {now : Instant}

theorem due_jobs_eq (hjob : job ∈ s.jobs) (hdue : job.due now = true) :
    s.due_jobs now (some job.job_id) none = [job] := by
  have hfilter : (s.jobs.rows.filter fun row =>
      row.due now && given (some job.job_id) row.job_id && given none row.project_id) = [job] := by
    refine Table.rows_filter_eq_singleton hjob ?_ fun row _ hrow => ?_
    · rw [hdue]
      simp [given]
    · have hgiven : given (some job.job_id) row.job_id = true := by
        rw [Bool.and_eq_true, Bool.and_eq_true] at hrow
        exact hrow.1.2
      unfold given at hgiven
      simp only [Option.all_some, Bool.or_eq_true, decide_eq_true_eq] at hgiven
      exact (hgiven.resolve_left job.named).symm
  unfold Store.due_jobs
  rw [hfilter]
  rfl

/-- **A job in flight with a lease can be claimed.** -/
theorem reclaimable_of_lease (hjob : job ∈ s.jobs) (hflight : job.state ∈ IN_FLIGHT)
    (hlease : job.lease_expires_at.isSome = true) : Reclaimable _redact_string s job := by
  obtain ⟨t, ht⟩ := Option.isSome_iff_exists.mp hlease
  refine ⟨t, ht, fun now hnow worker_id lease_seconds l r s' hsolo hl => ?_⟩
  have hdue : job.due now = true := by
    unfold Job.due
    rw [ht, decide_eq_true hflight]
    simp [hnow]
  have hentered : job.entered = .RECONCILING := if_pos hflight
  obtain ⟨o, l', rfl, ⟨a, s₁, hrun, hrest⟩ | ⟨e, hrun, -⟩⟩ := solo_ask hsolo hl
  · cases hrun
    rw [due_jobs_eq hjob hdue] at hrest
    unfold claimFirst at hrest
    rw [hentered, if_neg (not_not_intro (reconciling_of_inFlight hflight))] at hrest
    obtain ⟨o', l'', rfl, ⟨a, s₁, hrun', hrest'⟩ | ⟨e, hrun', -⟩⟩ :=
      solo_ask hrest fun x hx => hl x (List.mem_cons_of_mem _ hx)
    · have hclaim : s.claim_job job.job_id job.version job.state .RECONCILING worker_id now
          (now + lease_seconds * SECOND) = (a, s₁) := Except.ok.inj hrun'
      unfold Store.claim_job at hclaim
      rw [Table.find?_key hjob] at hclaim
      dsimp only at hclaim
      rw [if_pos rfl] at hclaim
      cases hclaim
      exact hrest'.of_ret.2.1
    · cases hrun'
  · cases hrun

/-! ## Runs -/

/-- The job is in flight with a lease, or not in flight. -/
def Leased (s : Store) : Prop :=
  ∀ job ∈ s.jobs, job.state ∈ IN_FLIGHT → job.lease_expires_at.isSome = true

/-- The handlers keep to their contract in this step. -/
def Contract (d : Deployment) (m : DurableStage) : DurableAction → Prop
  | .call _ c o => Honors c ((exec d._redact_string).answer c o m.world)
  | _ => True

/-- A job that has no lease is moved into `LEASED`. -/
def Strands (m : DurableStage) : DurableAction → Prop
  | .call _ (.move_job job_id fencing_token current dst _ _ _) o =>
    dst = .LEASED ∧ o.raises = none ∧ ∃ job, m.world.jobs.find? job_id = some job ∧
      job.lease_token = fencing_token ∧ job.state = current ∧ job.lease_expires_at = none
  | _ => False

/-- Every handler has kept to its contract so far. -/
def Honest (m : DurableStage) : Prop := ∀ x ∈ m.history, Honors x.call x.answer

theorem Honest.not_misled {m : DurableStage} (h : Honest m) (i : ℕ) : ¬ Misled i m := by
  rintro ⟨⟨c, ans⟩, hx, hnot⟩
  exact hnot (h _ (Stage.mem_own.mp hx))

variable {c : Call} {o : Outside} {i : ℕ} {m : DurableStage}

theorem find?_moved {job_id reason : String} {fencing_token : ℕ} {current dst : RunState} {fields : Fields}
    (ho : o.raises = none) (hjob : s.jobs.find? job_id = some job) (htoken : job.lease_token = fencing_token)
    (hstate : job.state = current) :
    (Exec.after (exec _redact_string) (.move_job job_id fencing_token current dst now reason fields) o s).jobs.find?
      job_id = some (job.move dst fields) := by
  have hmove : s.move_job job_id fencing_token current dst now reason fields = .ok (job.move dst fields, { s with
      jobs := s.jobs.update job_id (·.move dst fields) (Job.move_job_id dst fields)
      transitions := s.transitions ++ [⟨job_id, job.tenant_id, job.project_id, current, dst, fencing_token,
        (job.move dst fields).logical_tick, clip 500 reason, now⟩] }) := by
    unfold Store.move_job
    rw [hjob]
    exact if_pos ⟨htoken, hstate⟩
  have hrun : run _redact_string o s (.move_job job_id fencing_token current dst now reason fields) = .ok
      (job.move dst fields, { s with
        jobs := s.jobs.update job_id (·.move dst fields) (Job.move_job_id dst fields)
        transitions := s.transitions ++ [⟨job_id, job.tenant_id, job.project_id, current, dst, fencing_token,
          (job.move dst fields).logical_tick, clip 500 reason, now⟩] }) := hmove
  rw [Exec.after_of_ok ((exec_of_quiet _redact_string s _ ho).trans hrun)]
  show (s.jobs.update job_id (·.move dst fields) (Job.move_job_id dst fields)).find? job_id = _
  rw [Table.find?_update, if_pos rfl, hjob]
  rfl

/-- **One call keeps the leases** exactly when it strands no job. -/
theorem leased_call_iff (d : Deployment) (hm : Leased m.world) (hduty : Duty i c m) (hmisled : ¬ Misled i m) :
    ¬ Strands m (.call i c o) ↔ Leased (Exec.after (exec d._redact_string) c o m.world) := by
  constructor
  · intro hstrands job' hjob' hflight
    have hstep := jobStep d._redact_string c o m.world
    generalize hjobs : (Exec.after (exec d._redact_string) c o m.world).jobs = jobs at hstep hjob'
    cases hstep with
    | same => exact hm job' hjob' hflight
    | created hbound hnew =>
      rcases Table.mem_insert.mp hjob' with hjob' | rfl
      · exact hm job' hjob' hflight
      · exact absurd hflight (by show RunState.SCHEDULED ∉ IN_FLIGHT; decide)
    | claimed hjob hversion =>
      rcases (Table.mem_update _).mp hjob' with ⟨job, -, -, rfl⟩ | ⟨hjob', -⟩
      · rfl
      · exact hm job' hjob' hflight
    | renewed expires =>
      rcases (Table.mem_update _).mp hjob' with ⟨job, -, -, rfl⟩ | ⟨hjob', -⟩
      · rfl
      · exact hm job' hjob' hflight
    | @moved found job_id reason fencing_token current dst now fields hfound htoken hstate =>
      rcases (Table.mem_update _).mp hjob' with ⟨job, hjob, hid, rfl⟩ | ⟨hjob', -⟩
      · have heq : job = found := by
          have hfind := Table.find?_key hjob
          rw [hid, hfound] at hfind
          exact (Option.some.inj hfind).symm
        subst heq
        obtain ⟨hlegal, hmove⟩ := hduty
        -- a worker that keeps a job in flight leaves its lease alone
        have hfields : fields.lease_expires_at = none :=
          hmove.lease.resolve_right fun hgiven => hmisled (hgiven.2 hflight)
        show (fields.lease_expires_at.getD job.lease_expires_at).isSome = true
        rw [hfields, Option.getD_none]
        by_cases hbefore : job.state ∈ IN_FLIGHT
        · exact hm job hjob hbefore
        · rw [← hstate] at hlegal
          obtain ⟨hdst, -⟩ := leased_of_inFlight hlegal hflight hbefore
          by_contra hnone
          by_cases ho : o.raises = none
          · exact hstrands ⟨hdst, ho, job, hfound, htoken, hstate, by simpa using hnone⟩
          · -- a call that raises has moved nothing
            have hsame : (Exec.after (exec d._redact_string)
                (.move_job job_id fencing_token current dst now reason fields) o m.world) = m.world := by
              obtain ⟨name, hname⟩ := Option.ne_none_iff_exists'.mp ho
              refine Exec.after_of_error (e := .raised name) ?_
              unfold exec
              rw [hname]
            rw [hsame] at hjobs
            have hrow : (m.world.jobs.update job_id (Job.move dst fields) (Job.move_job_id dst fields)).find? job_id =
                (m.world.jobs.find? job_id).map (Job.move dst fields) :=
              (Table.find?_update _).trans (if_pos rfl)
            rw [← hjobs, hfound] at hrow
            have hself : job = job.move dst fields := Option.some.inj hrow
            have hstate' : job.state = dst := congrArg Job.state hself
            exact hbefore (hstate' ▸ hflight)
      · exact hm job' hjob' hflight
  · intro hafter hstrands
    cases c with
    | move_job job_id fencing_token current dst now reason fields =>
      obtain ⟨rfl, ho, job, hjob, htoken, hstate, hnone⟩ := hstrands
      have hfind : (Exec.after (exec d._redact_string)
          (.move_job job_id fencing_token current .LEASED now reason fields) o m.world).jobs.find? job_id =
            some (job.move .LEASED fields) := find?_moved ho hjob htoken hstate
      have hlease := hafter _ (Table.mem_of_find? hfind) (by show RunState.LEASED ∈ IN_FLIGHT; decide)
      have hfields : fields.lease_expires_at = none :=
        hduty.2.lease.resolve_right fun hgiven => hmisled (hgiven.2 (by decide))
      have hgone : (job.move .LEASED fields).lease_expires_at = none := by
        show fields.lease_expires_at.getD job.lease_expires_at = none
        rw [hfields, hnone]
        rfl
      rw [hgone] at hlease
      cases hlease
    | _ => exact hstrands

section Runs

variable [Sha256] {d : Deployment} {w : Store}

variable {pool : Pool DurableCalls Store} {steps : List (DurableStage × DurableAction)}

theorem honest_of_run (run : Run (runtime d) w steps pool) (hcontract : Meets (Contract d) steps)
    {m : DurableStage} (hm : m ∈ visited steps pool) : Honest m := by
  refine run.steps_of_meets (C := Contract d) (P := Honest) (fun x hx => nomatch hx) ?_ (fun m w' _ h => absurd h id)
    hcontract hm
  intro m i c o hhonest hanswer x hx
  rcases List.mem_append.mp hx with hx | hx
  · exact hhonest x hx
  · rw [List.mem_singleton.mp hx]
    exact hanswer

/-- **Jobs in flight are leased** in every stage of a run exactly when no step of it strands a job. -/
theorem leased_iff (hw : Leased w) (run : Run (runtime d) w steps pool) (hcontract : Meets (Contract d) steps) :
    (∀ m ∈ visited steps pool, Leased m.world) ↔ Meets (fun m a => ¬ Strands m a) steps := by
  have hiff := run_always_iff (covers (d := d)) (K := fun m a => Honest m ∧ Contract d m a → ¬ Strands m a)
    (J := fun _ => True) (P := fun m => Honest m → Leased m.world) trivial trivial (fun _ => hw)
    (fun m p _ h => h) (fun _ _ _ _ _ _ _ => trivial) ?_ (fun _ _ _ _ => trivial) (fun m w' _ h => absurd h id) run
  · constructor
    · intro h x hx
      obtain ⟨m, a⟩ := x
      have hmeets := hiff.mp (fun m hm _ => h m hm) _ hx
      have hm : m ∈ visited steps pool := List.mem_append_left _ (List.mem_map_of_mem hx)
      exact hmeets ⟨honest_of_run run hcontract hm, hcontract _ hx⟩
    · intro h m hm
      exact hiff.mpr (fun x hx _ => h x hx) m hm (honest_of_run run hcontract hm)
  · intro m i c o _ hduty hm
    have hhonest : Honest (m.perform (runtime d).exec i c o) ↔ Honest m ∧ Contract d m (.call i c o) := by
      constructor
      · intro h
        exact ⟨fun x hx => h x (List.mem_append_left _ hx),
          h ⟨i, c, _⟩ (List.mem_append_right _ (List.mem_singleton_self _))⟩
      · rintro ⟨h, hanswer⟩ x hx
        rcases List.mem_append.mp hx with hx | hx
        · exact h x hx
        · rw [List.mem_singleton.mp hx]
          exact hanswer
    have hcall : ∀ h : Honest m, ¬ Strands m (.call i c o) ↔ Leased (m.perform (runtime d).exec i c o).world :=
      fun h => leased_call_iff d (hm h) hduty (h.not_misled i)
    constructor
    · intro h hafter
      exact (hcall (hhonest.mp hafter).1).mp (h (hhonest.mp hafter))
    · intro h hboth
      exact (hcall hboth.1).mpr (h (hhonest.mpr hboth))

/-- **Jobs in flight can be claimed again.** In every stage of a run each job in flight has a lease, and a
    claim takes it once that has expired, exactly when no step moves a job without a lease into `LEASED`. -/
theorem in_flight_reclaimable_iff (hw : Leased w) {steps : List (DurableStage × DurableAction)}
    {pool : Pool DurableCalls Store} (run : Run (runtime d) w steps pool) (hcontract : Meets (Contract d) steps) :
    (∀ m ∈ visited steps pool, ∀ job ∈ m.world.jobs, job.state ∈ IN_FLIGHT →
      job.lease_expires_at.isSome = true ∧ Reclaimable d._redact_string m.world job) ↔
        Meets (fun m a => ¬ Strands m a) steps := by
  rw [← leased_iff hw run hcontract]
  constructor
  · intro h m hm job hjob hflight
    exact (h m hm job hjob hflight).1
  · intro h m hm job hjob hflight
    have hlease := h m hm job hjob hflight
    exact ⟨hlease, reclaimable_of_lease hjob hflight hlease⟩

end Runs

/-! ## A stranded job -/

section Stranded

attribute [local instance] Canonical.plainHash

def plain : Deployment := ⟨fun _ => none, id⟩

/-- The job is created, and by worker 1 the request is served. -/
def createdThen (request : Request) (calls : ℕ) : List (Move DurableCalls Store Outside) :=
  [.start ((Request.create_job render).program plain), .call 0 {}, .start (request.program plain)] ++
    List.replicate calls (.call 1 {})

theorem createdThen_allowed (request : Request) (calls : ℕ) :
    ∀ x ∈ createdThen request calls, x.Allowed (runtime plain) := by
  intro x hx
  simp only [createdThen, List.mem_append, List.mem_cons, List.not_mem_nil, or_false] at hx
  rcases hx with (rfl | rfl | rfl) | hx
  · exact ⟨_, rfl⟩
  · trivial
  · exact ⟨_, rfl⟩
  · rw [List.eq_of_mem_replicate hx]
    trivial

def afterCreated (request : Request) (calls : ℕ) : List (DurableStage × DurableAction) × Pool DurableCalls Store :=
  play (runtime plain) (Pool.init {}) (createdThen request calls)

theorem run_afterCreated (request : Request) (calls : ℕ) :
    Run (runtime plain) {} (afterCreated request calls).1 (afterCreated request calls).2 :=
  play_run (createdThen_allowed request calls)

def claimed : Request := .claim_due_job "worker" 20 900 none none

def forced : Request := .operator_move "render" .LEASED "ada" "now" (some 20)

instance (c : Call) : (ans : DurableCalls.Answer c) → Decidable (Honors c ans) := fun ans => by
  unfold Honors
  split <;> infer_instance

instance (m : DurableStage) : (a : DurableAction) → Decidable (Contract plain m a)
  | .call _ c o => inferInstanceAs (Decidable (Honors c ((exec plain._redact_string).answer c o m.world)))
  | .start _ => .isTrue trivial
  | .env _ => .isTrue trivial

/-- A job that a worker has claimed can be claimed again. -/
theorem claimed_job_reclaimable :
    (∀ m ∈ visited (afterCreated claimed 2).1 (afterCreated claimed 2).2, ∀ job ∈ m.world.jobs,
      job.state ∈ IN_FLIGHT → job.lease_expires_at.isSome = true ∧ Reclaimable id m.world job) ↔
        Meets (fun m a => ¬ Strands m a) (afterCreated claimed 2).1 :=
  in_flight_reclaimable_iff (d := plain) (fun _ hjob => absurd hjob List.not_mem_nil)
    (run_afterCreated claimed 2) (by decide +kernel)

/-- An operator moves a job that has just been created into `LEASED`: it is in flight and has no lease, in a
    run that breaks no contract. -/
theorem forced_job_stranded : ∃ steps pool, Run (runtime plain) {} steps pool ∧ Meets (Contract plain) steps ∧
    ∃ job ∈ pool.stage.world.jobs, job.state ∈ IN_FLIGHT ∧ job.lease_expires_at = none :=
  ⟨_, _, run_afterCreated forced 3, by decide +kernel, (render.row (by decide)).move .LEASED {},
    List.mem_singleton_self _, by show RunState.LEASED ∈ IN_FLIGHT; decide, rfl⟩

end Stranded

end Durable
