import MissionControl.Durable.Ticks
import MissionControl.Interleaving.Discipline

/-! # What the workers of the runtime owe

`JobStep` is what one call does to the jobs. A worker owes a move that is legal, that gives a lease up
only with a state it was told by its handler or that is not in flight, and that counts an attempt only
below the bound of the job (`MoveDuty`); every program of the runtime keeps to that (`covers`). -/

namespace Durable

open Canonical (Sha256)
open Interleaving Discipline
open Relational (Table)

abbrev Jobs : Type := Table Job String Job.job_id

/-! ## Jobs -/

/-- **What a call does to the jobs.** -/
inductive JobStep (s : Store) : Call → Jobs → Prop
  | same {c : Call} : JobStep s c s.jobs
  | created {input : CreateJob} (h : 1 ≤ input.max_attempts ∧ input.max_attempts ≤ 3)
      (hnew : s.jobs.find? (input.row h).job_id = none) :
      JobStep s (.create_job input) (s.jobs.insert (input.row h) hnew)
  | claimed {job : Job} {job_id worker_id : String} {version : ℕ} {current entered : RunState} {now expires : Instant}
      (hjob : s.jobs.find? job_id = some job) (hversion : job.version = version) :
      JobStep s (.claim_job job_id version current entered worker_id now expires)
        (s.jobs.update job_id (·.claim entered worker_id expires) (Job.claim_job_id entered worker_id expires))
  | moved {job : Job} {job_id reason : String} {fencing_token : ℕ} {current dst : RunState} {now : Instant}
      {fields : Fields} (hjob : s.jobs.find? job_id = some job) (htoken : job.lease_token = fencing_token)
      (hstate : job.state = current) :
      JobStep s (.move_job job_id fencing_token current dst now reason fields)
        (s.jobs.update job_id (·.move dst fields) (Job.move_job_id dst fields))
  | renewed {job_id worker_id : String} {fencing_token lease_seconds : ℕ} {now : Instant} (expires : Instant) :
      JobStep s (.renew_lease job_id worker_id fencing_token now lease_seconds)
        (s.jobs.update job_id (·.renew expires) (Job.renew_job_id expires))

variable {_redact_string : String → String} {s s' : Store} {c : Call} {o : Outside}

variable {job_id : String} {fencing_token : ℕ} {now : Instant}

theorem jobs_settle_intent {key refusal : String} {status : IntentStatus} {receipt : Python.Object} {r : Unit}
    (h : s.settle_intent key job_id fencing_token now status receipt refusal = .ok (r, s')) : s'.jobs = s.jobs := by
  unfold Store.settle_intent at h
  simp only [bind, Except.bind] at h
  split at h
  · cases h
  · split at h
    · cases h
      rfl
    · cases h

variable {r : c.Resp}

theorem jobStep_run (h : run _redact_string o s c = .ok (r, s')) : JobStep s c s'.jobs := by
  cases c with
  | claim_job job_id version current entered worker_id now expires =>
    replace h : (s.claim_job job_id version current entered worker_id now expires) = (r, s') := Except.ok.inj h
    unfold Store.claim_job at h
    split at h
    · rename_i job hjob
      split at h
      · rename_i hversion
        cases h
        exact .claimed hjob hversion
      · cases h
        exact .same
    · cases h
      exact .same
  | move_job job_id fencing_token current dst now reason fields =>
    replace h : s.move_job job_id fencing_token current dst now reason fields = .ok (r, s') := h
    unfold Store.move_job at h
    split at h
    · rename_i job hjob
      split at h
      · rename_i hcas
        cases h
        exact .moved hjob hcas.1 hcas.2
      · cases h
    · cases h
  | create_job input =>
    replace h : s.create_job input o.now = .ok (r, s') := h
    unfold Store.create_job at h
    split at h
    · split at h
      · cases h
      · cases h
        exact .same
    · rename_i hnew
      split at h
      · rename_i hbound
        cases h
        exact .created hbound hnew
      · cases h
  | renew_lease job_id worker_id fencing_token now lease_seconds =>
    replace h : s.renew_lease job_id worker_id fencing_token now lease_seconds = .ok (r, s') := h
    unfold Store.renew_lease at h
    split at h
    · cases h
    · split at h
      · cases h
      · split at h
        · cases h
        · cases h
          exact .renewed _
  | reserve_intent input =>
    replace h : s.reserve_intent input = .ok (r, s') := h
    have hjobs : s'.jobs = s.jobs := by
      unfold Store.reserve_intent at h
      dsimp only at h
      split at h
      · cases h
      · split at h
        · cases h
        · split at h
          · cases h
            rfl
          · cases h
            rfl
    exact hjobs ▸ .same
  | mark_intent_unconfirmed key job_id fencing_token now error_class => exact jobs_settle_intent h ▸ .same
  | settle_intent_failed key job_id fencing_token now receipt =>
    replace h : (if receipt.hasText "status" "FAILED" then
      s.settle_intent key job_id fencing_token now .FAILED (redact_value _redact_string receipt)
        "intent was already settled or out of scope"
      else .error (.value "authoritative FAILED receipt required")) = .ok (r, s') := h
    split at h
    · exact jobs_settle_intent h ▸ .same
    · cases h
  | commit_intent key receipt fencing_token job_id now => exact jobs_settle_intent h ▸ .same
  | _ =>
    cases h
    exact .same

theorem run_of_answer (h : (exec _redact_string).answer c o s = .ok r) :
    run _redact_string o s c = .ok (r, (exec _redact_string).after c o s) := by
  have hexec : exec _redact_string c o s = .ok (r, _) := Exec.of_answer h
  unfold exec at hexec
  split at hexec
  · cases hexec
  · exact hexec

theorem jobStep (_redact_string : String → String) (c : Call) (o : Outside) (s : Store) :
    JobStep s c (Exec.after (exec _redact_string) c o s).jobs := by
  cases hanswer : (exec _redact_string).answer c o s with
  | ok r => exact jobStep_run (run_of_answer hanswer)
  | error e =>
    rw [Exec.after_of_answer_error hanswer]
    exact .same

/-! ## Rows stay -/

/-- The rows there are stay, each with its bound on the attempts. -/
def Extends (s s' : Store) : Prop :=
  ∀ job_id row, s.jobs.find? job_id = some row →
    ∃ row', s'.jobs.find? job_id = some row' ∧ row'.max_attempts = row.max_attempts

theorem Extends.refl (s : Store) : Extends s s := fun _ row h => ⟨row, h, rfl⟩

theorem Extends.trans {s₁ s₂ s₃ : Store} (h : Extends s₁ s₂) (h' : Extends s₂ s₃) : Extends s₁ s₃ := by
  intro job_id row hrow
  obtain ⟨row₂, hrow₂, hmax₂⟩ := h job_id row hrow
  obtain ⟨row₃, hrow₃, hmax₃⟩ := h' job_id row₂ hrow₂
  exact ⟨row₃, hrow₃, hmax₃.trans hmax₂⟩

variable {jobs : Jobs}

theorem extends_update {f : Job → Job} (hf : ∀ job, (f job).job_id = job.job_id)
    (hmax : ∀ job, (f job).max_attempts = job.max_attempts) {id : String} {row : Job}
    (h : jobs.find? id = some row) :
    ∃ row', (jobs.update job_id f hf).find? id = some row' ∧ row'.max_attempts = row.max_attempts := by
  rw [Table.find?_update]
  split
  · exact ⟨f row, by rw [h]; rfl, hmax row⟩
  · exact ⟨row, h, rfl⟩

theorem JobStep.extends (h : JobStep s c jobs) (hjobs : s'.jobs = jobs) : Extends s s' := by
  intro job_id row hrow
  rw [hjobs]
  cases h with
  | same => exact ⟨row, hrow, rfl⟩
  | created hbound hnew =>
    refine ⟨row, ?_, rfl⟩
    rw [Table.find?_insert]
    split
    · rename_i hid
      rw [hid, hrow] at hnew
      cases hnew
    · exact hrow
  | claimed => exact extends_update (Job.claim_job_id _ _ _) (fun _ => rfl) hrow
  | moved => exact extends_update (Job.move_job_id _ _) (fun _ => rfl) hrow
  | renewed expires => exact extends_update (Job.renew_job_id expires) (fun _ => rfl) hrow

theorem extends_after (_redact_string : String → String) (c : Call) (o : Outside) (s : Store) :
    Extends s (Exec.after (exec _redact_string) c o s) :=
  (jobStep _redact_string c o s).extends rfl

/-! ## Duties -/

/-- The handler keeps to its contract: a state it gives is not in flight. -/
def Honors : (c : Call) → DurableCalls.Answer c → Prop
  | .precheck _, .ok (some blocked, _) => blocked ∉ IN_FLIGHT
  | .dispatch _, .ok dispatched => ∀ blocked ∈ dispatched.blocked_state, blocked ∉ IN_FLIGHT
  | .on_commit .., .ok (final_state, _) => final_state ∉ IN_FLIGHT
  | _, _ => True

/-- The worker has been given a state by a handler that did not keep to its contract. -/
def Misled (i : ℕ) (m : DurableStage) : Prop := ∃ x ∈ m.own i, ¬ Honors x.1 x.2

/-- What becomes of the lease, and of the count of attempts, in a move. -/
structure MoveDuty (i : ℕ) (m : DurableStage) (job_id : String) (dst : RunState) (fields : Fields) : Prop where
  lease : fields.lease_expires_at = none ∨
    fields.lease_expires_at = some none ∧ (dst ∈ IN_FLIGHT → Misled i m)
  counted : ∀ a, fields.attempts = some a → a = 0 ∧ fields.logical_tick.isSome = true ∨ dst = .DEAD_LETTER ∨
    dst = .RETRY_PENDING ∧ ∀ row, m.world.jobs.find? job_id = some row → a < row.max_attempts
  ticked : fields.logical_tick.isSome = true → fields.attempts = some 0

def Duty (i : ℕ) (c : Call) (m : DurableStage) : Prop :=
  match c with
  | .move_job job_id _ current dst _ _ fields => dst ∈ TRANSITIONS current ∧ MoveDuty i m job_id dst fields
  | _ => True

/-- The worker has a copy of a row. -/
def Known (job : Job) (m : DurableStage) : Prop :=
  ∃ row, m.world.jobs.find? job.job_id = some row ∧ row.max_attempts = job.max_attempts

variable {job : Job}

theorem Known.of_extends {m : DurableStage} (h : s.jobs.find? job.job_id = some job) (hext : Extends s m.world) :
    Known job m :=
  hext _ _ h

/-- What a move promises, whatever happens before it. -/
structure Promise (i : ℕ) (m : DurableStage) (job : Job) (dst : RunState) (fields : Fields) : Prop where
  lease : fields.lease_expires_at = none ∨ fields.lease_expires_at = some none ∧ (dst ∈ IN_FLIGHT → Misled i m)
  counted : ∀ a, fields.attempts = some a → a = 0 ∧ fields.logical_tick.isSome = true ∨ dst = .DEAD_LETTER ∨
    dst = .RETRY_PENDING ∧ a < job.max_attempts ∧ Known job m
  ticked : fields.logical_tick.isSome = true → fields.attempts = some 0

theorem Promise.plain {i : ℕ} {m : DurableStage} (job : Job) (dst : RunState) : Promise i m job dst {} where
  lease := .inl rfl
  counted _ ha := nomatch ha
  ticked h := nomatch h

theorem MoveDuty.plain {i : ℕ} {m : DurableStage} (job_id : String) (dst : RunState) (due : Option Instant) :
    MoveDuty i m job_id dst { next_due_at := due } where
  lease := .inl rfl
  counted _ ha := nomatch ha
  ticked h := nomatch h

variable {fields : Fields} {dst : RunState} {reason : String}

theorem find?_move_job {current : RunState}
    (h : s.move_job job_id fencing_token current dst now reason fields = .ok (job, s')) :
    s'.jobs.find? job.job_id = some job := by
  unfold Store.move_job at h
  split at h
  · rename_i found hfound
    split at h
    · cases h
      show (s.jobs.update job_id _ (Job.move_job_id dst fields)).find? found.job_id = _
      rw [Table.find?_update, Table.key_of_find? hfound, if_pos rfl, hfound]
      rfl
    · cases h
  · cases h

variable [Sha256] {d : Deployment}

/-- The workers of the runtime. -/
def discipline (d : Deployment) : Discipline (runtime d) where
  Pre := Duty
  Ext := Extends
  Inv _ := True
  ext_refl := .refl
  ext_trans := .trans
  ext_call o _ _ := extends_after d._redact_string _ o _
  ext_env h := h.elim
  inv_call _ _ _ := trivial
  inv_env _ h := h.elim

variable {i : ℕ} {m m' : DurableStage} {α β : Type}

/-- From `m` to `m'` worker `i` went on. -/
abbrev Went (d : Deployment) (i : ℕ) (m m' : DurableStage) : Prop :=
  (discipline d).Went (fun _ => True) i m m'

/-- **The program keeps the duties** of worker `i` from `m` on, and what it returns satisfies `P`. -/
def Keeps (d : Deployment) (i : ℕ) (m : DurableStage) (P : α → DurableStage → Prop) (p : DurableProgram α) : Prop :=
  (discipline d).Safe i ((discipline d).Ends (fun _ => True) i m (Returns P)) p m

variable {P : α → DurableStage → Prop} {Q : β → DurableStage → Prop}

theorem Keeps.bind {p : DurableProgram α} {f : α → DurableProgram β} (hp : Keeps d i m P p)
    (hf : ∀ a m', Went d i m m' → P a m' → Keeps d i m' Q (f a)) : Keeps d i m Q (p.bind f) :=
  Safe.seq hp hf

theorem keeps_ret {a : α} (h : ∀ m', Went d i m m' → P a m') : Keeps d i m P (Program.ret a) :=
  Safe.done fun m' hm => h m' hm.went

theorem keeps_raise {e : Err} : Keeps d i m P (Program.raise e) := Safe.fails

theorem Keeps.mono {P' : α → DurableStage → Prop} {p : DurableProgram α} (hp : Keeps d i m P p)
    (h : ∀ a m', Went d i m m' → P a m' → P' a m') : Keeps d i m P' p :=
  Ends.mono hp fun r m' hwent hr => by
    cases r with
    | ok a => exact h a m' hwent hr
    | error e => trivial

theorem keeps_ask (hduty : ∀ m', Went d i m m' → Duty i c m') : Keeps d i m (fun a m' =>
    ⟨c, .ok a⟩ ∈ m'.own i ∧ ∃ s, ∃ o, run d._redact_string o s c = .ok (a, Exec.after (exec d._redact_string) c o s) ∧
      Extends (Exec.after (exec d._redact_string) c o s) m'.world) (ask c) := by
  refine Safe.mono (Safe.one (D := discipline d) (R := fun _ => True) trivial fun m' hm =>
    hduty m' hm.went) ?_
  rintro r m' ⟨hwent, hown, m₁, o, -, -, hanswer, hext⟩
  refine ⟨hwent, ?_⟩
  cases r with
  | error e => trivial
  | ok a =>
    refine ⟨?_, m₁.world, o, run_of_answer hanswer, hext⟩
    rw [hown]
    exact List.mem_append_right _ (List.mem_singleton_self _)

theorem keeps_free (hfree : ∀ i m, Duty i c m) : Keeps d i m (fun a m' => ⟨c, .ok a⟩ ∈ m'.own i) (ask c) :=
  (keeps_ask fun m' _ => hfree i m').mono fun _ _ _ h => h.1

theorem quits_free (hfree : ∀ i m, Duty i c m) : Keeps d i m (fun _ _ => True) (ask c) :=
  (keeps_free hfree).mono fun _ _ _ _ => trivial

theorem keeps_attempt (hfree : ∀ i m, Duty i c m) {f : Except Err c.Resp → DurableProgram β}
    (hok : ∀ a m', Went d i m m' → ⟨c, .ok a⟩ ∈ m'.own i → Keeps d i m' Q (f (.ok a)))
    (herr : ∀ e m', Went d i m m' → Keeps d i m' Q (f (.error e))) :
    Keeps d i m Q ((Program.attempt (ask c)).bind f) := by
  refine Safe.seq_attempt (keeps_free hfree) fun r m' hwent hr => ?_
  cases r with
  | ok a => exact hok a m' hwent hr
  | error e => exact herr e m' hwent

/-! ## What a worker knows -/

theorem Misled.went (h : Misled i m) (hwent : Went d i m m') : Misled i m' := by
  obtain ⟨x, hx, hnot⟩ := h
  exact ⟨x, hwent.prefix.subset hx, hnot⟩

theorem Known.went (h : Known job m) (hwent : Went d i m m') : Known job m' := by
  obtain ⟨row, hrow, hmax⟩ := h
  obtain ⟨row', hrow', hmax'⟩ := hwent.ext _ _ hrow
  exact ⟨row', hrow', hmax'.trans hmax⟩

/-! ## Moves -/

theorem Promise.duty (h : Promise i m job dst fields) (hwent : Went d i m m') :
    MoveDuty i m' job.job_id dst fields where
  lease := h.lease.imp_right fun hlease => ⟨hlease.1, fun hdst => (hlease.2 hdst).went hwent⟩
  counted a ha := by
    refine (h.counted a ha).imp_right (Or.imp_right ?_)
    rintro ⟨hdst, hlt, hknown⟩
    refine ⟨hdst, fun row hrow => ?_⟩
    obtain ⟨row', hrow', hmax⟩ := hknown.went hwent
    rw [hrow] at hrow'
    cases hrow'
    rwa [hmax]
  ticked := h.ticked

theorem Promise.went (h : Promise i m job dst fields) (hwent : Went d i m m') : Promise i m' job dst fields where
  lease := h.lease.imp_right fun hlease => ⟨hlease.1, fun hdst => (hlease.2 hdst).went hwent⟩
  counted a ha := (h.counted a ha).imp_right (Or.imp_right fun hcount => ⟨hcount.1, hcount.2.1, hcount.2.2.went hwent⟩)
  ticked := h.ticked

theorem keeps_transition (h : ∀ m', Went d i m m' → MoveDuty i m' job_id dst fields) :
    Keeps d i m Known (transition job_id dst fencing_token now reason fields) := by
  refine Keeps.bind (keeps_free fun _ _ => trivial) fun current m₁ hwent _ => ?_
  cases current with
  | none => exact keeps_raise
  | some current =>
    dsimp only
    split
    · exact keeps_raise
    split
    · exact keeps_raise
    split
    · exact keeps_raise
    rename_i hlegal
    refine Keeps.mono (keeps_ask fun m₂ hwent₂ => ?_) ?_
    · exact ⟨of_not_not hlegal, h m₂ (hwent.trans hwent₂)⟩
    · rintro moved m₂ - ⟨-, s, o, hrun, hext⟩
      exact Known.of_extends (find?_move_job hrun) hext

variable {token : ℕ}

theorem keeps_move (h : Promise i m job dst fields) : Keeps d i m Known (move token job dst reason fields) :=
  Keeps.bind (keeps_free fun _ _ => trivial) fun _ _ hwent _ =>
    keeps_transition fun _ hwent' => h.duty (hwent.trans hwent')

/-- The programs of ticks whose result says nothing. -/
abbrev Quits (d : Deployment) (i : ℕ) (m : DurableStage) (p : DurableProgram α) : Prop :=
  Keeps d i m (fun _ _ => True) p

variable {report : TickReport}

variable {retry : Bool} {reasons : List String}

/-- **Giving the lease up.** -/
theorem quits_release (hdst : dst ∈ IN_FLIGHT → Misled i m)
    (hcounted : ∀ a, fields.attempts = some a → a = 0 ∧ fields.logical_tick.isSome = true ∨ dst = .DEAD_LETTER ∨
      dst = .RETRY_PENDING ∧ a < job.max_attempts ∧ Known job m)
    (hticked : fields.logical_tick.isSome = true → fields.attempts = some 0) :
    Quits d i m (release token report job dst reasons retry fields) := by
  refine Keeps.bind (keeps_free fun _ _ => trivial) fun now m₁ hwent _ => ?_
  refine Keeps.bind (keeps_move (Promise.went ⟨.inr ⟨rfl, hdst⟩, hcounted, hticked⟩ hwent)) fun _ _ _ _ => ?_
  exact keeps_ret fun _ _ => trivial

theorem quits_release_plain (hdst : dst ∈ IN_FLIGHT → Misled i m) :
    Quits d i m (release token report job dst reasons retry) :=
  quits_release hdst (fun _ ha => nomatch ha) fun h => nomatch h

/-! ## A tick -/

variable {t : Tick}

theorem quits_fail (hknown : Known job m) : Quits d i m (fail t report job reason) := by
  refine Keeps.bind (keeps_free fun _ _ => trivial) fun env m₁ hwent₁ _ => ?_
  refine Keeps.bind (keeps_free fun _ _ => trivial) fun now m₂ hwent₂ _ => ?_
  have hknown₂ := (hknown.went hwent₁).went hwent₂
  dsimp only
  split
  · rename_i hretry
    refine quits_release (fun h => absurd h (by decide)) (fun a ha => .inr (.inr ⟨rfl, ?_, hknown₂⟩)) fun h => nomatch h
    cases ha
    exact lt_of_lt_of_le hretry.2.1 (min_le_right _ _)
  · exact quits_release (fun h => absurd h (by decide)) (fun a ha => .inr (.inl rfl)) fun h => nomatch h

/-- What a tick knows where it goes on. -/
def Reached.Knows : Reached → DurableStage → Prop
  | .done _, _ => True
  | .dispatching _ job, m | .observed _ job _, m => Known job m

theorem quits_reserve : Quits d i m (reserve t job) := by
  refine Keeps.bind (keeps_free fun _ _ => trivial) fun _ _ _ _ => ?_
  refine Keeps.bind (keeps_free fun _ _ => trivial) fun _ _ _ _ => ?_
  exact quits_free fun _ _ => trivial

theorem quits_markUnconfirmed {error_class : String} : Quits d i m (markUnconfirmed t job error_class) := by
  refine Keeps.bind (keeps_free fun _ _ => trivial) fun _ _ _ _ => ?_
  exact quits_free fun _ _ => trivial

theorem keeps_step {f : Job → DurableProgram β}
    (hf : ∀ job m', Went d i m m' → Known job m' → Keeps d i m' Q (f job)) :
    Keeps d i m Q ((move token job dst reason).bind f) :=
  Keeps.bind (keeps_move (.plain job dst)) hf

theorem keeps_done {p : DurableProgram TickReport} (hp : Quits d i m p) :
    Keeps d i m Reached.Knows (p.bind fun report => Program.ret (.done report)) :=
  Keeps.bind hp fun _ _ _ _ => keeps_ret fun _ _ => trivial

theorem keeps_probe {intent : Intent} : Keeps d i m Reached.Knows (probe t report job intent) := by
  refine keeps_attempt (by exact fun _ _ => trivial) (fun answer m₁ hwent _ => ?_) fun e m₁ hwent => ?_
  · split
    · rename_i heq
      cases heq
    · exact keeps_step fun job m₂ _ hknown => keeps_ret fun m₃ hwent₃ => hknown.went hwent₃
    · split
      · exact keeps_step fun job m₂ _ hknown => keeps_ret fun m₃ hwent₃ => hknown.went hwent₃
      · split
        · refine Keeps.bind (keeps_free fun _ _ => trivial) fun _ _ _ _ => ?_
          refine Keeps.bind (keeps_free fun _ _ => trivial) fun _ _ _ _ => ?_
          exact keeps_done (quits_release_plain fun h => absurd h (by decide))
        · exact Keeps.bind quits_markUnconfirmed fun _ _ _ _ => keeps_ret fun _ _ => trivial
  · exact Keeps.bind quits_markUnconfirmed fun _ _ _ _ => keeps_ret fun _ _ => trivial

theorem keeps_resume : Keeps d i m Reached.Knows (resume t report job) := by
  refine Keeps.bind (keeps_free fun _ _ => trivial) fun intent m₁ _ _ => ?_
  cases intent with
  | none =>
    refine keeps_step fun job m₂ _ hknown => ?_
    refine Keeps.bind quits_reserve fun _ m₃ hwent₃ _ => ?_
    exact keeps_ret fun m₄ hwent₄ => (hknown.went hwent₃).went hwent₄
  | some intent =>
    dsimp only
    split
    · split
      · exact keeps_done (quits_release_plain fun h => absurd h (by decide))
      · exact keeps_done (quits_release_plain fun h => absurd h (by decide))
      · exact keeps_step fun job m₂ _ hknown => keeps_ret fun m₃ hwent₃ => hknown.went hwent₃
    · exact keeps_done (quits_release_plain fun h => absurd h (by decide))
    · exact keeps_done (quits_release_plain fun h => absurd h (by decide))
    · exact keeps_probe
    · exact keeps_probe

theorem keeps_begin : Keeps d i m Reached.Knows (begin t report job) := by
  refine keeps_step fun job m₁ _ _ => ?_
  refine Keeps.bind (keeps_free fun _ _ => trivial) fun answer m₂ _ hmem => ?_
  obtain ⟨blocked | _, reasons⟩ := answer
  · refine keeps_step fun job m₃ _ hknown₃ => ?_
    refine Keeps.bind quits_reserve fun reserved m₄ hwent₄ _ => ?_
    obtain ⟨intent, created⟩ := reserved
    dsimp only
    split
    · exact keeps_ret fun m₅ hwent₅ => (hknown₃.went hwent₄).went hwent₅
    · exact keeps_step fun job m₅ _ _ => keeps_resume
  · -- the state is the handler's
    exact keeps_done (quits_release_plain fun hflight => ⟨_, hmem, fun hhonors => hhonors hflight⟩)

theorem keeps_dispatchJob : Keeps d i m Reached.Knows (dispatchJob t report job) := by
  refine keeps_step fun job m₁ _ hknown => ?_
  refine keeps_attempt (by exact fun _ _ => trivial) (fun dispatched m₂ hwent₂ hmem => ?_) fun e m₂ hwent₂ => ?_
  · dsimp only
    split
    · rename_i blocked hblocked
      exact keeps_done (quits_release_plain fun hflight => ⟨_, hmem, fun hhonors => hhonors blocked hblocked hflight⟩)
    · split
      · exact keeps_done (quits_fail (hknown.went hwent₂))
      · refine keeps_step fun job m₃ _ hknown₃ => ?_
        refine keeps_attempt (by exact fun _ _ => trivial) (fun observation m₄ hwent₄ _ => ?_) fun e m₄ _ => ?_
        · exact keeps_ret fun m₅ hwent₅ => (hknown₃.went hwent₄).went hwent₅
        · exact keeps_step fun job m₅ _ _ => keeps_done (quits_release_plain fun h => absurd h (by decide))
  · refine Keeps.bind quits_markUnconfirmed fun _ _ _ _ => ?_
    exact keeps_step fun job m₃ _ _ => keeps_ret fun _ _ => trivial

variable {observation : Python.Object}

theorem quits_commit {verification : Python.Object} :
    Quits d i m (commit t report job observation verification) := by
  refine keeps_step fun job m₁ _ _ => ?_
  refine Keeps.bind (keeps_free fun _ _ => trivial) fun committed m₂ _ _ => ?_
  refine Keeps.bind (keeps_free fun _ _ => trivial) fun current m₃ _ _ => ?_
  -- the intent is committed, or was before
  have hrest : ∀ m, Quits d i m ((ask (.on_commit job observation verification)).bind fun x =>
      (ask .clock).bind fun now => (move t.token job x.1 "committed"
        { logical_tick := some t.tick_n
          attempts := some 0
          lease_owner := some none
          lease_expires_at := some none
          next_due_at := some (now + job.recurrence_seconds.getD 0 * SECOND) }).bind fun _ =>
        Program.ret { report with outcome := "COMMITTED", final_state := some x.1.value }) := by
    intro m
    refine Keeps.bind (keeps_free fun _ _ => trivial) fun x m₄ _ hmem => ?_
    refine Keeps.bind (keeps_free fun _ _ => trivial) fun now m₅ hwent₅ _ => ?_
    refine Keeps.bind (keeps_move ⟨.inr ⟨rfl, fun hflight => ?_⟩, fun a ha => .inl ⟨?_, rfl⟩, fun _ => rfl⟩) fun _ _ _ _ =>
      keeps_ret fun _ _ => trivial
    · exact Misled.went ⟨_, hmem, fun hhonors => hhonors hflight⟩ hwent₅
    · exact (Option.some.inj ha).symm
  dsimp only
  split
  · refine Keeps.bind (keeps_free fun _ _ => trivial) fun now m₄ _ _ => ?_
    exact Keeps.bind (keeps_free fun _ _ => trivial) fun _ m₅ _ _ => hrest m₅
  · exact hrest m₃

theorem quits_conclude : Quits d i m (conclude t report job observation) := by
  refine keeps_step fun job m₁ _ hknown => ?_
  refine Keeps.bind (keeps_free fun _ _ => trivial) fun verification m₂ hwent₂ _ => ?_
  split
  · exact quits_commit
  · split
    · exact keeps_step fun job m₃ _ _ => quits_release_plain fun h => absurd h (by decide)
    · exact quits_fail (hknown.went hwent₂)

theorem quits_goOn {reached : Reached} : Quits d i m (reached.goOn t) := by
  cases reached with
  | done report => exact keeps_ret fun _ _ => trivial
  | observed report job observation => exact quits_conclude
  | dispatching report job =>
    refine Keeps.bind keeps_dispatchJob fun reached m₁ _ _ => ?_
    cases reached with
    | done report => exact keeps_ret fun _ _ => trivial
    | dispatching report job => exact keeps_ret fun _ _ => trivial
    | observed report job observation => exact quits_conclude

variable {trace_id : String}

theorem quits_runClaimed {entered : RunState} : Quits d i m (runClaimed d.handlers trace_id job entered) := by
  unfold runClaimed
  dsimp only
  split
  · exact keeps_step fun job m₁ _ _ => quits_release_plain fun h => absurd h (by decide)
  · split
    · exact Keeps.bind keeps_begin fun reached m₁ _ _ => quits_goOn
    · exact Keeps.bind keeps_resume fun reached m₁ _ _ => quits_goOn

variable {worker_id : String}

theorem quits_claimFirst {expires : Instant} (candidates : List Job) :
    Quits d i m (claimFirst worker_id now expires candidates) := by
  induction candidates generalizing m with
  | nil => exact keeps_ret fun _ _ => trivial
  | cons job rest ih =>
    unfold claimFirst
    split
    · exact keeps_raise
    · refine Keeps.bind (keeps_free fun _ _ => trivial) fun claimed m₁ _ _ => ?_
      cases claimed with
      | none => exact ih
      | some claimed => exact keeps_ret fun _ _ => trivial

variable {project_id : Option String} {lease_seconds : ℕ}

theorem quits_claim_due_job {job_id : Option String} :
    Quits d i m (claim_due_job worker_id now lease_seconds job_id project_id) :=
  Keeps.bind (keeps_free fun _ _ => trivial) fun candidates _ _ _ => quits_claimFirst candidates

theorem quits_run_tick {now : Option Instant} {job_id : Option String} :
    Quits d i m (run_tick d.handlers trace_id worker_id now lease_seconds job_id project_id) := by
  -- whatever goes on with a claim as a tick does
  have hrest : ∀ (m : DurableStage) (started : Instant) (goOn : Option (Job × RunState) → DurableProgram TickReport),
      goOn none = Program.ret {} →
      (∀ job entered, goOn (some (job, entered)) = runClaimed d.handlers trace_id job entered) →
      Quits d i m ((claim_due_job worker_id started lease_seconds job_id project_id).bind goOn) := by
    intro m started goOn hnone hsome
    refine Keeps.bind quits_claim_due_job fun claimed m₁ _ _ => ?_
    cases claimed with
    | none =>
      rw [hnone]
      exact keeps_ret fun _ _ => trivial
    | some claimed =>
      rw [hsome]
      exact quits_runClaimed
  cases now with
  | some now => exact hrest m now _ rfl fun _ _ => rfl
  | none =>
    refine Keeps.bind (keeps_free fun _ _ => trivial) fun started m₁ _ _ => ?_
    exact hrest m₁ started _ rfl fun _ _ => rfl

variable {actor : String}

theorem quits_operatorMoveAt {moment : Instant} :
    Quits d i m (operatorMoveAt job_id dst actor reason moment) := by
  refine Keeps.bind (keeps_free fun _ _ => trivial) fun job m₁ _ hmem => ?_
  cases job with
  | none => exact keeps_raise
  | some job =>
    dsimp only
    split
    · exact keeps_raise
    · refine (keeps_transition fun m₂ _ => ?_).mono fun _ _ _ _ => trivial
      split
      · exact .plain job_id dst (some moment)
      · exact .plain job_id dst none

theorem quits_operator_move {now : Option Instant} :
    Quits d i m (operator_move job_id dst actor reason now) := by
  cases now with
  | some now => exact quits_operatorMoveAt
  | none => exact Keeps.bind (keeps_free fun _ _ => trivial) fun now m₁ _ _ => quits_operatorMoveAt

/-- **Every program of the runtime keeps its duties.** -/
theorem covers : (discipline d).Covers := by
  rintro p ⟨request, rfl⟩ i m -
  cases request with
  | create_job input => exact Safe.void (keeps_free (m := m) (d := d) fun _ _ => trivial)
  | claim_due_job => exact Safe.void (quits_claim_due_job (m := m) (d := d))
  | run_tick => exact Safe.void (quits_run_tick (m := m) (d := d))
  | operator_move => exact Safe.void (quits_operator_move (m := m) (d := d))
  | renew_lease => exact Safe.void (keeps_free (m := m) (d := d) fun _ _ => trivial)

end Durable
