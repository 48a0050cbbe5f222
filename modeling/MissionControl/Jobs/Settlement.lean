import MissionControl.Jobs.Changes

/-! # Claims are settled once

A token is drawn for one claim and never again, and only its claim puts it on a
row. So a row that is running under a token is held by that claim alone, and once
the claim is settled, expired or cancelled, nothing makes the row run under the
token again. -/

namespace Jobs

open Interleaving

/-- A stage of the queue. -/
abbrev QueueStage : Type := Stage QueueCalls Queue

/-- The claim made by the `n`-th call of the history is the one its job is running
    under. -/
def Holds (m : QueueStage) (n job_id : Nat) : Prop :=
  ∃ e t, m.history[n]? = some e ∧ claimed e.call e.answer = some (job_id, t) ∧
    ∃ r ∈ m.world.jobs, fenced job_id t r

/-- **What every run keeps.** -/
structure Orderly (m : QueueStage) : Prop where
  /-- Tokens on rows and in answers were drawn. -/
  tokens : ∀ r ∈ m.world.jobs, ∀ t, r.claim_token = some t → t < m.world.issued
  drawn : ∀ e ∈ m.history, ∀ job_id t, claimed e.call e.answer = some (job_id, t) →
    t < m.world.issued
  /-- No two claims have one token. -/
  once : m.history.Pairwise fun e e' => ∀ job_id job_id' t,
    claimed e.call e.answer = some (job_id, t) → claimed e'.call e'.answer ≠ some (job_id', t)
  /-- A row is not running under a claim that has been settled. -/
  spent : ∀ e ∈ m.history, ∀ job_id t, settled e.call e.answer = some (job_id, t) →
    t < m.world.issued ∧ ∀ r ∈ m.world.jobs, ¬ fenced job_id t r
  settledOnce : m.history.Pairwise fun e e' => ∀ x,
    settled e.call e.answer = some x → settled e'.call e'.answer ≠ some x

theorem Orderly.init : Orderly ⟨.empty, []⟩ := by
  refine ⟨?_, by simp, by simp, by simp, by simp⟩
  intro r hr
  exact absurd hr (Relational.Table.not_mem_empty r)

variable {o : Ambient} {w' w : Queue} {c : Call} {a : QueueCalls.Answer c}

theorem Rows.mem (h : Rows w w' o c a) {r' : Job} (hr' : r' ∈ w'.jobs) :
    (∃ r ∈ w.jobs, Change w.issued o.now c a r r') ∨ Enqueued w.issued o c r' := by
  obtain ⟨g, new, hrows, hold, hnew⟩ := h.rows
  have hmem : r' ∈ w'.jobs.rows := hr'
  rw [hrows, List.mem_append, List.mem_map] at hmem
  rcases hmem with ⟨r, hr, rfl⟩ | hmem
  · exact .inl ⟨r, hr, hold r hr⟩
  · exact .inr (hnew r' hmem)

theorem Rows.of_mem (h : Rows w w' o c a) {r : Job} (hr : r ∈ w.jobs) :
    ∃ r' ∈ w'.jobs, Change w.issued o.now c a r r' := by
  obtain ⟨g, new, hrows, hold, -⟩ := h.rows
  refine ⟨g r, ?_, hold r hr⟩
  show g r ∈ w'.jobs.rows
  rw [hrows]
  exact List.mem_append_left _ (List.mem_map_of_mem hr)

theorem Rows.fenced (h : Rows w w' o c a) {r' : Job} (hr' : r' ∈ w'.jobs) {job_id t : Nat} (ht : t < w.issued)
    (hf : fenced job_id t r') : (∃ r ∈ w.jobs, fenced job_id t r) ∧ settled c a ≠ some (job_id, t) := by
  rcases h.mem hr' with ⟨r, hr, hchange⟩ | hnew
  · rcases hchange.fenced hf with ⟨hfr, hs⟩ | rfl
    · exact ⟨⟨r, hr, hfr⟩, hs⟩
    · exact absurd ht (Nat.lt_irrefl _)
  · have := (fenced_iff.mp hf).2.1
    rw [hnew.claim_token] at this
    cases this

theorem pairwise_snoc {α : Type} {R : α → α → Prop} {l : List α} {x : α} :
    (l ++ [x]).Pairwise R ↔ l.Pairwise R ∧ ∀ y ∈ l, R y x := by
  simp [List.pairwise_append]

theorem Orderly.call {m : QueueStage} (h : Orderly m) (i : Nat) (c : Call) (o : Ambient) :
    Orderly (m.perform exec i c o) := by
  have hrows := rows_exec m.world o c
  have hissued : m.world.issued ≤ (exec.after c o m.world).issued := hrows.issued
  constructor
  case tokens =>
    intro r' hr' t ht
    rcases hrows.mem hr' with ⟨r, hr, hchange⟩ | hnew
    · rcases hchange.claim_token ht with ht | ht
      · exact Nat.lt_of_lt_of_le (h.tokens r hr t ht) hissued
      · obtain ⟨rfl, hlt, -⟩ := claimed_issued ht
        exact hlt
    · rw [hnew.claim_token] at ht
      cases ht
  case drawn =>
    intro e he job_id t ht
    rcases List.mem_append.mp he with he | he
    · exact Nat.lt_of_lt_of_le (h.drawn e he job_id t ht) hissued
    · rw [List.mem_singleton.mp he] at ht
      obtain ⟨rfl, hlt, -⟩ := claimed_issued ht
      exact hlt
  case once =>
    refine pairwise_snoc.mpr ⟨h.once, fun e he job_id job_id' t ht ht' => ?_⟩
    have hlt := h.drawn e he job_id t ht
    rw [(claimed_issued ht').1] at hlt
    exact Nat.lt_irrefl _ hlt
  case spent =>
    intro e he job_id t ht
    rcases List.mem_append.mp he with he | he
    · obtain ⟨hlt, hnone⟩ := h.spent e he job_id t ht
      refine ⟨Nat.lt_of_lt_of_le hlt hissued, fun r' hr' hf => ?_⟩
      obtain ⟨⟨r, hr, hfr⟩, -⟩ := hrows.fenced hr' hlt hf
      exact hnone r hr hfr
    · rw [List.mem_singleton.mp he] at ht
      obtain ⟨r, hr, hf⟩ := fenced_of_succeeded (settled_succeeded ht)
      have hlt := h.tokens r hr t (fenced_iff.mp hf).2.1
      exact ⟨Nat.lt_of_lt_of_le hlt hissued, fun r' hr' hf' => (hrows.fenced hr' hlt hf').2 ht⟩
  case settledOnce =>
    refine pairwise_snoc.mpr ⟨h.settledOnce, fun e he x hx hx' => ?_⟩
    obtain ⟨r, hr, hf⟩ := fenced_of_succeeded (settled_succeeded hx')
    exact (h.spent e he x.1 x.2 hx).2 r hr hf

theorem orderly_of_run {steps : List (QueueStage × Action QueueCalls Queue Ambient)}
    {s : Pool QueueCalls Queue} (run : Run queue .empty steps s) : Orderly s.stage :=
  run.invariant Orderly.init (fun _ i c o h => h.call i c o) fun _ _ _ h => False.elim h

theorem Orderly.holder {m : QueueStage} (h : Orderly m) {job_id n n' : Nat}
    (hn : Holds m n job_id) (hn' : Holds m n' job_id) : n = n' := by
  obtain ⟨e, t, he, hclaim, r, hr, hf⟩ := hn
  obtain ⟨e', t', he', hclaim', r', hr', hf'⟩ := hn'
  obtain ⟨hid, ht, -⟩ := fenced_iff.mp hf
  obtain ⟨hid', ht', -⟩ := fenced_iff.mp hf'
  have hrow : r = r' := Relational.Table.eq_of_key hr hr' (hid.trans hid'.symm)
  have htoken : t = t' := by
    rw [hrow, ht'] at ht
    exact (Option.some.inj ht).symm
  obtain ⟨hlt, rfl⟩ := List.getElem?_eq_some_iff.mp he
  obtain ⟨hlt', rfl⟩ := List.getElem?_eq_some_iff.mp he'
  subst htoken
  have hpairs := List.pairwise_iff_getElem.mp h.once
  rcases Nat.lt_trichotomy n n' with hlt'' | heq | hlt''
  · exact absurd hclaim' (hpairs n n' hlt hlt' hlt'' _ _ _ hclaim)
  · exact heq
  · exact absurd hclaim (hpairs n' n hlt' hlt hlt'' _ _ _ hclaim')

/-- Jobs that are over stay so. -/
def StayFinal (m m' : QueueStage) : Prop :=
  ∀ r ∈ m.world.jobs, r.status.Final →
    ∃ r' ∈ m'.world.jobs, r'.job_id = r.job_id ∧ r'.status = r.status

theorem StayFinal.trans (m₁ m₂ m₃ : QueueStage) (h : StayFinal m₁ m₂) (h' : StayFinal m₂ m₃) :
    StayFinal m₁ m₃ := by
  intro r hr hfinal
  obtain ⟨r', hr', hid, hs⟩ := h r hr hfinal
  obtain ⟨r'', hr'', hid', hs'⟩ := h' r' hr' (hs ▸ hfinal)
  exact ⟨r'', hr'', hid'.trans hid, hs'.trans hs⟩

theorem StayFinal.call (m : QueueStage) (i : Nat) (c : Call) (o : Ambient) :
    StayFinal m (m.perform exec i c o) := by
  intro r hr hfinal
  obtain ⟨r', hr', hchange⟩ := (rows_exec m.world o c).of_mem hr
  exact ⟨r', hr', hchange.job_id, hchange.final hfinal⟩

/-- **Single settlement.** In every run of any programs over the queue: a call that
    settles or renews takes effect only under the token its job is running under;
    no claim is settled twice; no job is held under two claims at once; and a job
    that is over keeps its status. -/
theorem single_settlement {steps : List (QueueStage × Action QueueCalls Queue Ambient)}
    {s : Pool QueueCalls Queue} (run : Run queue .empty steps s) :
    (∀ m i c o, (m, Action.call i c o) ∈ steps → ∀ job_id t,
      succeeded c (exec.answer c o m.world) = some (job_id, t) →
      ∃ r ∈ m.world.jobs, r.job_id = job_id ∧ r.claim_token = some t ∧ r.status = .running) ∧
    (s.stage.history.Pairwise fun e e' => ∀ x,
      settled e.call e.answer = some x → settled e'.call e'.answer ≠ some x) ∧
    (∀ job_id n n', Holds s.stage n job_id → Holds s.stage n' job_id → n = n') ∧
    ∀ m ∈ visited steps s, ∀ r ∈ m.world.jobs, r.status.Final →
      ∃ r' ∈ s.stage.world.jobs, r'.job_id = r.job_id ∧ r'.status = r.status := by
  have horderly := orderly_of_run run
  refine ⟨?_, horderly.settledOnce, fun _ _ _ => horderly.holder, fun m hm => ?_⟩
  · intro m i c o _ job_id t h
    obtain ⟨r, hr, hf⟩ := fenced_of_succeeded h
    exact ⟨r, hr, fenced_iff.mp hf⟩
  · exact run.later (R := StayFinal) (fun _ r hr _ => ⟨r, hr, rfl, rfl⟩) StayFinal.trans
      StayFinal.call (fun _ _ h => False.elim h) hm

/-- A worker that enqueues a job, claims it and completes it. -/
def oneJob : Program QueueCalls Unit := do
  let _ ← enqueue "agency.create" "t" "p" .none none none
  match ← ask (.claim_job none none) with
  | none => pure ()
  | some job =>
    match job.claim_token with
    | none => pure ()
    | some token =>
      let _ ← handle_job (fun _ => .ok .none) job token
      pure ()

/-- That worker alone, moved five times. -/
def oneJobPlayed : List (QueueStage × Action QueueCalls Queue Ambient) × Pool QueueCalls Queue :=
  play queue (Pool.init .empty)
    [.start oneJob, .call 0 ⟨0, none, none⟩, .call 0 ⟨0, none, none⟩, .call 0 ⟨1, none, none⟩,
      .call 0 ⟨2, none, none⟩, .call 0 ⟨3, none, none⟩]

theorem single_settlement_one_job :
    (oneJobPlayed.2.stage.world.jobs.rows.map Job.status = [.completed]) ∧
      oneJobPlayed.2.stage.history.Pairwise fun e e' => ∀ x,
        settled e.call e.answer = some x → settled e'.call e'.answer ≠ some x :=
  ⟨by decide +kernel, (single_settlement (play_run (by simp [Move.Allowed, queue]))).2.1⟩

end Jobs

/-! # The retry bound

A claim charges one attempt. A job whose budget is spent is dead-lettered when its
worker reports the failure; a job whose lease expires is queued again without a
look at the budget, and then it can be claimed once more. The bound holds on the
runs in which no lease expires on a job that is on its last attempt. -/

namespace Jobs

open Interleaving

/-- How often a job has been claimed. -/
def claims (m : QueueStage) (job_id : Nat) : Nat :=
  (m.history.filter fun e => (claimed e.call e.answer).any fun x => x.1 = job_id).length

theorem claims_perform (m : QueueStage) (i : Nat) (c : Call) (o : Ambient) (job_id : Nat) :
    claims (m.perform exec i c o) job_id = claims m job_id +
      if (claimed c (exec.answer c o m.world)).any (fun x => x.1 = job_id) then 1 else 0 := by
  simp only [claims, Stage.perform, List.filter_append, List.length_append]
  congr 1
  rw [List.filter_cons, List.filter_nil]
  split <;> rfl

/-- What every run keeps: `attempt_count` counts the claims of its row. -/
structure Counted (m : QueueStage) : Prop where
  counted : ∀ r ∈ m.world.jobs, r.attempt_count = claims m r.job_id
  known : ∀ job_id, m.world.issued ≤ job_id → claims m job_id = 0

theorem Counted.init : Counted ⟨.empty, []⟩ :=
  ⟨fun r hr => absurd hr (Relational.Table.not_mem_empty r), fun _ _ => rfl⟩

variable {o : Ambient} {c : Call}

theorem not_claimed {w : Queue} {job_id : Nat} (h : w.issued ≤ job_id) :
    (claimed c (exec.answer c o w)).any (fun x => x.1 = job_id) = false := by
  cases hc : claimed c (exec.answer c o w) with
  | none => rfl
  | some x =>
    have hlt : x.1 < w.issued := (claimed_issued hc).2.2
    have hne : x.1 ≠ job_id := by omega
    simp [hne]

variable {m : QueueStage}

theorem Counted.call (h : Counted m) (i : Nat) (c : Call) (o : Ambient) : Counted (m.perform exec i c o) := by
  have hrows := rows_exec m.world o c
  constructor
  · intro r' hr'
    rw [claims_perform]
    rcases hrows.mem hr' with ⟨r, hr, hchange⟩ | hnew
    · rw [hchange.attempt_count, hchange.job_id, h.counted r hr]
    · have hid : m.world.issued ≤ r'.job_id := Nat.le_of_eq hnew.job_id.symm
      rw [hnew.attempt_count, h.known _ hid, not_claimed hid]
      rfl
  · intro job_id hid
    have hid : m.world.issued ≤ job_id := Nat.le_trans hrows.issued hid
    rw [claims_perform, h.known _ hid, not_claimed hid]
    rfl

/-- The budget of a row is not exceeded, and a queued row has some of it left. -/
structure Job.Within (r : Job) : Prop where
  bound : (r.attempt_count : Int) ≤ r.max_attempts
  left : r.status = .queued → (r.attempt_count : Int) < r.max_attempts

/-- **Where the bound holds.** A job is enqueued with a budget that is no negative
    number, and no lease expires on a job that has used its last attempt. -/
def BudgetLeft (m : QueueStage) : Action QueueCalls Queue Ambient → Prop
  | .call _ (.enqueue_job _ _ _ _ _ max_attempts) _ => ∀ n ∈ max_attempts, 0 ≤ n
  | .call _ .expire_stale_leases o =>
    ∀ r ∈ m.world.jobs.rows, stale o.now r → (r.attempt_count : Int) < r.max_attempts
  | _ => True

instance (m : QueueStage) (a : Action QueueCalls Queue Ambient) : Decidable (BudgetLeft m a) :=
  match a with
  | .start _ => inferInstanceAs (Decidable True)
  | .env _ => inferInstanceAs (Decidable True)
  | .call _ c o =>
    match c with
    | .enqueue_job _ _ _ _ _ max_attempts => inferInstanceAs (Decidable (∀ n ∈ max_attempts, 0 ≤ n))
    | .expire_stale_leases => inferInstanceAs (Decidable (∀ r ∈ m.world.jobs.rows,
        stale o.now r → (r.attempt_count : Int) < r.max_attempts))
    | .get_job _ | .claim_job .. | .renew_job_lease .. | .complete_job .. | .fail_job ..
    | .request_job_cancellation _ => inferInstanceAs (Decidable True)

theorem default_max_attempts_pos (o : Ambient) : 0 < default_max_attempts o := by
  unfold default_max_attempts
  split <;> omega

theorem Enqueued.within {i : Nat} {r : Job} (h : Enqueued m.world.issued o c r)
    (hok : BudgetLeft m (.call i c o)) : r.Within := by
  obtain ⟨_, _, _, _, _, max_attempts, rfl, hmax⟩ := h.call
  have hpos : 0 < r.max_attempts := by
    rw [hmax]
    cases max_attempts with
    | none => exact default_max_attempts_pos o
    | some n =>
      have hn : 0 ≤ n := hok n rfl
      by_cases hz : n = 0
      · simpa [orDefault, hz] using default_max_attempts_pos o
      · simp only [orDefault, hz, if_false]
        omega
  have hzero : (r.attempt_count : Int) = 0 := by simp [h.attempt_count]
  exact ⟨by omega, fun _ => by omega⟩

/-- **One call.** A row that is within its budget stays within it, unless a lease
    expires on its last attempt. -/
theorem Change.within {i : Nat} {r r' : Job} {a : QueueCalls.Answer c}
    (h : Change m.world.issued o.now c a r r') (hr : r ∈ m.world.jobs) (hw : r.Within)
    (hok : BudgetLeft m (.call i c o)) : r'.Within := by
  cases h with
  | untouched => exact hw
  | renew => exact ⟨hw.bound, hw.left⟩
  | claim hq =>
    have hlt := hw.left hq
    refine ⟨?_, fun hs => by cases hs⟩
    show ((r.attempt_count + 1 : Nat) : Int) ≤ r.max_attempts
    omega
  | complete hf => exact ⟨hw.bound, fun hs => by cases hs⟩
  | dead_letter hf hspent => exact ⟨hw.bound, fun hs => by cases hs⟩
  | requeue hf hleft => exact ⟨hw.bound, fun _ => hleft⟩
  | expire hs => exact ⟨hw.bound, fun _ => hok r hr hs⟩
  | cancel ho => exact ⟨hw.bound, fun hs => by cases hs⟩

/-- **The retry bound.** In every run whose steps leave budget where `BudgetLeft`
    says, no job has been claimed more than `max_attempts` times in any stage. -/
theorem retry_bound {steps : List (QueueStage × Action QueueCalls Queue Ambient)}
    {s : Pool QueueCalls Queue} (run : Run queue .empty steps s) (hok : Meets BudgetLeft steps) :
    ∀ m ∈ visited steps s, ∀ r ∈ m.world.jobs,
      r.attempt_count = claims m r.job_id ∧ (claims m r.job_id : Int) ≤ r.max_attempts := by
  intro m hm r hr
  obtain ⟨before, s', run', rfl, hpre⟩ := run.visited hm
  have hcounted : Counted s'.stage :=
    run'.invariant Counted.init (fun _ i c o h => h.call i c o) fun _ _ _ h => False.elim h
  have hwithin : ∀ r ∈ s'.stage.world.jobs, r.Within := by
    refine run'.invariant_of_meets (P := fun m => ∀ r ∈ m.world.jobs, r.Within) ?_ ?_
      (fun _ _ _ h => False.elim h) (hok.of_prefix hpre)
    · exact fun r hr => absurd hr (Relational.Table.not_mem_empty r)
    · intro m i c o h hok r' hr'
      rcases (rows_exec m.world o c).mem hr' with ⟨r, hr, hchange⟩ | hnew
      · exact hchange.within hr (h r hr) hok
      · exact hnew.within hok
  rw [← hcounted.counted r hr]
  exact ⟨rfl, (hwithin r hr).bound⟩

/-- Enqueue a job with a budget of one attempt, claim it, and crash. -/
def crashing : Program QueueCalls Unit := do
  let _ ← enqueue "agency.create" "t" "p" .none none (some 1)
  let _ ← ask (.claim_job none none)
  pure ()

/-- One round of another worker: release expired leases, then claim. -/
def polling : Program QueueCalls Unit := do
  let _ ← ask .expire_stale_leases
  let _ ← ask (.claim_job none none)
  pure ()

def clockAt (now : Instant) : Ambient := ⟨now, none, none⟩

/-- The first worker's calls. -/
def crashed : List (Move QueueCalls Queue Ambient) :=
  [.start crashing, .call 0 (clockAt 0), .call 0 (clockAt 0), .call 0 (clockAt 1)]

/-- The second worker comes a day later. -/
def polledAgain : List (Move QueueCalls Queue Ambient) :=
  crashed ++
    [.start polling, .call 1 (clockAt (86400 * SECOND)), .call 1 (clockAt (86400 * SECOND))]

theorem anyMove (moves : List (Move QueueCalls Queue Ambient))
    (h : ∀ f, .env f ∉ moves) : ∀ x ∈ moves, x.Allowed queue := by
  intro x hx
  cases x with
  | start p => trivial
  | call i o => trivial
  | env f => exact absurd hx (h f)

/-- The lease of a job on its only attempt expires, and the job is claimed again. -/
theorem retry_bound_exceeded : ∃ steps s, Run queue .empty steps s ∧
    ∃ r ∈ s.stage.world.jobs.rows, r.max_attempts < claims s.stage r.job_id :=
  ⟨(play queue (Pool.init .empty) polledAgain).1, (play queue (Pool.init .empty) polledAgain).2,
    play_run (anyMove _ (by simp [polledAgain, crashed])), by decide +kernel⟩

/-- Before the lease expires the bound holds. -/
theorem retry_bound_crashed : ∃ steps s, Run queue .empty steps s ∧ Meets BudgetLeft steps ∧
    ∀ m ∈ visited steps s, ∀ r ∈ m.world.jobs, r.attempt_count = claims m r.job_id ∧
      (claims m r.job_id : Int) ≤ r.max_attempts := by
  have run : Run queue .empty (play queue (Pool.init .empty) crashed).1
      (play queue (Pool.init .empty) crashed).2 := play_run (anyMove _ (by simp [crashed]))
  have hok : Meets BudgetLeft (play queue (Pool.init .empty) crashed).1 := by decide +kernel
  exact ⟨_, _, run, hok, retry_bound run hok⟩

end Jobs
