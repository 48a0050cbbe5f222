import MissionControl.Durable.Duties

/-! # Attempts of a tick

A failure counts an attempt; an inconclusive verification, a failed readback and an unknown outcome do not,
and the tick is dispatched again. The bound on the attempts bounds the dispatches of a tick in the runs in
which no dispatch is repeated before an attempt has been counted. -/

namespace Durable

open Canonical (Sha256)
open Interleaving Discipline
open Relational (Table)

/-! ## Dispatches -/

/-- The failed states, and those in which a human decides. -/
def LEFT : List RunState := [.DEAD_LETTER, .WAITING_APPROVAL, .DEGRADED, .PAUSED, .STOPPED] ++ BLOCKED

/-- One more event. A dispatch is noted with the count of attempts it is made under; a move into one of the
    states of `LEFT` ends the loop. -/
def noted (job_id : String) (n : ℕ) (attempts : List ℕ) : Event DurableCalls → List ℕ
  | ⟨_, .dispatch job, _⟩ => if job.job_id = job_id ∧ job.logical_tick + 1 = n then attempts ++ [job.attempts] else attempts
  | ⟨_, .move_job moved _ _ dst _ _ _, .ok _⟩ => if moved = job_id ∧ dst ∈ LEFT then [] else attempts
  | _ => attempts

/-- The dispatches of tick `n` of the job since it last left the loop, each by its count of attempts. -/
def dispatches (job_id : String) (n : ℕ) (m : DurableStage) : List ℕ := m.history.foldl (noted job_id n) []

/-- **No dispatch is repeated before an attempt has been counted**: the job that is dispatched is as its row
    stands, and each dispatch of its tick so far was made under a smaller count. -/
def Counts (m : DurableStage) : DurableAction → Prop
  | .call _ (.dispatch job) _ =>
    (m.world.jobs.find? job.job_id).any (fun row =>
      row.attempts = job.attempts && row.logical_tick = job.logical_tick) = true ∧
        ∀ a ∈ dispatches job.job_id (job.logical_tick + 1) m, a < job.attempts
  | _ => True

instance (m : DurableStage) : (a : DurableAction) → Decidable (Counts m a)
  | .start _ => .isTrue trivial
  | .env _ => .isTrue trivial
  | .call _ c _ => by
    unfold Counts
    cases c <;> infer_instance

theorem dispatches_perform {exec : Exec DurableCalls Store Outside} (m : DurableStage) (i : ℕ) (c : Call) (o : Outside)
    (job_id : String) (n : ℕ) : dispatches job_id n (m.perform exec i c o) =
      noted job_id n (dispatches job_id n m) ⟨i, c, exec.answer c o m.world⟩ :=
  List.foldl_append

/-! ## Rows -/

variable {_redact_string : String → String} {m : DurableStage} {i : ℕ} {c : Call} {o : Outside} {key : String}

/-- What becomes of the count of a row in one call. -/
inductive Counting (m : DurableStage) (c : Call) (answered : Bool) (key : String) (row : Job) : Prop
  | kept {before : Job} (hbefore : m.world.jobs.find? key = some before) (attempts : row.attempts = before.attempts)
      (logical_tick : row.logical_tick = before.logical_tick)
  | below (h : row.attempts < row.max_attempts)
  | failed {fencing_token : ℕ} {current : RunState} {now : Instant} {reason : String} {fields : Fields}
      (hc : c = .move_job key fencing_token current .DEAD_LETTER now reason fields) (hok : answered = true)

variable {row : Job}

/-- **What one call does to the count of a row.** -/
theorem counting (hduty : Duty i c m)
    (hrow : ((exec _redact_string).after c o m.world).jobs.find? key = some row) :
    Counting m c ((exec _redact_string).answer c o m.world).isOk key row := by
  cases hanswer : (exec _redact_string).answer c o m.world with
  | error e =>
    rw [Exec.after_of_answer_error hanswer] at hrow
    exact .kept hrow rfl rfl
  | ok r =>
    have hstep := jobStep_run (run_of_answer hanswer)
    generalize hjobs : ((exec _redact_string).after c o m.world).jobs = jobs at hstep hrow
    cases hstep with
    | same => exact .kept hrow rfl rfl
    | created hbound hnew =>
      rw [Table.find?_insert] at hrow
      split at hrow
      · cases hrow
        exact .below hbound.1
      · exact .kept hrow rfl rfl
    | claimed hjob hversion =>
      rw [Table.find?_update] at hrow
      split at hrow
      · obtain ⟨before, hbefore, rfl⟩ := Option.map_eq_some_iff.mp hrow
        exact .kept hbefore rfl rfl
      · exact .kept hrow rfl rfl
    | renewed expires =>
      rw [Table.find?_update] at hrow
      split at hrow
      · obtain ⟨before, hbefore, rfl⟩ := Option.map_eq_some_iff.mp hrow
        exact .kept hbefore rfl rfl
      · exact .kept hrow rfl rfl
    | @moved job job_id reason fencing_token current dst now fields hjob htoken hstate =>
      rw [Table.find?_update] at hrow
      split at hrow
      · rename_i hid
        subst hid
        obtain ⟨before, hbefore, rfl⟩ := Option.map_eq_some_iff.mp hrow
        obtain ⟨-, hmove⟩ := hduty
        cases hattempts : fields.attempts with
        | none =>
          -- the tick is set with the count only
          have htick : fields.logical_tick = none := by
            cases htick : fields.logical_tick with
            | none => rfl
            | some n =>
              have hzero := hmove.ticked (by rw [htick]; rfl)
              rw [hattempts] at hzero
              cases hzero
          refine .kept hbefore ?_ ?_
          · show fields.attempts.getD before.attempts = before.attempts
            rw [hattempts]
            rfl
          · show fields.logical_tick.getD before.logical_tick = before.logical_tick
            rw [htick]
            rfl
        | some a =>
          have hset : (before.move dst fields).attempts = a := by
            show fields.attempts.getD before.attempts = a
            rw [hattempts]
            rfl
          rcases hmove.counted a hattempts with ⟨rfl, -⟩ | rfl | ⟨rfl, hlt⟩
          · exact .below (hset ▸ before.bounded.1)
          · exact .failed rfl rfl
          · exact .below (hset ▸ hlt before hbefore)
      · exact .kept hrow rfl rfl

/-! ## The bound -/

/-- What the dispatches of a tick have to do with the row of its job. -/
structure Counted (job_id : String) (n : ℕ) (m : DurableStage) : Prop where
  increasing : (dispatches job_id n m).Pairwise (· < ·)
  known : dispatches job_id n m ≠ [] → ∃ row, m.world.jobs.find? job_id = some row
  later : ∀ row, m.world.jobs.find? job_id = some row → ∀ a ∈ (dispatches job_id n m).tail, a < row.max_attempts
  next : ∀ row, m.world.jobs.find? job_id = some row → dispatches job_id n m ≠ [] → row.logical_tick + 1 = n →
    row.attempts < row.max_attempts ∨ ∃ a ∈ dispatches job_id n m, row.attempts ≤ a

variable {job_id : String}

theorem Counted.of_nil {n : ℕ} (h : dispatches job_id n m = []) : Counted job_id n m where
  increasing := by
    rw [h]
    exact List.Pairwise.nil
  known hne := absurd h hne
  later row _ a ha := by
    rw [h] at ha
    cases ha
  next row _ hne := absurd h hne

theorem length_le_of_increasing {l : List ℕ} {k : ℕ} (h : l.Pairwise (· < ·)) (hk : ∀ a ∈ l, a < k) : l.length ≤ k := by
  have hnodup : l.Nodup := h.imp fun hlt => Nat.ne_of_lt hlt
  have hsub : l ⊆ List.range k := fun a ha => List.mem_range.mpr (hk a ha)
  have hle := (hnodup.subperm hsub).length_le
  rwa [List.length_range] at hle

/-- **The bound on the attempts bounds the dispatches.** -/
theorem Counted.bounded {n : ℕ} (h : Counted job_id n m) (hrow : m.world.jobs.find? job_id = some row) :
    (dispatches job_id n m).length ≤ row.max_attempts := by
  have hincreasing := h.increasing
  have hlater := h.later row hrow
  generalize dispatches job_id n m = l at hincreasing hlater
  cases l with
  | nil => exact Nat.zero_le _
  | cons first rest =>
    cases rest with
    | nil => exact row.bounded.1
    | cons second rest =>
      -- the first is below the second, and so below the bound
      refine length_le_of_increasing hincreasing fun a ha => ?_
      rcases List.mem_cons.mp ha with rfl | ha
      · have hlt : a < second := (List.pairwise_cons.mp hincreasing).1 second List.mem_cons_self
        exact hlt.trans (hlater second List.mem_cons_self)
      · exact hlater a ha

theorem max_attempts_after {before : Job} (c : Call) (o : Outside)
    (hbefore : m.world.jobs.find? key = some before)
    (hrow : ((exec _redact_string).after c o m.world).jobs.find? key = some row) :
    row.max_attempts = before.max_attempts := by
  obtain ⟨row', hrow', hmax⟩ := extends_after _redact_string c o m.world key before hbefore
  rw [hrow] at hrow'
  cases hrow'
  exact hmax

section Step

variable [Sha256] {d : Deployment} {job_id : String} {n : ℕ}

theorem Counted.stays (h : Counted job_id n m) (hduty : Duty i c m)
    (hsame : dispatches job_id n (m.perform (runtime d).exec i c o) = dispatches job_id n m)
    (hloop : dispatches job_id n (m.perform (runtime d).exec i c o) ≠ []) :
    Counted job_id n (m.perform (runtime d).exec i c o) := by
  have hne : dispatches job_id n m ≠ [] := hsame ▸ hloop
  obtain ⟨before, hbefore⟩ := h.known hne
  have hmax : ∀ row, (m.perform (runtime d).exec i c o).world.jobs.find? job_id = some row →
      row.max_attempts = before.max_attempts := fun row hrow => max_attempts_after c o hbefore hrow
  refine ⟨?_, fun _ => ?_, fun row hrow a ha => ?_, fun row hrow _ htick => ?_⟩
  · rw [hsame]
    exact h.increasing
  · obtain ⟨row, hrow, -⟩ := extends_after d._redact_string c o m.world job_id before hbefore
    exact ⟨row, hrow⟩
  · rw [hsame] at ha
    rw [hmax row hrow]
    exact h.later before hbefore a ha
  · rw [hsame]
    cases counting hduty hrow with
    | kept hbefore' hattempts hlogical =>
      rw [hbefore] at hbefore'
      cases hbefore'
      rw [hattempts, hmax row hrow]
      exact h.next before hbefore hne (hlogical ▸ htick)
    | below hlt => exact .inl hlt
    | failed hc hok =>
      -- a failed job has left the loop
      subst hc
      refine absurd ?_ hloop
      rw [dispatches_perform]
      cases hanswer : (runtime d).exec.answer _ o m.world with
      | error e =>
        have hanswer' : (exec d._redact_string).answer _ o m.world = .error e := hanswer
        rw [hanswer'] at hok
        cases hok
      | ok moved => exact if_pos ⟨rfl, by decide⟩

/-- A dispatch of the tick. -/
theorem Counted.dispatched {job : Job} (h : Counted job_id n m) (hid : job.job_id = job_id) (htick : job.logical_tick + 1 = n)
    (hcounts : Counts m (.call i (.dispatch job) o)) :
    Counted job_id n (m.perform (runtime d).exec i (.dispatch job) o) := by
  subst hid htick
  obtain ⟨hsome, hbefore⟩ := hcounts
  obtain ⟨row, hrow, hsame⟩ := (Option.any_eq_true ..).mp hsome
  rw [Bool.and_eq_true, decide_eq_true_eq, decide_eq_true_eq] at hsame
  obtain ⟨hattempts, hlogical⟩ := hsame
  have hlist : dispatches job.job_id (job.logical_tick + 1) (m.perform (runtime d).exec i (.dispatch job) o) =
      dispatches job.job_id (job.logical_tick + 1) m ++ [job.attempts] := by
    rw [dispatches_perform]
    exact if_pos ⟨rfl, rfl⟩
  have hjobs : (m.perform (runtime d).exec i (.dispatch job) o).world.jobs = m.world.jobs := by
    have hstep := jobStep d._redact_string (.dispatch job) o m.world
    show ((exec d._redact_string).after (.dispatch job) o m.world).jobs = m.world.jobs
    generalize ((exec d._redact_string).after (.dispatch job) o m.world).jobs = jobs at hstep
    cases hstep
    rfl
  refine ⟨?_, fun _ => ⟨row, by rw [hjobs]; exact hrow⟩, fun row' hrow' a ha => ?_, fun row' hrow' _ _ => ?_⟩
  · rw [hlist]
    refine List.pairwise_append.mpr ⟨h.increasing, List.pairwise_singleton _ _, fun a ha b hb => ?_⟩
    rw [List.mem_singleton.mp hb]
    exact hbefore a ha
  · rw [hjobs, hrow] at hrow'
    cases hrow'
    rw [hlist] at ha
    cases hl : dispatches job.job_id (job.logical_tick + 1) m with
    | nil =>
      rw [hl] at ha
      cases ha
    | cons first rest =>
      rw [hl, List.cons_append, List.tail_cons] at ha
      rcases List.mem_append.mp ha with ha | ha
      · exact h.later row hrow a (by rw [hl]; exact ha)
      · -- the count has grown since the dispatches before, so it is below the bound
        rw [List.mem_singleton.mp ha, ← hattempts]
        refine (h.next row hrow (by rw [hl]; exact List.cons_ne_nil _ _) (by rw [hlogical])).resolve_right ?_
        rintro ⟨b, hb, hle⟩
        exact absurd (hbefore b hb) (Nat.not_lt.mpr (hattempts ▸ hle))
  · rw [hjobs, hrow] at hrow'
    cases hrow'
    rw [hlist]
    exact .inr ⟨job.attempts, List.mem_append_right _ (List.mem_singleton_self _), Nat.le_of_eq hattempts⟩

/-- **Each call keeps the count**, where no dispatch is repeated before an attempt has been counted. -/
theorem Counted.call (h : Counted job_id n m) (hduty : Duty i c m) (hcounts : Counts m (.call i c o)) :
    Counted job_id n (m.perform (runtime d).exec i c o) := by
  by_cases hloop : dispatches job_id n (m.perform (runtime d).exec i c o) = []
  · exact .of_nil hloop
  cases c with
  | dispatch job =>
    by_cases htick : job.job_id = job_id ∧ job.logical_tick + 1 = n
    · exact h.dispatched htick.1 htick.2 hcounts
    · refine h.stays hduty ?_ hloop
      rw [dispatches_perform]
      exact if_neg htick
  | move_job moved fencing_token current dst now reason fields =>
    refine h.stays hduty ?_ hloop
    rw [dispatches_perform] at hloop ⊢
    cases hanswer : (runtime d).exec.answer (.move_job moved fencing_token current dst now reason fields) o m.world with
    | error e => rfl
    | ok job =>
      rw [hanswer] at hloop
      exact if_neg fun hleft => hloop (if_pos hleft)
  | _ =>
    refine h.stays hduty ?_ hloop
    rw [dispatches_perform]
    rfl

end Step

section Bound

variable [Sha256] {d : Deployment} {w : Store} {steps : List (DurableStage × DurableAction)}
  {pool : Pool DurableCalls Store}

theorem counted_of_run (run : Run (runtime d) w steps pool) (hcounts : Meets Counts steps) (job_id : String) (n : ℕ) :
    Counted job_id n pool.stage :=
  run_invariant (covers (d := d)) (J := Counted job_id n) trivial (.of_nil rfl)
    (fun _ _ _ _ h _ hduty hcount => h.call hduty hcount) (fun _ _ _ henv => absurd henv id) run hcounts

/-- **The dispatches of a tick are bounded** in every stage of a run in which no dispatch is repeated before an
    attempt has been counted. -/
theorem dispatches_bounded (run : Run (runtime d) w steps pool) (hcounts : Meets Counts steps) {m : DurableStage}
    (hm : m ∈ visited steps pool) (n : ℕ) {job : Job} (hjob : job ∈ m.world.jobs) :
    (dispatches job.job_id n m).length ≤ job.max_attempts := by
  obtain ⟨before, s, run', rfl, hpre⟩ := run.visited hm
  exact (counted_of_run run' (hcounts.of_prefix hpre) job.job_id n).bounded (Table.find?_key hjob)

end Bound

/-! ### Verdicts without an end -/

section Inconclusive

attribute [local instance] Canonical.plainHash

def retryable : Deployment where
  handlers _ := some ⟨"render", "v1", "RETRY_SAFE", fun _ => "target", fun _ => "input"⟩
  _redact_string := id

/-- A job that may be attempted once. -/
def onceOnly : CreateJob := { render with max_attempts := 1 }

/-- The provider has seen no effect, and the verification is inconclusive. -/
def inconclusive : Outside := { text := "REDO", object := .dict [(.str "status", .str "INCONCLUSIVE")] }

/-- One worker after the other takes the job, an hour apart, and runs its tick to the end. -/
def inconclusiveTicks (count : ℕ) : List (Move DurableCalls Store Outside) :=
  [.start ((Request.create_job onceOnly).program retryable), .call 0 inconclusive] ++
    (List.range count).flatMap fun k =>
      .start ((Request.run_tick "trace" "worker" (some (k * 3600 * SECOND)) 900 none none).program retryable) ::
        List.replicate 40 (.call (k + 1) inconclusive)

theorem inconclusiveTicks_allowed (count : ℕ) : ∀ x ∈ inconclusiveTicks count, x.Allowed (runtime retryable) := by
  intro x hx
  simp only [inconclusiveTicks, List.mem_append, List.mem_cons, List.not_mem_nil, or_false, List.mem_flatMap,
    List.mem_replicate] at hx
  rcases hx with (rfl | rfl) | ⟨k, -, rfl | ⟨-, rfl⟩⟩
  · exact ⟨_, rfl⟩
  · trivial
  · exact ⟨_, rfl⟩
  · trivial

def afterTicks (count : ℕ) : List (DurableStage × DurableAction) × Pool DurableCalls Store :=
  play (runtime retryable) (Pool.init {}) (inconclusiveTicks count)

theorem run_afterTicks (count : ℕ) : Run (runtime retryable) {} (afterTicks count).1 (afterTicks count).2 :=
  play_run (inconclusiveTicks_allowed count)

/-- One tick dispatches once. -/
theorem one_tick_bounded : Meets Counts (afterTicks 1).1 ∧ ∀ m ∈ visited (afterTicks 1).1 (afterTicks 1).2,
    ∀ job ∈ m.world.jobs, (dispatches job.job_id 1 m).length ≤ job.max_attempts := by
  have hcounts : Meets Counts (afterTicks 1).1 := by decide +kernel
  exact ⟨hcounts, fun m hm job hjob => dispatches_bounded (run_afterTicks 1) hcounts hm 1 hjob⟩

/-- Three ticks dispatch three times, and the job has never left the loop. -/
theorem three_ticks_unbounded : ∃ steps pool, Run (runtime retryable) {} steps pool ∧
    ∃ job ∈ pool.stage.world.jobs, job.max_attempts = 1 ∧ (dispatches job.job_id 1 pool.stage).length = 3 := by
  have hjob : ((afterTicks 3).2.stage.world.jobs.find? "render").any (fun job => job.max_attempts = 1) = true := by
    decide +kernel
  obtain ⟨job, hfound, hmax⟩ := (Option.any_eq_true ..).mp hjob
  refine ⟨_, _, run_afterTicks 3, job, Table.mem_of_find? hfound, of_decide_eq_true hmax, ?_⟩
  rw [Table.key_of_find? hfound]
  decide +kernel

end Inconclusive

end Durable
