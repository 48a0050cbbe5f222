import MissionControl.Jobs.Queue

/-! # What a call does to a row

Every call either adds one queued row or rewrites rows in place. `Change` says once
how a row can be rewritten, by which call, under which guard and with which
answer; what follows about runs is read off from it. -/

namespace Jobs

open Relational (Table)

/-- The job and the token of a claim. -/
def claimed : (c : Call) → QueueCalls.Answer c → Option (Nat × Nat)
  | .claim_job .., .ok (some job) => job.claim_token.map fun token => (job.job_id, token)
  | _, _ => none

/-- The job and the token of a settlement: a call of `complete_job` or `fail_job`
    that took effect. -/
def settled : (c : Call) → QueueCalls.Answer c → Option (Nat × Nat)
  | .complete_job job_id claim_token _, .ok true => some (job_id, claim_token)
  | .fail_job job_id claim_token _, .ok outcome =>
    if outcome = .not_fenced then none else some (job_id, claim_token)
  | _, _ => none

/-- The job and the token of a call that only the holder of a claim may make, when
    it took effect: a settlement or a renewal. -/
def succeeded : (c : Call) → QueueCalls.Answer c → Option (Nat × Nat)
  | .renew_job_lease job_id claim_token _, .ok true => some (job_id, claim_token)
  | c, a => settled c a

/-- How a call rewrites one row. -/
inductive Change (issued : Nat) (now : Instant) : (c : Call) → QueueCalls.Answer c → Job → Job → Prop
  | untouched {c : Call} {a : QueueCalls.Answer c} {r : Job}
      (hclaim : ∀ t, claimed c a ≠ some (r.job_id, t))
      (hsettle : ∀ t, settled c a ≠ some (r.job_id, t)) : Change issued now c a r r
  | claim {kind : Option String} {lease : Option Int} {lease_until : Instant} {r : Job}
      (h : r.status = .queued) :
      Change issued now (.claim_job kind lease) (.ok (some (claimRow issued lease_until r))) r
        (claimRow issued lease_until r)
  | renew {job_id claim_token : Nat} {lease : Option Int} {lease_until : Instant} {r : Job}
      (h : fenced job_id claim_token r) :
      Change issued now (.renew_job_lease job_id claim_token lease) (.ok true) r
        { r with lease_expires_at := some lease_until }
  | complete {job_id claim_token : Nat} {result : Canonical.Value} {r : Job}
      (h : fenced job_id claim_token r) :
      Change issued now (.complete_job job_id claim_token result) (.ok true) r
        { r with status := .completed, lease_expires_at := none, result := some result,
                 error := none }
  | dead_letter {job_id claim_token : Nat} {error : String} {r : Job}
      (h : fenced job_id claim_token r) (hspent : r.max_attempts ≤ r.attempt_count) :
      Change issued now (.fail_job job_id claim_token error) (.ok .dead_letter) r
        (failRow .dead_letter error r)
  | requeue {job_id claim_token : Nat} {error : String} {r : Job}
      (h : fenced job_id claim_token r) (hleft : r.attempt_count < r.max_attempts) :
      Change issued now (.fail_job job_id claim_token error) (.ok .queued) r
        (failRow .queued error r)
  | expire {ids : List Nat} {r : Job} (h : stale now r) :
      Change issued now .expire_stale_leases (.ok ids) r
        { r with status := .queued, claim_token := none, lease_expires_at := none }
  | cancel {job_id : Nat} {answer : Bool} {r : Job} (h : r.status = .queued ∨ r.status = .running) :
      Change issued now (.request_job_cancellation job_id) (.ok answer) r
        { r with status := .cancelled, lease_expires_at := none }

/-- A row as `enqueue_job` writes it. -/
structure Enqueued (issued : Nat) (o : Ambient) (c : Call) (r : Job) : Prop where
  job_id : r.job_id = issued
  status : r.status = .queued
  attempt_count : r.attempt_count = 0
  claim_token : r.claim_token = none
  call : ∃ kind tenant_id project_id payload run_id max_attempts,
    c = .enqueue_job kind tenant_id project_id payload run_id max_attempts ∧
    r.max_attempts = orDefault max_attempts (default_max_attempts o)

/-! ## Fences -/

variable {r : Job}

theorem fenced_iff {job_id claim_token : Nat} : fenced job_id claim_token r ↔
      r.job_id = job_id ∧ r.claim_token = some claim_token ∧ r.status = .running := by
  simp [fenced, and_assoc]

theorem stale_iff {now : Instant} :
    stale now r ↔ r.status = .running ∧ ∃ expires, r.lease_expires_at = some expires ∧ expires < now := by
  simp [stale, Option.any_eq_true]

variable {w : Queue}

variable {p : Job → Bool} {set : Job → Job}

theorem rowcount_iff {h : ∀ r, (set r).job_id = r.job_id} (job_id : Nat) (hp : ∀ r, p r → r.job_id = job_id) :
    (w.update p set h).1 = 1 ↔ ∃ r ∈ w.jobs, p r := by
  show (w.jobs.rows.filter p).length = 1 ↔ _
  constructor
  · intro hlen
    obtain ⟨r, hr⟩ := List.length_eq_one_iff.mp hlen
    have hmem : r ∈ w.jobs.rows.filter p := by
      rw [hr]
      exact List.mem_singleton_self r
    exact ⟨r, (List.mem_filter.mp hmem).1, (List.mem_filter.mp hmem).2⟩
  · rintro ⟨r, hr, hpr⟩
    have hnodup : (w.jobs.rows.filter p).Nodup := (w.jobs.nodup.of_map _).filter _
    have hone : ∀ r' ∈ w.jobs.rows.filter p, r' = r := by
      intro r' hr'
      obtain ⟨hr', hpr'⟩ := List.mem_filter.mp hr'
      exact Table.eq_of_key hr' hr ((hp r' hpr').trans (hp r hpr).symm)
    have hmem : r ∈ w.jobs.rows.filter p := List.mem_filter.mpr ⟨hr, hpr⟩
    revert hnodup hone hmem
    match w.jobs.rows.filter p with
    | [] => simp
    | [_] => simp
    | x :: y :: _ =>
      intro hnodup hone _
      have hx := hone x (by simp)
      have hy := hone y (by simp)
      simp [hx, hy] at hnodup

/-! ## One lemma for all calls -/

/-- The rows after a call: those there were, each changed as `Change` says, and
    then the new ones. -/
structure Rows (w w' : Queue) (o : Ambient) (c : Call) (a : QueueCalls.Answer c) : Prop where
  issued : w.issued ≤ w'.issued
  rows : ∃ g new, w'.jobs.rows = w.jobs.rows.map g ++ new ∧
    (∀ r ∈ w.jobs, Change w.issued o.now c a r (g r)) ∧ ∀ r ∈ new, Enqueued w.issued o c r

variable {o : Ambient} {c : Call}

variable {a : QueueCalls.Answer c}

theorem Rows.refl {w' : Queue} (hw : w'.jobs = w.jobs) (hissued : w.issued ≤ w'.issued)
    (hclaim : claimed c a = none) (hsettle : settled c a = none) : Rows w w' o c a := by
  refine ⟨hissued, id, [], by simp [hw], fun r _ => .untouched ?_ ?_, by simp⟩
  · simp [hclaim]
  · simp [hsettle]

theorem Rows.update {w w₀ : Queue} {o : Ambient} {c : Call} {a : QueueCalls.Answer c}
    {p : Job → Bool} {set : Job → Job} {h : ∀ r, (set r).job_id = r.job_id}
    (hw : w₀.jobs = w.jobs) (hissued : w.issued ≤ w₀.issued)
    (hp : ∀ r ∈ w.jobs, p r → Change w.issued o.now c a r (set r))
    (hn : ∀ r ∈ w.jobs, ¬ p r → Change w.issued o.now c a r r) : Rows w (w₀.update p set h).2 o c a := by
  refine ⟨hissued, fun r => if p r then set r else r, [], ?_, fun r hr => ?_, by simp⟩
  · rw [List.append_nil, ← hw]
    rfl
  · show Change w.issued o.now c a r (if p r then set r else r)
    split
    · rename_i hpr
      exact hp r hr hpr
    · rename_i hpr
      exact hn r hr hpr

theorem Rows.guarded {h : ∀ r, (set r).job_id = r.job_id} {job_id : Nat} {answer : Bool → QueueCalls.Answer c}
    (hp : ∀ r, p r → r.job_id = job_id)
    (hset : ∀ r ∈ w.jobs, p r → Change w.issued o.now c (answer true) r (set r))
    (hother : ∀ r, r.job_id ≠ job_id → Change w.issued o.now c (answer true) r r)
    (hnone : ∀ r, Change w.issued o.now c (answer false) r r) :
    Rows w (w.updateOne p set h).2 o c (answer (w.updateOne p set h).1) := by
  unfold Queue.updateOne
  by_cases hone : (w.update p set h).1 = 1
  · simp only [hone, decide_true]
    refine Rows.update rfl (Nat.le_refl _) hset fun r hr hpr => hother r fun hid => ?_
    obtain ⟨r₀, hr₀, hpr₀⟩ := (rowcount_iff job_id hp).mp hone
    have : r = r₀ := Table.eq_of_key hr hr₀ (hid.trans (hp r₀ hpr₀).symm)
    exact hpr (this ▸ hpr₀)
  · simp only [hone, decide_false]
    refine Rows.update rfl (Nat.le_refl _) (fun r hr hpr => ?_) fun r _ _ => hnone r
    exact absurd ((rowcount_iff job_id hp).mpr ⟨r, hr, hpr⟩) hone

theorem Rows.of_ok {y : Call.Resp c × Queue} (h : exec c o w = .ok y) (hrows : Rows w y.2 o c (.ok y.1)) :
    Rows w (exec.after c o w) o c (exec.answer c o w) := by
  unfold Interleaving.Exec.after Interleaving.Exec.answer
  rw [h]
  exact hrows

theorem Rows.of_error {e : String} (h : exec c o w = .error e) : Rows w (exec.after c o w) o c (exec.answer c o w) := by
  unfold Interleaving.Exec.after Interleaving.Exec.answer
  rw [h]
  refine Rows.refl rfl (Nat.le_refl _) ?_ ?_
  · cases c <;> rfl
  · cases c <;> rfl

theorem take_queued (hr : r ∈ w.jobs) (hq : r.status = .queued) (token : Nat) (lease_until : Instant) :
    take w token lease_until r.job_id = (some (claimRow token lease_until r),
      (w.update (fun r' => r'.job_id = r.job_id && r'.status = .queued)
        (claimRow token lease_until) fun _ => rfl).2) := by
  have hone : (w.update (fun r' => r'.job_id = r.job_id && r'.status = .queued)
      (claimRow token lease_until) fun _ => rfl).1 = 1 := by
    refine (rowcount_iff r.job_id fun r' hr' => ?_).mpr ⟨r, hr, by simp [hq]⟩
    simp only [Bool.and_eq_true, decide_eq_true_eq] at hr'
    exact hr'.1
  refine (if_neg (not_not.mpr hone)).trans (Prod.ext ?_ rfl)
  refine (Queue.find?_update (h := by exact fun _ => rfl)).trans ?_
  rw [Table.find?_key hr]
  simp [hq]

variable {kind : Option String}

theorem queued_of_candidate (h : candidate w kind = some r) : r ∈ w.jobs ∧ r.status = .queued := by
  obtain ⟨hr, hfit⟩ := List.mem_filter.mp (List.argmin_mem h)
  simp only [Bool.and_eq_true, decide_eq_true_eq] at hfit
  exact ⟨hr, hfit.1⟩

theorem claim_job_cases (w : Queue) (o : Ambient) (kind : Option String) (lease : Option Int) :
    (∃ e, claim_job w o kind lease = .error e) ∨ claim_job w o kind lease = .ok (none, w.draw.2) ∨
    ∃ r ∈ w.jobs, ∃ lease_until, r.status = .queued ∧
      claim_job w o kind lease = .ok (take w.draw.2 w.issued lease_until r.job_id) := by
  unfold claim_job
  split
  · exact .inl ⟨_, rfl⟩
  · right
    cases hc : candidate w.draw.2 kind with
    | none => exact .inl (by simp only [hc])
    | some r =>
      obtain ⟨hr, hq⟩ := queued_of_candidate hc
      exact .inr ⟨r, hr, _, hq, by simp only [hc]; rfl⟩

theorem rows_enqueue_job (w : Queue) (o : Ambient) (kind tenant_id project_id : String)
    (payload : Canonical.Value) (run_id : Option String) (max_attempts : Option Int) :
    Rows w (w.insert (newRow w.issued o kind tenant_id project_id payload run_id max_attempts) rfl) o
      (.enqueue_job kind tenant_id project_id payload run_id max_attempts) (.ok w.issued) := by
  refine ⟨Nat.le_succ _, id, [newRow w.issued o kind tenant_id project_id payload run_id
    max_attempts], ?_, ?_, ?_⟩
  · rw [List.map_id]
    rfl
  · intro r hr
    exact .untouched (by simp [claimed]) (by simp [settled])
  · intro r hr
    rw [List.mem_singleton] at hr
    subst hr
    exact ⟨rfl, rfl, rfl, rfl, _, _, _, _, _, _, rfl, rfl⟩

theorem rows_expire_stale_leases (w : Queue) (o : Ambient) :
    Rows w (expire_stale_leases w o).2 o .expire_stale_leases
      (.ok (expire_stale_leases w o).1) := by
  unfold expire_stale_leases
  simp only
  split
  · exact Rows.refl rfl (Nat.le_refl _) rfl rfl
  · refine Rows.update (h := by exact fun _ => rfl) rfl (Nat.le_refl _) ?_ ?_
    · intro r hr hp
      simp only [decide_eq_true_eq, List.mem_map, List.mem_filter] at hp
      obtain ⟨r', ⟨hr', hs⟩, hid⟩ := hp
      have : r' = r := Table.eq_of_key hr' hr hid
      exact .expire (this ▸ hs)
    · intro r hr hp
      exact .untouched (by simp [claimed]) (by simp [settled])

theorem rows_take {lease : Option Int} (hr : r ∈ w.jobs) (hq : r.status = .queued) (lease_until : Instant) :
    Rows w (take w.draw.2 w.issued lease_until r.job_id).2 o (.claim_job kind lease)
      (.ok (take w.draw.2 w.issued lease_until r.job_id).1) := by
  rw [take_queued (w := w.draw.2) hr hq]
  refine Rows.update (h := by exact fun _ => rfl) rfl (Nat.le_succ _) ?_ ?_
  · intro r' hr' hp
    simp only [Bool.and_eq_true, decide_eq_true_eq] at hp
    have : r' = r := Table.eq_of_key hr' hr hp.1
    subst this
    exact .claim hq
  · intro r' hr' hp
    refine .untouched (fun t ht => hp ?_) (by simp [settled])
    simp only [claimed, claimRow, Option.map_some, Option.some.injEq, Prod.mk.injEq] at ht
    have : r' = r := Table.eq_of_key hr' hr ht.1.symm
    subst this
    simp [hq]

theorem rows_fail_job (w : Queue) (o : Ambient) (job_id claim_token : Nat) (error : String) :
    Rows w (fail_job w job_id claim_token error).2 o (.fail_job job_id claim_token error)
      (.ok (fail_job w job_id claim_token error).1) := by
  unfold fail_job
  cases hf : w.jobs.rows.find? (fenced job_id claim_token) with
  | none => exact Rows.refl rfl (Nat.le_refl _) rfl (by simp [settled])
  | some row =>
    have hrow : row ∈ w.jobs := List.mem_of_find?_eq_some hf
    have hfence : fenced job_id claim_token row := List.find?_some hf
    have hone : ∀ r ∈ w.jobs, r.job_id = job_id → r = row := fun r hr hid =>
      Table.eq_of_key hr hrow (hid.trans (fenced_iff.mp hfence).1.symm)
    have hother : ∀ outcome, ∀ r ∈ w.jobs, ¬ fenced job_id claim_token r →
        Change w.issued o.now (.fail_job job_id claim_token error) (.ok outcome) r r := by
      intro outcome r hr hp
      refine .untouched (by simp [claimed]) fun t ht => hp ?_
      simp only [settled, Option.ite_none_left_eq_some, Option.some.injEq, Prod.mk.injEq] at ht
      rw [hone r hr ht.2.1.symm]
      exact hfence
    by_cases hspent : row.max_attempts ≤ row.attempt_count
    · simp only [hspent, if_true]
      refine Rows.update (h := by exact fun _ => rfl) rfl (Nat.le_refl _) (fun r hr hp => ?_) (hother _)
      have : r = row := hone r hr (fenced_iff.mp hp).1
      exact .dead_letter hp (this ▸ hspent)
    · simp only [hspent, if_false]
      refine Rows.update (h := by exact fun _ => rfl) rfl (Nat.le_refl _) (fun r hr hp => ?_) (hother _)
      have : r = row := hone r hr (fenced_iff.mp hp).1
      exact .requeue hp (this ▸ Int.not_le.mp hspent)

/-- **What every call does to the rows.** -/
theorem rows_exec (w : Queue) (o : Ambient) (c : Call) : Rows w (exec.after c o w) o c (exec.answer c o w) := by
  cases c with
  | enqueue_job kind tenant_id project_id payload run_id max_attempts =>
    by_cases hk : kind ∈ _VALID_JOB_KINDS
    · exact Rows.of_ok (if_neg (not_not.mpr hk)) (rows_enqueue_job ..)
    · exact Rows.of_error (if_pos hk)
  | get_job job_id => exact Rows.of_ok rfl (Rows.refl rfl (Nat.le_refl _) rfl rfl)
  | expire_stale_leases => exact Rows.of_ok rfl (rows_expire_stale_leases w o)
  | claim_job kind lease =>
    rcases claim_job_cases w o kind lease with ⟨e, he⟩ | hnone | ⟨r, hr, lease_until, hq, hsome⟩
    · exact Rows.of_error he
    · exact Rows.of_ok hnone (Rows.refl rfl (Nat.le_succ _) rfl rfl)
    · exact Rows.of_ok hsome (rows_take hr hq lease_until)
  | renew_job_lease job_id claim_token lease =>
    refine Rows.of_ok rfl (Rows.guarded (h := by exact fun _ => rfl) (fun r hr => (fenced_iff.mp hr).1) (fun r _ hr => .renew hr)
      (fun r hr => .untouched ?_ ?_) (fun r => .untouched ?_ ?_))
    all_goals simp [claimed, settled]
  | complete_job job_id claim_token result =>
    refine Rows.of_ok rfl (Rows.guarded (h := by exact fun _ => rfl) (fun r hr => (fenced_iff.mp hr).1)
      (fun r _ hr => .complete hr) (fun r hr => .untouched ?_ ?_) (fun r => .untouched ?_ ?_))
    all_goals simp [claimed, settled]
    exact Ne.symm hr
  | fail_job job_id claim_token error => exact Rows.of_ok rfl (rows_fail_job ..)
  | request_job_cancellation job_id =>
    have hguard : ∀ r : Job, (r.job_id = job_id && (r.status = .queued || r.status = .running)) →
        r.job_id = job_id ∧ (r.status = .queued ∨ r.status = .running) := by
      simp
    refine Rows.of_ok rfl (Rows.guarded (h := by exact fun _ => rfl)
      (fun r hr => (hguard r hr).1) (fun r _ hr => .cancel (hguard r hr).2)
      (fun r _ => .untouched ?_ ?_) (fun r => .untouched ?_ ?_))
    all_goals simp [claimed, settled]

/-! ## What a change leaves alone -/

section Change

variable {issued : Nat} {now : Instant} {c : Call} {a : QueueCalls.Answer c} {r r' : Job}

theorem Change.job_id (h : Change issued now c a r r') : r'.job_id = r.job_id := by
  cases h <;> rfl

/-- A job that is over. -/
def JobStatus.Final (status : JobStatus) : Prop := status ≠ .queued ∧ status ≠ .running

theorem Change.final (h : Change issued now c a r r') (hr : r.status.Final) : r'.status = r.status := by
  cases h with
  | untouched => rfl
  | renew => rfl
  | claim hq => exact absurd hq hr.1
  | complete hf => exact absurd (fenced_iff.mp hf).2.2 hr.2
  | dead_letter hf => exact absurd (fenced_iff.mp hf).2.2 hr.2
  | requeue hf => exact absurd (fenced_iff.mp hf).2.2 hr.2
  | expire hs => exact absurd (stale_iff.mp hs).1 hr.2
  | cancel ho => exact (ho.elim hr.1 hr.2).elim

theorem Change.attempt_count (h : Change issued now c a r r') : r'.attempt_count =
      r.attempt_count + if (claimed c a).any (fun x => x.1 = r.job_id) then 1 else 0 := by
  cases h with
  | untouched hclaim hsettle =>
    cases hc : claimed c a with
    | none => rfl
    | some x =>
      have hne : x.1 ≠ r.job_id := by
        rintro hid
        exact hclaim x.2 (by rw [hc, ← hid])
      simp [hne]
  | claim hq => simp [claimed, claimRow]
  | renew hf => rfl
  | complete hf => rfl
  | dead_letter hf => rfl
  | requeue hf => rfl
  | expire hs => rfl
  | cancel ho => rfl

theorem Change.claim_token {t : Nat} (h : Change issued now c a r r') (ht : r'.claim_token = some t) :
    r.claim_token = some t ∨ claimed c a = some (r.job_id, t) := by
  cases h with
  | claim hq =>
    cases ht
    exact .inr rfl
  | expire hs => cases ht
  | _ => exact .inl ht

theorem Change.fenced {job_id t : Nat} (h : Change issued now c a r r') (hf : fenced job_id t r') :
    (fenced job_id t r ∧ settled c a ≠ some (job_id, t)) ∨ t = issued := by
  obtain ⟨hid, ht, hrun⟩ := fenced_iff.mp hf
  cases h with
  | untouched hclaim hsettle => exact .inl ⟨hf, hid ▸ hsettle t⟩
  | claim hq =>
    cases ht
    exact .inr rfl
  | renew hf' => exact .inl ⟨fenced_iff.mpr ⟨hid, ht, hrun⟩, by simp [settled]⟩
  | complete hf' => cases hrun
  | dead_letter hf' => cases hrun
  | requeue hf' => cases hrun
  | expire hs => cases hrun
  | cancel ho => cases hrun

end Change

/-! ## Whom a call answers -/

/-- A call that only the holder may make takes effect on the row it holds. -/
theorem fenced_of_succeeded {job_id t : Nat} (h : succeeded c (exec.answer c o w) = some (job_id, t)) :
    ∃ r ∈ w.jobs, fenced job_id t r := by
  have hone : ∀ id claim_token set h, (w.updateOne (fenced id claim_token) set h).1 = true →
      ∃ r ∈ w.jobs, fenced id claim_token r := fun id claim_token set h htrue =>
    (rowcount_iff id fun r hr => (fenced_iff.mp hr).1).mp (of_decide_eq_true htrue)
  cases c with
  | renew_job_lease id claim_token lease =>
    change succeeded (.renew_job_lease id claim_token lease) (Except.ok (renew_job_lease w o id claim_token lease).1) = _ at h
    cases hb : (renew_job_lease w o id claim_token lease).1 with
    | false =>
      rw [hb] at h
      cases h
    | true =>
      rw [hb] at h
      cases h
      exact hone _ _ _ _ hb
  | complete_job id claim_token result =>
    change succeeded (.complete_job id claim_token result) (Except.ok (complete_job w id claim_token result).1) = _ at h
    cases hb : (complete_job w id claim_token result).1 with
    | false =>
      rw [hb] at h
      cases h
    | true =>
      rw [hb] at h
      cases h
      exact hone _ _ _ _ hb
  | fail_job id claim_token error =>
    change (if (fail_job w id claim_token error).1 = .not_fenced then none else some (id, claim_token))
      = _ at h
    split at h
    · cases h
    · rename_i hfenced
      cases h
      cases hf : w.jobs.rows.find? (fenced job_id t) with
      | none => exact absurd (by rw [fail_job, hf]) hfenced
      | some r => exact ⟨r, List.mem_of_find?_eq_some hf, List.find?_some hf⟩
  | claim_job kind lease =>
    rw [succeeded, settled] at h
    · cases h
    all_goals simp
  | _ => cases h

theorem settled_succeeded {x : Nat × Nat} (h : settled c a = some x) : succeeded c a = some x := by
  cases c with
  | renew_job_lease job_id claim_token lease =>
    rw [settled] at h
    · cases h
    all_goals simp
  | _ => exact h

theorem claimed_issued {job_id t : Nat} (h : claimed c (exec.answer c o w) = some (job_id, t)) :
    t = w.issued ∧ w.issued < (exec.after c o w).issued ∧ job_id < w.issued := by
  cases c with
  | claim_job kind lease =>
    unfold Interleaving.Exec.answer at h
    unfold Interleaving.Exec.after
    simp only [exec] at h ⊢
    rcases claim_job_cases w o kind lease with ⟨e, he⟩ | hnone | ⟨r, hr, lease_until, hq, hsome⟩
    · rw [he] at h
      cases h
    · rw [hnone] at h
      cases h
    · rw [take_queued (w := w.draw.2) hr hq] at hsome
      rw [hsome] at h ⊢
      cases h
      exact ⟨rfl, Nat.lt_succ_self _, w.below r hr⟩
  | _ => cases h

end Jobs
