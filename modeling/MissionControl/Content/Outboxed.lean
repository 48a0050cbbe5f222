import MissionControl.Content.Transitions

/-! # Scheduled jobs are not lost

A tick claims a job, and in a transaction of its own hands the job's message to the outbox. A job that was claimed is
never taken up again, so what a tick that is stopped between the two has claimed stays enqueued, without a message. No
other job is lost (`none_lost`): as long as no worker is stopped there, a tick that comes to its end has settled each
job it found due, or has blocked it. -/

namespace Content

open Canonical (Sha256)
open Interleaving
open Interleaving.Program (Only only_perform)
open Projects (given)
open Relational (Table)
open Reliability (OutboxMessage)

/-! ## The jobs a tick reaches -/

/-- A tick finds the job due. -/
def IsDue (now : String) (project_id : Option String) (j : ScheduledJob) : Prop :=
  j.Live ∧ j.due_at ≤ now ∧ ∀ p ∈ given project_id, j.project_id = p

instance (now : String) (project_id : Option String) (j : ScheduledJob) : Decidable (IsDue now project_id j) :=
  inferInstanceAs (Decidable (_ ∧ _ ∧ ∀ p ∈ given project_id, _))

/-- The order a tick takes jobs up in. -/
def NotAfter (a b : ScheduledJob) : Prop := a.due_at < b.due_at ∨ a.due_at = b.due_at ∧ a.job_id ≤ b.job_id

instance (a b : ScheduledJob) : Decidable (NotAfter a b) := inferInstanceAs (Decidable (_ ∨ _ ∧ _))

/-- The tick's limit reaches as far as the job: fewer due jobs come before it. -/
def InReach (s : OpsState) (now : String) (project_id : Option String) (limit : Int) (j : ScheduledJob) : Prop :=
  s.jobs.table.rows.countP (fun b => IsDue now project_id b ∧ NotAfter b j ∧ b.job_id ≠ j.job_id) <
    (max 1 (min limit 500)).toNat

theorem notAfter_total (a b : ScheduledJob) : NotAfter a b ∨ NotAfter b a := by
  unfold NotAfter
  rcases lt_trichotomy a.due_at b.due_at with h | h | h
  · exact .inl (.inl h)
  · rcases le_total a.job_id b.job_id with hid | hid
    · exact .inl (.inr ⟨h, hid⟩)
    · exact .inr (.inr ⟨h.symm, hid⟩)
  · exact .inr (.inl h)

theorem notAfter_trans {a b c : ScheduledJob} (hab : NotAfter a b) (hbc : NotAfter b c) : NotAfter a c := by
  unfold NotAfter at *
  rcases hab with hab | ⟨hab, hid⟩
  · rcases hbc with hbc | ⟨hbc, -⟩
    · exact .inl (hab.trans hbc)
    · exact .inl (hbc ▸ hab)
  · rcases hbc with hbc | ⟨hbc, hid'⟩
    · exact .inl (hab ▸ hbc)
    · exact .inr ⟨hab.trans hbc, hid.trans hid'⟩

theorem mem_take_of_few {α : Type} {r : α → α → Prop} {p : α → Bool} {l : List α} {a : α} {n : ℕ}
    (hsorted : l.Pairwise r) (hnodup : l.Nodup) (ha : a ∈ l) (hp : ∀ b ∈ l, r b a → b ≠ a → p b = true)
    (hfew : l.countP p < n) : a ∈ l.take n := by
  obtain ⟨before, after, rfl⟩ := List.append_of_mem ha
  have hbefore : ∀ b ∈ before, p b = true := by
    intro b hb
    apply hp b (List.mem_append_left _ hb)
    · exact (List.pairwise_append.mp hsorted).2.2 b hb a List.mem_cons_self
    · exact (List.nodup_append.mp hnodup).2.2 b hb a List.mem_cons_self
  have hcount : before.length ≤ (before ++ a :: after).countP p := by
    rw [List.countP_append, List.countP_eq_length.mpr hbefore]
    exact Nat.le_add_right _ _
  obtain ⟨m, hm⟩ : ∃ m, n - before.length = m + 1 := Nat.exists_eq_succ_of_ne_zero (by omega)
  rw [List.take_append, hm, List.take_succ_cons]
  simp

/-- **What is due and in reach is taken up.** -/
theorem mem_due_jobs {s : OpsState} {now : String} {project_id : Option String} {limit : Int} {j : ScheduledJob}
    (hj : j ∈ s.jobs) (hdue : IsDue now project_id j) (hreach : InReach s now project_id limit j) :
    j ∈ s.due_jobs now project_id limit := by
  show j ∈ ((s.jobs.table.rows.filter fun j => IsDue now project_id j).insertionSort NotAfter).take _
  have hperm := List.perm_insertionSort NotAfter (s.jobs.table.rows.filter fun j => IsDue now project_id j)
  have hnodup : (s.jobs.table.rows.filter fun j => IsDue now project_id j).Nodup :=
    (List.Nodup.of_map _ s.jobs.table.nodup).filter _
  refine mem_take_of_few (r := NotAfter) (p := fun b => NotAfter b j ∧ b.job_id ≠ j.job_id) ?_ ?_ ?_ ?_ ?_
  · have : Std.Total NotAfter := ⟨notAfter_total⟩
    have : IsTrans ScheduledJob NotAfter := ⟨fun _ _ _ => notAfter_trans⟩
    exact List.pairwise_insertionSort NotAfter _
  · exact hperm.nodup_iff.mpr hnodup
  · exact hperm.mem_iff.mpr (List.mem_filter.mpr ⟨hj, decide_eq_true hdue⟩)
  · intro b hb hbefore hne
    have hmem := (List.mem_filter.mp (hperm.mem_iff.mp hb)).1
    exact decide_eq_true ⟨hbefore, fun hid => hne (Table.eq_of_key hmem hj hid)⟩
  · refine lt_of_eq_of_lt ?_ hreach
    rw [hperm.countP_eq, List.countP_filter]
    congr 1
    funext b
    rw [Bool.eq_iff_iff]
    simp only [Bool.and_eq_true, decide_eq_true_eq]
    tauto

/-! ## Messages stay -/

def HasMessage (s : OpsState) (id : String) : Prop := ∃ m ∈ s.trust.outbox, m.message_id = id

section

variable {c : OpsCall} {o : OpsOutcome} {s s' : OpsState} {id : String}

theorem hasMessage_of_trust (h : s'.trust = s.trust) (hid : HasMessage s id) : HasMessage s' id := by
  unfold HasMessage at *
  rwa [h]

variable {t : Table OutboxMessage String OutboxMessage.message_id}

theorem mem_outbox_write (x : Reliability.Write) (h : ∃ m ∈ t, m.message_id = id) :
    ∃ m ∈ x.outbox t, m.message_id = id := by
  cases x with
  | put_outbox value =>
    obtain ⟨m, hm, hid⟩ := h
    by_cases hsame : m.message_id = value.message_id
    · exact ⟨value, Table.mem_put.mpr (.inl rfl), hsame.symm.trans hid⟩
    · exact ⟨m, Table.mem_put.mpr (.inr ⟨hm, hsame⟩), hid⟩
  | _ => exact h

theorem mem_outbox_writes (writes : List Reliability.Write) (h : ∃ m ∈ t, m.message_id = id) :
    ∃ m ∈ writes.foldl Reliability.Write.outbox t, m.message_id = id := by
  induction writes generalizing t with
  | nil => exact h
  | cons x writes ih => exact ih (mem_outbox_write x h)

theorem trust_insert_job {job_id : String} {n : NewJob} {x : ScheduledJob × OpsState}
    (h : s._insert_job job_id n = .ok x) : x.2.trust = s.trust := by
  unfold OpsState._insert_job at h
  split at h
  · cases h
    rfl
  · split at h
    · cases h
      rfl
    · cases h

theorem trust_fillSlot {item_id : String} {slot_id : Option String} : (s.fillSlot item_id slot_id).trust = s.trust := by
  cases slot_id <;> rfl

theorem trust_finish_item (s : OpsState) (current : ContentItem) : (s.finish_item current).trust = s.trust := by
  unfold OpsState.finish_item
  split
  · dsimp only
    split
    · split <;> rfl
    · rfl
  · split <;> rfl

theorem trust_insertSteps [IsoTime] {fresh : ℕ → Hex} {journey : Journey} {index : ℕ} {steps : List JourneyStep}
    {x : List ScheduledJob × OpsState} (h : OpsState.insertSteps fresh journey index steps s = .ok x) :
    x.2.trust = s.trust := by
  induction steps generalizing index s x with
  | nil =>
    cases h
    rfl
  | cons step steps ih =>
    obtain ⟨item, job, s₁, jobs, hjob, hrest, -⟩ := insertSteps_cons h
    exact (ih hrest).trans (trust_insert_job hjob)

variable [Sha256]

theorem mem_outbox_after (c : Reliability.Call) (o : Reliability.Outcome) (s : Reliability.ReliabilityState)
    (h : ∃ m ∈ s.outbox, m.message_id = id) : ∃ m ∈ (Reliability.exec.after c o s).outbox, m.message_id = id := by
  rw [Reliability.outbox_after]
  exact mem_outbox_writes _ h

variable [IsoTime]

/-- Only its own calls change the trust kernel. -/
theorem trust_after (hc : ∀ c', c ≠ .trust c') : (opsExec.after c o s).trust = s.trust := by
  cases hexec : opsExec c o s with
  | error e => rw [Exec.after_of_error hexec]
  | ok x =>
    obtain ⟨a, s'⟩ := x
    rw [Exec.after_of_ok hexec]
    have hrun := run_of_exec hexec
    cases c with
    | trust c => exact absurd rfl (hc c)
    | insert_item row =>
      simp only [OpsCall.run, OpsState.insert_item] at hrun
      split at hrun <;> cases hrun
      rfl
    | transition_item item_id item target approved_version approval_ref =>
      simp only [OpsCall.run, OpsState.transition_item] at hrun
      split at hrun
      · split at hrun <;> cases hrun <;> rfl
      · cases hrun
    | revise_item item_id item body new_state =>
      simp only [OpsCall.run, OpsState.revise_item] at hrun
      split at hrun <;> cases hrun
      rfl
    | schedule_item item_id item slot_id job =>
      simp only [OpsCall.run, OpsState.schedule_item] at hrun
      split at hrun
      · exact (trust_insert_job hrun).trans trust_fillSlot
      · cases hrun
    | insert_job job => exact trust_insert_job hrun
    | insert_journey journey => exact trust_insertSteps hrun
    | claim_job job_id mark moved =>
      simp only [OpsCall.run, Except.ok.injEq] at hrun
      unfold OpsState.claim_job at hrun
      split at hrun
      · rename_i s₁ item target hclaim
        cases hrun
        obtain rfl : (s._set_job job_id mark).2 = s₁ := congrArg Prod.snd hclaim
        rfl
      · rename_i hclaim _
        cases hrun
        obtain rfl : (s._set_job job_id mark).2 = s' := congrArg Prod.snd hclaim
        rfl
    | finish_item current =>
      cases hrun
      exact trust_finish_item s current
    | ensure_attempt attempt =>
      simp only [OpsCall.run, OpsState.ensure_attempt] at hrun
      split at hrun
      · cases hrun
        rfl
      · split at hrun <;> cases hrun
        rfl
    | _ =>
      cases hrun
      rfl

/-- **No call takes a message out of the outbox.** -/
theorem hasMessage_after (h : HasMessage s id) : HasMessage (opsExec.after c o s) id := by
  by_cases hc : ∃ c', c = .trust c'
  · obtain ⟨c', rfl⟩ := hc
    have hafter : opsExec.after (.trust c') o s =
        { s with trust := Reliability.exec.after c' o.trust s.trust } := trustCalls_carries.after c' o s
    rw [hafter]
    exact mem_outbox_after c' o.trust s.trust h
  · exact hasMessage_of_trust (trust_after fun c' heq => hc ⟨c', heq⟩) h

omit [IsoTime] in
theorem mem_outbox_of_enqueue {l : List (OwnCall Reliability.TrustCalls Reliability.ReliabilityState Reliability.Outcome)}
    {tenant_id project_id topic payload_ref idempotency_key : String} {payload : Canonical.Value} {message : OutboxMessage}
    (h : Amid Reliability.exec
      (Reliability.enqueue_outbox tenant_id project_id id topic payload payload_ref idempotency_key) l (.ret message)) :
    ∃ x ∈ l, ∃ m ∈ (x.after Reliability.exec).outbox, m.message_id = id := by
  obtain ⟨_, l₁, l₂, rfl, -, hscoped⟩ := h.of_bind_ret
  obtain ⟨state, l₃, l₄, rfl, hstate, hread⟩ := hscoped.of_bind_ret
  obtain ⟨w, o, rfl, hanswer⟩ := hstate.of_perform_ret
  have hstate : state = w ∧ Reliability.exec.after .state o w = w := by
    have hexec := Exec.of_answer hanswer
    simp only [Reliability.exec] at hexec
    split at hexec
    · cases hexec
    · obtain ⟨hw, hafter⟩ := Prod.mk.inj (Except.ok.inj hexec)
      exact ⟨hw.symm, hafter.symm⟩
  obtain ⟨rfl, hafter⟩ := hstate
  dsimp only at hread
  cases hfind : state.outbox.find? id with
  | some existing =>
    refine ⟨⟨state, .state, o⟩, by simp, existing, ?_, Table.key_of_find? hfind⟩
    rw [OwnCall.after, hafter]
    exact Table.mem_of_find? hfind
  | none =>
    rw [hfind] at hread
    obtain ⟨created_at, l₅, l₆, rfl, -, hnew⟩ := hread.of_bind_ret
    obtain ⟨_, l₇, l₈, rfl, htransaction, -⟩ := hnew.of_bind_ret
    obtain ⟨w', o', rfl, hwritten⟩ := htransaction.of_perform_ret
    refine ⟨_, List.mem_append_right l₁ (List.mem_append_right _ (List.mem_append_right l₅ List.mem_cons_self)), ?_⟩
    rw [OwnCall.after, Reliability.outbox_after, hwritten]
    exact ⟨_, Table.mem_put.mpr (.inl rfl), rfl⟩

end

/-! ## What a worker hands to the outbox -/

abbrev OwnOps : Type := OwnCall OpsCalls OpsState OpsOutcome

section

variable [Sha256] [IsoTime]

/-- The call claims the job, which was there to be claimed. -/
def Wins (job_id : String) (x : OwnOps) : Prop :=
  ∃ w moved o, x = ⟨w, .claim_job job_id (enqueueMark (messageId job_id)) moved, o⟩ ∧
    opsExec.answer (.claim_job job_id (enqueueMark (messageId job_id)) moved) o w = .ok true

/-- Among the calls there is an `enqueue_outbox` of the job's message that came to its end. -/
def Enqueues (job_id : String) (l : List OwnOps) : Prop :=
  ∃ tenant_id project_id topic payload payload_ref idempotency_key, Completes opsExec
    (withTrust (Reliability.enqueue_outbox tenant_id project_id (messageId job_id) topic payload payload_ref
      idempotency_key)) l

/-- The worker was not stopped between the claim of a job and the end of its `enqueue_outbox`. -/
def HandsOver (l : List OwnOps) : Prop := FollowedBy Wins Enqueues l

theorem Enqueues.append (job_id : String) (l l' : List OwnOps) (h : Enqueues job_id l) : Enqueues job_id (l ++ l') := by
  obtain ⟨tenant_id, project_id, topic, payload, payload_ref, idempotency_key, h⟩ := h
  exact ⟨tenant_id, project_id, topic, payload, payload_ref, idempotency_key, h.append_right⟩

variable {l : List OwnOps}

theorem HandsOver.append {l' : List OwnOps} (h : HandsOver l) (h' : HandsOver l') : HandsOver (l ++ l') :=
  FollowedBy.append Enqueues.append h h'

/-- A call that claims no job for the outbox. -/
def NoClaim (c : OpsCall) : Prop := ∀ job_id moved, c ≠ .claim_job job_id (enqueueMark (messageId job_id)) moved

variable {c : OpsCall}

omit [Sha256] [IsoTime] in
theorem noClaim_of_proper {moves : Prop} (hc : ProperIf moves False c) : NoClaim c := by
  rintro job_id moved rfl
  exact hc.1

variable {α : Type}

theorem handsOver_of_noClaim {p q : Ops α} (hp : p.Only NoClaim) (h : Amid opsExec p l q) : HandsOver l := by
  apply followedBy_of_never
  rintro x hx job_id ⟨w, moved, o, rfl, -⟩
  exact h.only hp _ hx job_id moved rfl

theorem handsOver_of_proper {p q : Ops α} (hp : p.Only (ProperIf True False)) (h : Amid opsExec p l q) : HandsOver l :=
  handsOver_of_noClaim (hp.mono fun _ => noClaim_of_proper) h

variable [Json]

variable {worker_id : String} {job : ScheduledJob}

variable {item : ContentItem}

theorem enqueues_of_deliver {delivery : Reliability.OutboxDeliveryResult}
    (h : Amid opsExec (deliver job item worker_id) l (.ret delivery)) : Enqueues job.job_id l := by
  obtain ⟨_, l₁, l₂, rfl, -, hbound⟩ := h.of_bind_ret
  obtain ⟨message, l₃, l₄, rfl, henqueue, -⟩ := hbound.of_bind_ret
  exact ⟨_, _, _, _, _, _, henqueue.completes.append_right.append_left⟩

variable {status : TickStatus}

theorem handsOver_claimAndDeliver (h : Amid opsExec (claimAndDeliver job item worker_id) l (.ret status)) :
    HandsOver l := by
  obtain ⟨mode, l₁, l₂, rfl, hmode, hclaiming⟩ := h.of_bind_ret
  obtain ⟨w, o, rfl, -⟩ := hmode.of_perform_ret
  refine FollowedBy.cons (fun job_id hwins => ?_) ?_
  · obtain ⟨w', moved, o', heq, -⟩ := hwins
    cases heq
  obtain ⟨claimed, l₃, l₄, rfl, hclaim, hrest⟩ := hclaiming.of_bind_ret
  obtain ⟨w', o', rfl, hanswer⟩ := hclaim.of_perform_ret
  refine FollowedBy.cons (fun job_id hwins => ?_) ?_
  · obtain ⟨w'', moved, o'', heq, hwon⟩ := hwins
    cases heq
    obtain rfl : claimed = true := Except.ok.inj (hanswer.symm.trans hwon)
    obtain ⟨delivery, l₅, l₆, rfl, hdeliver, -⟩ := hrest.of_bind_ret
    exact (enqueues_of_deliver hdeliver).append _ _ _
  · split at hrest
    · obtain ⟨rfl, -⟩ := hrest.of_ret
      exact followedBy_of_never (by simp)
    · refine handsOver_of_proper ?_ hrest
      refine (only_deliver job item worker_id).bind fun delivery => ?_
      exact Only.bind (only_perform (proper_deliveryMark _ _)) fun _ => trivial

variable {now : Datetime}

theorem handsOver_runJob (h : Amid opsExec (runJob now worker_id job) l (.ret status)) : HandsOver l := by
  unfold runJob at h
  split at h
  · refine handsOver_of_noClaim ?_ h
    refine Only.bind (only_perform fun _ _ => nofun) fun item => ?_
    split
    · exact Only.bind (only_perform fun _ _ => nofun) fun _ => trivial
    · refine Only.bind (only_perform fun _ _ heq => ?_) fun claimed => ?_
      · cases heq
      · split <;> trivial
  · obtain ⟨item, l₁, l₂, rfl, hitem, hread⟩ := h.of_bind_ret
    refine HandsOver.append (handsOver_of_noClaim ?_ hitem) ?_
    · exact only_perform fun _ _ => nofun
    split at hread
    · refine handsOver_of_noClaim ?_ hread
      exact Only.bind (only_perform fun _ _ => nofun) fun _ => trivial
    · obtain ⟨reasons, l₃, l₄, rfl, hreasons, hgate⟩ := hread.of_bind_ret
      refine HandsOver.append (handsOver_of_proper (only_blockReasons job _ now) hreasons) ?_
      split at hgate
      · refine handsOver_of_noClaim ?_ hgate
        exact Only.bind (only_perform fun _ _ => nofun) fun _ => trivial
      · exact handsOver_claimAndDeliver hgate

variable {results : List (String × TickStatus)} {jobs : List ScheduledJob}

theorem handsOver_runJobs (h : Amid opsExec (runJobs now worker_id jobs) l (.ret results)) : HandsOver l := by
  induction jobs generalizing l results with
  | nil =>
    obtain ⟨rfl, -⟩ := h.of_ret
    exact followedBy_of_never (by simp)
  | cons job jobs ih =>
    obtain ⟨status, l₁, l₂, rfl, hjob, hrest⟩ := h.of_bind_ret
    obtain ⟨rest, l₃, l₄, rfl, hjobs, hret⟩ := hrest.of_bind_ret
    obtain ⟨rfl, -⟩ := hret.of_ret
    rw [List.append_nil]
    exact (handsOver_runJob hjob).append (ih hjobs)

/-! ## What becomes of a job that is taken up -/

/-- The job is not live after the call. -/
def Settles (job_id : String) (x : OwnOps) : Prop := ∀ j ∈ (x.after opsExec).jobs, j.job_id = job_id → ¬ j.Live

/-- The job did not pass its gate. -/
def Blocks (job_id : String) (x : OwnOps) : Prop :=
  ∃ reasons, reasons ≠ [] ∧ x.call = .set_job job_id (blockMark reasons)

variable {job_id : String} {s : OpsState} {mark : JobMark}

omit [Sha256] [IsoTime] [Json] in
theorem not_live_set_job (hfrom : mark.from_statuses = TAKEN_UP) (hstatus : mark.status ∉ TAKEN_UP) :
    ∀ j ∈ (s._set_job job_id mark).2.jobs, j.job_id = job_id → ¬ j.Live := by
  intro j hj hid hlive
  obtain ⟨j₀, hj₀, rfl⟩ := List.mem_map.mp hj
  unfold OpsState.setJob at hid hlive
  split at hlive
  · exact hstatus (mem_TAKEN_UP.mpr hlive)
  · rename_i hunmarked
    rw [if_neg hunmarked] at hid
    refine hunmarked ⟨hid, ?_⟩
    rw [hfrom]
    exact mem_TAKEN_UP.mpr hlive

variable {o : OpsOutcome}

omit [Json] in
theorem settles_set_job {w : OpsState} {marked : Bool} (hfrom : mark.from_statuses = TAKEN_UP)
    (hstatus : mark.status ∉ TAKEN_UP) (h : opsExec.answer (.set_job job_id mark) o w = .ok marked) :
    Settles job_id ⟨w, .set_job job_id mark, o⟩ := by
  have hrun := run_of_exec (Exec.of_answer h)
  have hafter : (w._set_job job_id mark).2 = opsExec.after (.set_job job_id mark) o w :=
    congrArg Prod.snd (Except.ok.inj hrun)
  unfold Settles OwnCall.after
  rw [← hafter]
  exact not_live_set_job hfrom hstatus

variable {moved : Option (ContentItem × ContentState)}

omit [Sha256] [IsoTime] [Json] in
theorem jobs_claim_job : (s.claim_job job_id mark moved).2.jobs = (s._set_job job_id mark).2.jobs := by
  unfold OpsState.claim_job
  split
  · rename_i hclaim
    rw [hclaim]
    rfl
  · rename_i hclaim _
    rw [hclaim]

omit [Json] in
theorem settles_claim_job {w : OpsState} {claimed : Bool} (hfrom : mark.from_statuses = TAKEN_UP)
    (hstatus : mark.status ∉ TAKEN_UP) (h : opsExec.answer (.claim_job job_id mark moved) o w = .ok claimed) :
    Settles job_id ⟨w, .claim_job job_id mark moved, o⟩ := by
  have hrun := run_of_exec (Exec.of_answer h)
  have hafter : (w.claim_job job_id mark moved).2 = opsExec.after (.claim_job job_id mark moved) o w :=
    congrArg Prod.snd (Except.ok.inj hrun)
  unfold Settles OwnCall.after
  rw [← hafter, jobs_claim_job]
  exact not_live_set_job hfrom hstatus

/-- **A job that was taken up to the end is settled or blocked.** -/
theorem settled_or_blocked (h : Amid opsExec (runJob now worker_id job) l (.ret status)) :
    (∃ x ∈ l, Settles job.job_id x) ∨ ∃ x ∈ l, Blocks job.job_id x := by
  unfold runJob at h
  split at h
  · obtain ⟨item, l₁, l₂, rfl, -, hread⟩ := h.of_bind_ret
    refine .inl ?_
    split at hread
    · obtain ⟨marked, l₃, l₄, rfl, hmark, -⟩ := hread.of_bind_ret
      obtain ⟨w, o, rfl, hanswer⟩ := hmark.of_perform_ret
      exact ⟨_, by simp, settles_set_job rfl (by simp [cancelMark, TAKEN_UP]) hanswer⟩
    · obtain ⟨claimed, l₃, l₄, rfl, hclaim, -⟩ := hread.of_bind_ret
      obtain ⟨w, o, rfl, hanswer⟩ := hclaim.of_perform_ret
      exact ⟨_, by simp, settles_claim_job rfl (by simp [refreshMark, TAKEN_UP]) hanswer⟩
  · obtain ⟨item, l₁, l₂, rfl, -, hread⟩ := h.of_bind_ret
    split at hread
    · obtain ⟨marked, l₃, l₄, rfl, hmark, -⟩ := hread.of_bind_ret
      obtain ⟨w, o, rfl, hanswer⟩ := hmark.of_perform_ret
      exact .inl ⟨_, by simp, settles_set_job rfl (by simp [cancelMark, TAKEN_UP]) hanswer⟩
    · obtain ⟨reasons, l₃, l₄, rfl, -, hgate⟩ := hread.of_bind_ret
      split at hgate
      · obtain ⟨marked, l₅, l₆, rfl, hmark, -⟩ := hgate.of_bind_ret
        obtain ⟨w, o, rfl, -⟩ := hmark.of_perform_ret
        refine .inr ⟨_, List.mem_append_right l₁ (List.mem_append_right l₃ List.mem_cons_self), ?_⟩
        exact ⟨_, List.cons_ne_nil _ _, rfl⟩
      · obtain ⟨mode, l₅, l₆, rfl, -, hclaiming⟩ := hgate.of_bind_ret
        obtain ⟨claimed, l₇, l₈, rfl, hclaim, -⟩ := hclaiming.of_bind_ret
        obtain ⟨w, o, rfl, hanswer⟩ := hclaim.of_perform_ret
        exact .inl ⟨_, by simp, settles_claim_job rfl (by simp [enqueueMark, TAKEN_UP]) hanswer⟩

theorem settled_or_blocked_each (h : Amid opsExec (runJobs now worker_id jobs) l (.ret results)) :
    ∀ job ∈ jobs, (∃ x ∈ l, Settles job.job_id x) ∨ ∃ x ∈ l, Blocks job.job_id x := by
  induction jobs generalizing l results with
  | nil => simp
  | cons job jobs ih =>
    obtain ⟨status, l₁, l₂, rfl, hjob, hrest⟩ := h.of_bind_ret
    obtain ⟨rest, l₃, l₄, rfl, hjobs, -⟩ := hrest.of_bind_ret
    rw [List.forall_mem_cons]
    constructor
    · rcases settled_or_blocked hjob with ⟨x, hx, h⟩ | ⟨x, hx, h⟩
      · exact .inl ⟨x, List.mem_append_left _ hx, h⟩
      · exact .inr ⟨x, List.mem_append_left _ hx, h⟩
    · intro other hother
      rcases ih hjobs other hother with ⟨x, hx, h⟩ | ⟨x, hx, h⟩
      · exact .inl ⟨x, List.mem_append_right _ (List.mem_append_left _ hx), h⟩
      · exact .inr ⟨x, List.mem_append_right _ (List.mem_append_left _ hx), h⟩

/-! ## Runs -/

variable {j : ScheduledJob}

variable {j' : ScheduledJob}

omit [Sha256] [IsoTime] [Json] in
theorem JobStep.mono {Takes Takes' : String → Prop} (h : ∀ k, Takes k → Takes' k) (hj : JobStep Takes j j') :
    JobStep Takes' j j' :=
  { hj with enqueued := fun henqueued => (hj.enqueued henqueued).imp_right (h _) }

variable {hash_payload : List (String × Agency.ArtifactStatus) → String} {fuel : ℕ} {w : OpsState}
  {steps : List (OpsStage × Action OpsCalls OpsState OpsOutcome)} {p p' : Pool OpsCalls OpsState}

/-- Jobs stay, and move on. -/
def JobsStay (s s' : OpsState) : Prop := ∀ j ∈ s.jobs, ∃ j' ∈ s'.jobs, JobStep (fun _ => True) j j'

variable {i : ℕ}

theorem proper_of_worker (run : Run (operations hash_payload fuel) w steps p)
    {next : OpsCalls.Answer c → Ops Unit} (hi : p.workers[i]? = some (.call c next)) : Proper c := by
  have honly := (run.only (R := Proper) fun q hq => by
    obtain ⟨op, rfl⟩ := hq
    exact only_proper hash_payload fuel op).2
  exact (honly _ (List.mem_of_getElem? hi)).1

theorem jobsStay_step (before : List (OpsStage × Action OpsCalls OpsState OpsOutcome)) (s : Pool OpsCalls OpsState)
    (a : Action OpsCalls OpsState OpsOutcome) (s' : Pool OpsCalls OpsState)
    (run : Run (operations hash_payload fuel) w before s) (step : Step (operations hash_payload fuel) s a s') :
    JobsStay s.stage.world s'.stage.world := by
  cases step with
  | start hq => exact fun j hj => ⟨j, hj, .refl j⟩
  | @call i c next o hi =>
    intro j hj
    obtain ⟨j', hj', hstep⟩ := (jobs_after (o := o) (proper_of_worker run hi)).after j hj
    exact ⟨j', hj', hstep.mono fun _ _ => trivial⟩
  | env henv =>
    have hjobs := Elsewhere.jobs henv
    intro j hj
    refine ⟨j, ?_, .refl j⟩
    rw [hjobs]
    exact hj

theorem hasMessage_step (id : String) (before : List (OpsStage × Action OpsCalls OpsState OpsOutcome))
    (s : Pool OpsCalls OpsState) (a : Action OpsCalls OpsState OpsOutcome) (s' : Pool OpsCalls OpsState)
    (_ : Run (operations hash_payload fuel) w before s) (step : Step (operations hash_payload fuel) s a s')
    (h : HasMessage s.stage.world id) : HasMessage s'.stage.world id := by
  cases step with
  | start hq => exact h
  | call hi => exact hasMessage_after h
  | env henv =>
    obtain ⟨m, hm, hid⟩ := h
    obtain ⟨m', hm', hsame⟩ := Elsewhere.outbox henv m hm
    exact ⟨m', hm', hsame.trans hid⟩

omit [Json] in
theorem mem_jobs_of_lost (h : opsExec.answer (.claim_job job_id mark moved) o s ≠ .ok true)
    (hj : j ∈ (opsExec.after (.claim_job job_id mark moved) o s).jobs) : j ∈ s.jobs := by
  cases hexec : opsExec (.claim_job job_id mark moved) o s with
  | error e =>
    rw [Exec.after_of_error hexec] at hj
    exact hj
  | ok x =>
    rw [Exec.after_of_ok hexec] at hj
    obtain rfl : s.claim_job job_id mark moved = x := Except.ok.inj (run_of_exec hexec)
    have hlost : (s._set_job job_id mark).1 ≠ true := by
      intro hclaimed
      apply h
      rw [Exec.answer, hexec]
      show Except.ok (s.claim_job job_id mark moved).1 = _
      rw [fst_claim_job, hclaimed]
    rw [jobs_claim_job] at hj
    obtain ⟨j₀, hj₀, rfl⟩ := List.mem_map.mp hj
    -- no job was there to be marked
    have hunmarked : ¬ (j₀.job_id = job_id ∧ j₀.status ∈ mark.from_statuses) := by
      intro hmarked
      exact hlost (List.any_eq_true.mpr ⟨j₀, hj₀, decide_eq_true hmarked⟩)
    rw [OpsState.setJob, if_neg hunmarked]
    exact hj₀

omit [Json] in
theorem enqueued_before (hc : Proper c) (hj' : j' ∈ (opsExec.after c o s).jobs)
    (henqueued : j'.status = .ENQUEUED) :
    (∃ j ∈ s.jobs, j.job_id = j'.job_id ∧ j.status = .ENQUEUED) ∨ Wins j'.job_id ⟨s, c, o⟩ := by
  rcases (jobs_after hc).before j' hj' with ⟨j, hj, hstep⟩ | ⟨n, job_id, -, rfl⟩
  · rcases hstep.enqueued henqueued with hbefore | hclaims
    · exact .inl ⟨j, hj, hstep.job_id.symm, hbefore⟩
    · cases c with
      | claim_job job_id mark moved =>
        obtain ⟨rfl, rfl⟩ := hclaims
        rw [hstep.job_id]
        by_cases hanswer : opsExec.answer (.claim_job j.job_id (enqueueMark (messageId j.job_id)) moved) o s = .ok true
        · exact .inr ⟨s, moved, o, rfl, hanswer⟩
        · exact .inl ⟨j', mem_jobs_of_lost hanswer hj', hstep.job_id, henqueued⟩
      | _ => exact hclaims.elim
  · cases henqueued

/-- **What is enqueued** was so from the start, or a worker has claimed it. -/
theorem enqueued_of_run (run : Run (operations hash_payload fuel) w steps p) :
    ∀ j ∈ p.stage.world.jobs, j.status = .ENQUEUED →
      (∃ j₀ ∈ w.jobs, j₀.job_id = j.job_id ∧ j₀.status = .ENQUEUED) ∨ ∃ i, ∃ x ∈ ownCalls i steps, Wins j.job_id x := by
  induction run with
  | nil => exact fun j hj henqueued => .inl ⟨j, hj, rfl, henqueued⟩
  | @snoc steps s s' a run step ih =>
    -- a claim made before the step was made
    have hold : ∀ j ∈ s.stage.world.jobs, j.status = .ENQUEUED →
        (∃ j₀ ∈ w.jobs, j₀.job_id = j.job_id ∧ j₀.status = .ENQUEUED) ∨
          ∃ i, ∃ x ∈ ownCalls i (steps ++ [(s.stage, a)]), Wins j.job_id x := by
      intro j hj henqueued
      rcases ih j hj henqueued with hinit | ⟨i, x, hx, hwins⟩
      · exact .inl hinit
      · refine .inr ⟨i, x, ?_, hwins⟩
        rw [ownCalls_snoc]
        exact List.mem_append_left _ hx
    cases step with
    | start hq => exact hold
    | env henv =>
      have hjobs := Elsewhere.jobs henv
      intro j hj
      rw [hjobs] at hj
      exact hold j hj
    | @call i c next o hi =>
      intro j hj henqueued
      rcases enqueued_before (proper_of_worker run hi) hj henqueued with ⟨j₀, hj₀, hid, hbefore⟩ | hwins
      · rw [← hid]
        exact hold j₀ hj₀ hbefore
      · refine .inr ⟨i, _, ?_, hwins⟩
        rw [ownCalls_snoc]
        simp [Action.ownCall]

omit [Sha256] [IsoTime] [Json] in
theorem exists_related {β : Type} {R : α → β → Prop} {l : List α} {l' : List β} (h : List.Forall₂ R l l')
    {b : β} (hb : b ∈ l') : ∃ a ∈ l, R a b := by
  induction h with
  | nil => exact nomatch hb
  | cons hab _ ih =>
    rcases List.mem_cons.mp hb with rfl | hb
    · exact ⟨_, List.mem_cons_self, hab⟩
    · obtain ⟨a, ha, hrel⟩ := ih hb
      exact ⟨a, List.mem_cons_of_mem _ ha, hrel⟩

theorem hasMessage_of_enqueues (run : Run (operations hash_payload fuel) w steps p) {before after : List OwnOps}
    (hown : ownCalls i steps = before ++ after) (h : Enqueues job_id after) :
    HasMessage p.stage.world (messageId job_id) := by
  obtain ⟨tenant_id, project_id, topic, payload, payload_ref, idempotency_key, h⟩ := h
  refine run.of_completes (H := fun s => HasMessage s (messageId job_id)) (hasMessage_step _) (fun l message hamid => ?_) hown h
  obtain ⟨l', hshows, hinner⟩ := Amid.of_inside_ret trustCalls_carries hamid
  obtain ⟨y, hy, hmessage⟩ := mem_outbox_of_enqueue hinner
  obtain ⟨x, hx, hxy⟩ := exists_related hshows hy
  refine ⟨x, hx, ?_⟩
  show HasMessage (x.after opsExec) _
  rw [trustCalls_carries.shown_after hxy]
  exact hmessage

theorem handsOver_of_ret (run : Run (operations hash_payload fuel) w steps p)
    (hi : p.workers[i]? = some (.ret ())) : HandsOver (ownCalls i steps) := by
  obtain ⟨hlength, -, hamid⟩ := run.amid
  have hlt : i < (started steps).length := hlength ▸ (List.getElem?_eq_some_iff.mp hi).1
  have hstarted : (started steps)[i]? = some (started steps)[i] := List.getElem?_eq_getElem hlt
  obtain ⟨op, hop⟩ := run.starts _ (List.mem_of_getElem? hstarted)
  have hown := hamid i _ _ hstarted hi
  rw [hop] at hown
  by_cases htick : ∃ t, op = .tick t
  · obtain ⟨t, rfl⟩ := htick
    obtain ⟨results, h⟩ := hown.of_void_ret
    obtain ⟨due, l₁, l₂, heq, hdue, hjobs⟩ := h.of_bind_ret
    rw [heq]
    refine (handsOver_of_noClaim ?_ hdue).append (handsOver_runJobs hjobs)
    exact only_perform fun _ _ => nofun
  · refine handsOver_of_proper (only_program hash_payload fuel op (fun _ _ => trivial) fun t ht => ?_) hown
    exact htick ⟨t, ht⟩

variable (hash_payload fuel)

/-- The job has ended. -/
def ScheduledJob.Ended (j : ScheduledJob) : Prop :=
  j.status = .DELIVERED ∨ j.status = .FAILED ∨ j.status = .CANCELLED

/-- **No scheduled job is lost**: what is enqueued is in the outbox, and what a tick that came to its end found due and
    in reach is in the outbox or has ended, unless it did not pass its gate. -/
structure NoneLost (steps : List (OpsStage × Action OpsCalls OpsState OpsOutcome)) (p : Pool OpsCalls OpsState) :
    Prop where
  enqueued : ∀ j ∈ p.stage.world.jobs, j.status = .ENQUEUED → HasMessage p.stage.world (messageId j.job_id)
  due : ∀ i (t : Tick), (started steps)[i]? = some ((Operation.tick t).program hash_payload fuel) →
    p.workers[i]? = some (.ret ()) → ∀ x ∈ (ownCalls i steps).head?, ∀ j ∈ x.world.jobs,
      IsDue (IsoTime.isoformat t.now) t.project_id j →
      InReach x.world (IsoTime.isoformat t.now) t.project_id t.limit j →
        (∃ y ∈ ownCalls i steps, Blocks j.job_id y) ∨ ∃ j' ∈ p.stage.world.jobs, j'.job_id = j.job_id ∧
          (j'.Ended ∨ HasMessage p.stage.world (messageId j.job_id))

variable {hash_payload fuel}

omit [Sha256] [IsoTime] [Json] in
theorem ended_or_enqueued (h : ¬ j.Live) : j.Ended ∨ j.status = .ENQUEUED := by
  unfold ScheduledJob.Live at h
  unfold ScheduledJob.Ended
  cases hstatus : j.status <;> simp_all

theorem not_live_of_settles (run : Run (operations hash_payload fuel) w steps p) {x y : OwnOps}
    (hown : ownCalls i steps = x :: l) (hy : y ∈ l) (hj : j ∈ x.world.jobs) (hsettles : Settles j.job_id y) :
    ∃ j' ∈ p.stage.world.jobs, j'.job_id = j.job_id ∧ ¬ j'.Live := by
  obtain ⟨hpairs, hlast⟩ := run.ownCalls_pairwise (R := JobsStay) (fun _ j hj => ⟨j, hj, .refl j⟩)
    (fun _ _ _ h h' j hj => by
      obtain ⟨j', hj', hstep⟩ := h j hj
      obtain ⟨j'', hj'', hstep'⟩ := h' j' hj'
      exact ⟨j'', hj'', hstep.trans hstep'⟩) jobsStay_step i
  rw [hown] at hpairs hlast
  obtain ⟨hx, -⟩ := hlast x List.mem_cons_self
  obtain ⟨hbefore, hafter⟩ := hlast y (List.mem_cons_of_mem _ hy)
  obtain ⟨j₁, hj₁, hstep₁⟩ := hx j hj
  obtain ⟨j₂, hj₂, hstep₂⟩ := List.rel_of_pairwise_cons hpairs hy j₁ hj₁
  obtain ⟨j₃, hj₃, hstep₃⟩ := hbefore j₂ hj₂
  obtain ⟨j₄, hj₄, hstep₄⟩ := hafter j₃ hj₃
  have hid : j₃.job_id = j.job_id := hstep₃.job_id.trans (hstep₂.job_id.trans hstep₁.job_id)
  exact ⟨j₄, hj₄, hstep₄.job_id.trans hid, fun hlive => hsettles j₃ hj₃ hid (hstep₄.live hlive)⟩

theorem tick_of_ret {t : Tick} (h : Amid opsExec ((Operation.tick t).program hash_payload fuel) l (.ret ())) :
    ∃ x l', l = x :: l' ∧ ∀ job ∈ x.world.due_jobs (IsoTime.isoformat t.now) t.project_id t.limit,
        (∃ y ∈ l', Settles job.job_id y) ∨ ∃ y ∈ l', Blocks job.job_id y := by
  obtain ⟨results, h⟩ := h.of_void_ret
  obtain ⟨due, l₁, l₂, rfl, hdue, hjobs⟩ := h.of_bind_ret
  obtain ⟨w, o, rfl, hanswer⟩ := hdue.of_perform_ret
  refine ⟨_, l₂, rfl, ?_⟩
  have hrun := run_of_exec (Exec.of_answer hanswer)
  obtain rfl : w.due_jobs (IsoTime.isoformat t.now) t.project_id t.limit = due :=
    congrArg Prod.fst (Except.ok.inj hrun)
  exact settled_or_blocked_each hjobs

/-- **No scheduled job is lost** in a run of the operations in which no worker is stopped between its claim of a job and
    the end of its `enqueue_outbox`. -/
theorem none_lost (hw : ∀ j ∈ w.jobs, j.status = .ENQUEUED → HasMessage w (messageId j.job_id))
    (run : Run (operations hash_payload fuel) w steps p) (hcrash : ∀ i, HandsOver (ownCalls i steps)) :
    NoneLost hash_payload fuel steps p := by
  have henqueued : ∀ j ∈ p.stage.world.jobs, j.status = .ENQUEUED →
      HasMessage p.stage.world (messageId j.job_id) := by
    intro j hj henqueued
    rcases enqueued_of_run run j hj henqueued with ⟨j₀, hj₀, hid, hinit⟩ | ⟨i, x, hx, hwins⟩
    · refine run.of_start (H := fun s => HasMessage s (messageId j.job_id)) (hasMessage_step _) ?_
      rw [← hid]
      exact hw j₀ hj₀ hinit
    · obtain ⟨before, after, hown⟩ := List.append_of_mem hx
      have hdone := hcrash i _ before x after hown hwins
      have hsplit : ownCalls i steps = (before ++ [x]) ++ after := by
        rw [hown, List.append_assoc]
        rfl
      exact hasMessage_of_enqueues run hsplit hdone
  refine ⟨henqueued, fun i t hstarted hret x hx j hj hdue hreach => ?_⟩
  obtain ⟨-, -, hamid⟩ := run.amid
  obtain ⟨x', l, hown, htaken⟩ := tick_of_ret (hamid i _ _ hstarted hret)
  rw [hown] at hx
  cases hx
  rcases htaken j (mem_due_jobs hj hdue hreach) with ⟨y, hy, hsettles⟩ | ⟨y, hy, hblocks⟩
  · obtain ⟨j', hj', hid, hlive⟩ := not_live_of_settles run hown hy hj hsettles
    refine .inr ⟨j', hj', hid, ?_⟩
    rcases ended_or_enqueued hlive with hended | hwaits
    · exact .inl hended
    · exact .inr (hid ▸ henqueued j' hj' hwaits)
  · refine .inl ⟨y, ?_, hblocks⟩
    rw [hown]
    exact List.mem_cons_of_mem _ hy

theorem handsOver_of_returned (run : Run (operations hash_payload fuel) w steps p)
    (h : p.workers.all Program.returned = true) (i : ℕ) : HandsOver (ownCalls i steps) := by
  rcases Nat.lt_or_ge i p.workers.length with hi | hi
  · have hret := Program.eq_ret_of_returned (List.all_eq_true.mp h _ (List.getElem_mem hi))
    refine handsOver_of_ret run ?_
    rw [List.getElem?_eq_getElem hi, hret]
  · rw [run.amid.2.1 i hi]
    exact followedBy_of_never (by simp)

/-! ## A tick that is stopped -/

theorem run_idle (run : Run (operations hash_payload fuel) w steps p) (t : Tick) (ho : o.fault = false)
    (hidle : p.stage.world.due_jobs (IsoTime.isoformat t.now) t.project_id t.limit = []) :
    ∃ steps' p', Run (operations hash_payload fuel) w steps' p' ∧ p'.workers = p.workers ++ [.ret ()] ∧
      started steps' = started steps ++ [(Operation.tick t).program hash_payload fuel] ∧
      p'.stage.world = p.stage.world := by
  obtain ⟨next, hprogram, hnext⟩ : ∃ next, (Operation.tick t).program hash_payload fuel =
      Program.call (I := OpsCalls) (.due_jobs (IsoTime.isoformat t.now) t.project_id t.limit) next ∧
        next (.ok []) = .ret () := ⟨_, rfl, rfl⟩
  have hexec : opsExec (.due_jobs (IsoTime.isoformat t.now) t.project_id t.limit) o p.stage.world =
      .ok ([], p.stage.world) := by
    simp [opsExec, OpsCall.run, ho, hidle]
  have hanswer : opsExec.answer (.due_jobs (IsoTime.isoformat t.now) t.project_id t.limit) o p.stage.world = .ok [] := by
    rw [Exec.answer, hexec]
    rfl
  have hstart := run.snoc (Step.start (S := operations hash_payload fuel) (s := p) ⟨.tick t, hprogram.symm⟩)
  have hworker : (p.workers ++ [Program.call (I := OpsCalls) _ next])[p.workers.length]? = some (.call _ next) := by simp
  refine ⟨_, _, hstart.snoc (Step.call (o := o) hworker), ?_, ?_, ?_⟩
  · show (p.workers ++ [_]).set p.workers.length (next (opsExec.answer _ o p.stage.world)) = _
    rw [hanswer, hnext]
    simp
  · rw [started_snoc, started_snoc, hprogram]
    simp [Action.program]
  · exact Exec.after_of_ok hexec

end

attribute [local instance] Canonical.mixHash morningTime plainJson

def nineTick : Tick where
  now := ⟨(1790812800 + 3600 * 9) * 1000000, some 0⟩
  worker_id := "w"

/-- An item is scheduled, and a tick that takes its job up makes so many calls. -/
def tickAfter (calls : ℕ) : List (Operation ⊕ ℕ × OpsOutcome) :=
  .inl (.schedule atNine) :: turns 0 3 ++ .inl (.tick nineTick) :: turns 1 calls

/-- The item's job is claimed, and the tick is stopped. -/
def claimedOnly : List (OpsStage × Action OpsCalls OpsState OpsOutcome) × Pool OpsCalls OpsState :=
  plays oneItem (tickAfter 6)

theorem run_idles (n : ℕ) : ∃ steps p, Run (operations (fun _ => "h") 9) oneItem steps p ∧
    p.workers = claimedOnly.2.workers ++ List.replicate n (.ret ()) ∧
    started steps = started claimedOnly.1 ++ List.replicate n ((Operation.tick nineTick).program (fun _ => "h") 9) ∧
    p.stage.world = claimedOnly.2.stage.world := by
  induction n with
  | zero => exact ⟨_, _, run_plays oneItem (tickAfter 6), by simp [claimedOnly], by simp [claimedOnly], rfl⟩
  | succ n ih =>
    obtain ⟨steps, p, run, hworkers, hstarted, hworld⟩ := ih
    have hidle : p.stage.world.due_jobs (IsoTime.isoformat nineTick.now) nineTick.project_id nineTick.limit = [] := by
      rw [hworld, ← List.isEmpty_iff]
      decide +kernel
    obtain ⟨steps', p', run', hworkers', hstarted', hworld'⟩ := run_idle (o := smoothly) run nineTick rfl hidle
    refine ⟨steps', p', run', ?_, ?_, hworld'.trans hworld⟩
    · rw [hworkers', hworkers, List.append_assoc, List.replicate_succ']
    · rw [hstarted', hstarted, List.append_assoc, List.replicate_succ']

/-- **A tick that is stopped after its claim loses the job**, whatever number of ticks come after it and to their
    end. -/
theorem job_lost : ∃ w schedule stopped, (∀ j ∈ w.jobs, j.status = .ENQUEUED → HasMessage w (messageId j.job_id)) ∧
    ∀ n, ∃ steps p, Run (operations (fun _ => "h") 9) w steps p ∧
      started steps = (Operation.schedule schedule).program (fun _ => "h") 9 ::
        List.replicate (n + 1) ((Operation.tick nineTick).program (fun _ => "h") 9) ∧
      p.workers = .ret () :: stopped :: List.replicate n (.ret ()) ∧ ¬ NoneLost (fun _ => "h") 9 steps p := by
  have hlost : claimedOnly.2.stage.world.jobs.table.rows.any (fun j => j.status = .ENQUEUED) = true := by
    decide +kernel
  have hmessages : claimedOnly.2.stage.world.trust.outbox.rows = [] := by
    rw [← List.isEmpty_iff]
    decide +kernel
  obtain ⟨stopped, hworkers⟩ : ∃ stopped, claimedOnly.2.workers = [.ret (), stopped] := ⟨_, rfl⟩
  refine ⟨oneItem, atNine, stopped, fun j hj => (nomatch hj), fun n => ?_⟩
  obtain ⟨steps, p, run, hpool, hstarted, hworld⟩ := run_idles n
  refine ⟨steps, p, run, ?_, ?_, fun hnone => ?_⟩
  · rw [hstarted, claimedOnly, plays, started_play, List.replicate_succ]
    rfl
  · rw [hpool, hworkers]
    rfl
  · obtain ⟨j, hj, henqueued⟩ := List.any_eq_true.mp hlost
    have hmessage := hnone.enqueued j (by rw [hworld]; exact hj) (of_decide_eq_true henqueued)
    rw [hworld] at hmessage
    obtain ⟨m, hm, -⟩ := hmessage
    rw [← Table.mem_rows, hmessages] at hm
    cases hm

/-- A tick that takes the item's job up and comes to its end. -/
theorem none_lost_once : NoneLost (fun _ => "h") 9 (plays oneItem (tickAfter 40)).1 (plays oneItem (tickAfter 40)).2 := by
  have run := run_plays oneItem (tickAfter 40)
  have hw : ∀ j ∈ oneItem.jobs, j.status = .ENQUEUED → HasMessage oneItem (messageId j.job_id) :=
    fun j hj => (nomatch hj)
  refine none_lost hw run (handsOver_of_returned run ?_)
  decide +kernel

end Content
