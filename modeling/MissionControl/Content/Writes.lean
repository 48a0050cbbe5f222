import MissionControl.Content.Scheduler

/-! # What a call does to the rows

Said once for all calls: how the row of an item changes (`item_after`, `item_before`), and how a job does
(`job_after`, `job_before`). An item is edited by the calls made for it; a job that is not live never becomes live
again, as the operations make their calls (`Proper`). -/

namespace Content

open Canonical (Sha256)
open Interleaving
open Projects (given)
open Relational (Table)

/-! ## Items -/

/-- A row that has the identifier and the version of the item is moved. -/
def moveRow (item : ContentItem) (target : ContentState) (r : ItemRow) : ItemRow :=
  if r.content_item_id = item.content_item_id ∧ r.item.version = item.version then r.moved target else r

variable {item : ContentItem} {target : ContentState} {r : ItemRow}

theorem moveRow_of_eq (hid : r.content_item_id = item.content_item_id)
    (hversion : r.item.version = item.version) : moveRow item target r = r.moved target :=
  if_pos ⟨hid, hversion⟩

theorem moveRow_of_ne (hid : r.content_item_id ≠ item.content_item_id) : moveRow item target r = r :=
  if_neg fun h => hid h.1

/-- What a call that went through does to the row of an item. -/
inductive Edits (s : OpsState) : OpsCall → ItemRow → ItemRow → Prop
  | keeps {c : OpsCall} {r : ItemRow} : Edits s c r r
  | transitions {item : ContentItem} {target : ContentState} {approved_version : Option ℕ}
      {approval_ref : Option String} {r : ItemRow} (hstate : r.item.state = item.state)
      (hversion : r.item.version = item.version) :
      Edits s (.transition_item r.content_item_id item target approved_version approval_ref) r
        (r.transitioned target approved_version approval_ref)
  | revises {item : ContentItem} {body : ContentBody} {new_state : ContentState} {r : ItemRow}
      (hversion : r.item.version = item.version) :
      Edits s (.revise_item r.content_item_id item body new_state) r (r.revised (item.version + 1) body new_state)
  | schedules {item : ContentItem} {slot_id : Option String} {job : NewJob} {r : ItemRow}
      (hstate : r.item.state = item.state) (hversion : r.item.version = item.version) :
      Edits s (.schedule_item r.content_item_id item slot_id job) r (r.moved .SCHEDULED)
  | claims {job_id : String} {mark : JobMark} {item : ContentItem} {target : ContentState} {r : ItemRow}
      (hclaimed : (s._set_job job_id mark).1 = true) (hid : item.content_item_id = r.content_item_id)
      (hversion : r.item.version = item.version) :
      Edits s (.claim_job job_id mark (some (item, target))) r (r.moved target)
  | moves {item : ContentItem} {target : ContentState} {r : ItemRow} (hid : item.content_item_id = r.content_item_id)
      (hversion : r.item.version = item.version) : Edits s (.move_item item target) r (r.moved target)
  | publishes {current : ContentItem} {r : ItemRow} (hid : current.content_item_id = r.content_item_id)
      (hversion : r.item.version = current.version) (hcurrent : current.state = .PUBLISHING) :
      Edits s (.finish_item current) r (r.moved .PUBLISHED)
  | verifies {current : ContentItem} {r : ItemRow} (hid : current.content_item_id = r.content_item_id)
      (hcurrent : current.state = .PUBLISHING ∧ r.item.state = .PUBLISHED ∨
        current.state = .PUBLISHED ∧ r.item.version = current.version) :
      Edits s (.finish_item current) r (r.moved .VERIFIED)

namespace OpsState

variable {s : OpsState} {k : String}

variable {item_id : String}

theorem find?_updateItem {f : ItemRow → ItemRow} {hf : ∀ r, (f r).content_item_id = r.content_item_id} :
    (s.updateItem item_id f hf).items.find? k =
      (s.items.find? k).map fun r => if r.content_item_id = item_id then f r else r := by
  unfold updateItem Table.update
  rw [Table.find?_modify]

theorem find?_move_item {item : ContentItem} {target : ContentState} : (s._move_item item target).items.find? k =
    (s.items.find? k).map (moveRow item target) := by
  unfold _move_item
  rw [find?_updateItem]
  congr 1
  funext r
  unfold moveRow
  by_cases hid : r.content_item_id = item.content_item_id
  · by_cases hversion : r.item.version = item.version
    · rw [if_pos hid, if_pos hversion, if_pos ⟨hid, hversion⟩]
    · rw [if_pos hid, if_neg hversion, if_neg fun h => hversion h.2]
  · rw [if_neg hid, if_neg fun h => hid h.1]

variable {n : NewJob} {x : ScheduledJob × OpsState}

/-- **What adding a job does**: nothing where there is a job under its key. -/
theorem insert_job_spec {job_id : String} (h : s._insert_job job_id n = .ok x) :
    s.jobs.byKey n.idempotency_key = some x.1 ∧ x.2 = s ∨
      s.jobs.byKey n.idempotency_key = none ∧ x.1 = n.row job_id ∧ x.2.items = s.items ∧ x.2.slots = s.slots ∧
        ∀ j, j ∈ x.2.jobs ↔ j ∈ s.jobs ∨ j = x.1 := by
  unfold _insert_job at h
  split at h
  · rename_i hkey
    cases h
    exact .inl ⟨hkey, rfl⟩
  · rename_i hkey
    split at h
    · rename_i hid
      cases h
      have hmem : ∀ j, j ∈ s.jobs.insert (n.row job_id) hid hkey ↔ j ∈ s.jobs ∨ j = n.row job_id :=
        fun _ => JobTable.mem_insert
      exact .inr ⟨hkey, rfl, rfl, rfl, hmem⟩
    · cases h

theorem items_insert_job {job_id : String} (h : s._insert_job job_id n = .ok x) : x.2.items = s.items := by
  rcases insert_job_spec h with ⟨-, hsame⟩ | ⟨-, -, hitems, -⟩
  · rw [hsame]
  · exact hitems

variable {slot_id : Option String}

theorem items_fillSlot : (s.fillSlot item_id slot_id).items = s.items := by
  cases slot_id <;> rfl

theorem jobs_fillSlot : (s.fillSlot item_id slot_id).jobs = s.jobs := by
  cases slot_id <;> rfl

theorem jobs_finish_item (s : OpsState) (current : ContentItem) : (s.finish_item current).jobs = s.jobs := by
  unfold finish_item
  split
  · dsimp only
    split
    · split <;> rfl
    · rfl
  · split <;> rfl

end OpsState

/-- From one state to the next the rows of the items are edited, and none is added. -/
def Edited (c : OpsCall) (s s' : OpsState) : Prop :=
  ∃ F : ItemRow → ItemRow, (∀ k, s'.items.find? k = (s.items.find? k).map F) ∧ ∀ r ∈ s.items, Edits s c r (F r)

variable {r₀ : ItemRow} {item_id : String}

theorem eq_row {s : OpsState} (hr : r ∈ s.items) (hr₀ : r₀ ∈ s.items.find? item_id)
    (hid : r.content_item_id = item_id) : r = r₀ :=
  Table.eq_of_key hr (Table.mem_of_find? hr₀) (hid.trans (Table.key_of_find? hr₀).symm)

theorem edited_of_items {c : OpsCall} {s s' : OpsState} (h : s'.items = s.items) : Edited c s s' := by
  refine ⟨id, fun k => ?_, fun r _ => .keeps⟩
  rw [h, Option.map_id, id]

variable {s₁ : OpsState}

variable {s₂ : OpsState}

theorem Edited.of_items {c : OpsCall} {s : OpsState} (h : Edited c s s₁) (hitems : s₂.items = s₁.items) :
    Edited c s s₂ := by
  obtain ⟨F, hF, hedits⟩ := h
  exact ⟨F, fun k => by rw [hitems, hF], hedits⟩

theorem edited_update {c : OpsCall} {s : OpsState} (f : ItemRow → ItemRow)
    (hf : ∀ r, (f r).content_item_id = r.content_item_id) (hr₀ : r₀ ∈ s.items.find? item_id)
    (h : Edits s c r₀ (f r₀)) : Edited c s (s.updateItem item_id f hf) := by
  refine ⟨_, fun k => OpsState.find?_updateItem, fun r hr => ?_⟩
  split
  · rename_i hid
    rw [eq_row hr hr₀ hid]
    exact h
  · exact .keeps

theorem edited_move {c : OpsCall} {s : OpsState}
    (h : ∀ r : ItemRow, r.content_item_id = item.content_item_id → r.item.version = item.version →
      Edits s c r (r.moved target)) : Edited c s (s._move_item item target) := by
  refine ⟨_, fun k => OpsState.find?_move_item, fun r _ => ?_⟩
  unfold moveRow
  split
  · rename_i hmoved
    exact h r hmoved.1 hmoved.2
  · exact .keeps

theorem edited_finish_item (s : OpsState) (current : ContentItem) :
    Edited (.finish_item current) s (s.finish_item current) := by
  have hget : s.get_content_item current.content_item_id =
      (s.items.find? current.content_item_id).map ItemRow.item := rfl
  unfold OpsState.finish_item
  by_cases hpublishing : current.state = .PUBLISHING
  · have hfirst : Edited (.finish_item current) s (s._move_item current .PUBLISHED) :=
      edited_move fun r hid hversion => .publishes hid.symm hversion hpublishing
    rw [if_pos hpublishing]
    dsimp only
    cases hfind : s.items.find? current.content_item_id with
    | none =>
      rw [hget, hfind]
      exact hfirst
    | some r₀ =>
      rw [hget, hfind, Option.map_some]
      dsimp only
      split
      · -- the row is read as it was before the move: published already
        rename_i hpublished
        have hid : r₀.content_item_id = current.content_item_id := Table.key_of_find? hfind
        refine ⟨_, fun k => by rw [OpsState.find?_move_item, OpsState.find?_move_item, Option.map_map], fun r hr => ?_⟩
        dsimp only [Function.comp]
        by_cases hr₀ : r.content_item_id = current.content_item_id
        · have hsame : r = r₀ := Table.eq_of_key hr (Table.mem_of_find? hfind) (hr₀.trans hid.symm)
          subst hsame
          have hmoved : moveRow r.item .VERIFIED (moveRow current .PUBLISHED r) = r.moved .VERIFIED := by
            unfold moveRow
            split
            · exact if_pos ⟨rfl, rfl⟩
            · exact if_pos ⟨rfl, rfl⟩
          rw [hmoved]
          exact .verifies hr₀.symm (.inl ⟨hpublishing, hpublished⟩)
        · have hne : r.content_item_id ≠ r₀.item.content_item_id := fun h => hr₀ (h.trans hid)
          rw [moveRow_of_ne hr₀, moveRow_of_ne hne]
          exact .keeps
      · exact hfirst
  · rw [if_neg hpublishing]
    split
    · rename_i hpublished
      exact edited_move fun r hid hversion => .verifies hid.symm (.inr ⟨hpublished, hversion⟩)
    · exact edited_of_items rfl

/-! ## Jobs -/

/-- What a call may make of a job: its status moves on, and what it is the job of stays. A job is enqueued only where it
    is taken. -/
structure JobStep (Takes : String → Prop) (j j' : ScheduledJob) : Prop where
  job_id : j'.job_id = j.job_id
  idempotency_key : j'.idempotency_key = j.idempotency_key
  job_kind : j'.job_kind = j.job_kind
  content_item_id : j'.content_item_id = j.content_item_id
  due_at : j'.due_at = j.due_at
  payload : j'.payload = j.payload
  status : j'.status = j.status ∨ j.Live ∧ j'.status ≠ .PENDING ∨
    j.status = .ENQUEUED ∧ (j'.status = .DELIVERED ∨ j'.status = .FAILED)
  enqueued : j'.status = .ENQUEUED → j.status = .ENQUEUED ∨ Takes j.job_id

variable {Takes : String → Prop}

theorem JobStep.refl (j : ScheduledJob) : JobStep Takes j j := ⟨rfl, rfl, rfl, rfl, rfl, rfl, .inl rfl, .inl⟩

theorem JobStep.live {j j' : ScheduledJob} (h : JobStep Takes j j') (hlive : j'.Live) : j.Live := by
  rcases h.status with hsame | ⟨hbefore, -⟩ | ⟨-, hdone⟩
  · unfold ScheduledJob.Live at hlive ⊢
    rwa [hsame] at hlive
  · exact hbefore
  · unfold ScheduledJob.Live at hlive
    rcases hdone with hdone | hdone <;> simp [hdone] at hlive

/-- A mark moves a job on. -/
def JobMark.MovesOn (m : JobMark) : Prop :=
  ∀ status ∈ m.from_statuses, (status = .PENDING ∨ status = .BLOCKED) ∧ m.status ≠ .PENDING ∨
    status = .ENQUEUED ∧ (m.status = .DELIVERED ∨ m.status = .FAILED)

variable {job_id : String} {m : JobMark}

theorem jobStep_setJob (hm : m.MovesOn) (ht : m.status = .ENQUEUED → Takes job_id) (j : ScheduledJob) :
    JobStep Takes j (OpsState.setJob job_id m j) := by
  unfold OpsState.setJob
  split
  · rename_i h
    exact ⟨rfl, rfl, rfl, rfl, rfl, rfl, .inr (hm j.status h.2), fun henqueued => .inr (h.1 ▸ ht henqueued)⟩
  · exact .refl j

theorem jobStep_cancelJob (item_id reason : String) (j : ScheduledJob) :
    JobStep Takes j (OpsState.cancelJob item_id reason j) := by
  unfold OpsState.cancelJob
  split
  · rename_i h
    exact ⟨rfl, rfl, rfl, rfl, rfl, rfl, .inr (.inl ⟨h.2, by simp⟩), fun henqueued => nomatch henqueued⟩
  · exact .refl j

theorem JobStep.trans {j₁ j₂ j₃ : ScheduledJob} (h : JobStep Takes j₁ j₂) (h' : JobStep Takes j₂ j₃) :
    JobStep Takes j₁ j₃ where
  job_id := h'.job_id.trans h.job_id
  idempotency_key := h'.idempotency_key.trans h.idempotency_key
  job_kind := h'.job_kind.trans h.job_kind
  content_item_id := h'.content_item_id.trans h.content_item_id
  due_at := h'.due_at.trans h.due_at
  payload := h'.payload.trans h.payload
  status := by
    rcases h'.status with hsame | ⟨hlive, hpending⟩ | ⟨henqueued, hdone⟩
    · rw [hsame]
      exact h.status
    · exact .inr (.inl ⟨h.live hlive, hpending⟩)
    · rcases h.status with hsame | ⟨hlive, -⟩ | ⟨-, hdone'⟩
      · exact .inr (.inr ⟨hsame.symm.trans henqueued, hdone⟩)
      · exact .inr (.inl ⟨hlive, by rcases hdone with hdone | hdone <;> simp [hdone]⟩)
      · rcases hdone' with hdone' | hdone' <;> simp [hdone'] at henqueued
  enqueued henqueued := by
    rcases h'.enqueued henqueued with hbefore | htaken
    · exact h.enqueued hbefore
    · exact .inr (h.job_id ▸ htaken)

/-- From one state to the next jobs move on, and jobs are added. -/
structure JobsMove (Takes : String → Prop) (New : NewJob → Prop) (s s' : OpsState) : Prop where
  after : ∀ j ∈ s.jobs, ∃ j' ∈ s'.jobs, JobStep Takes j j'
  before : ∀ j' ∈ s'.jobs, (∃ j ∈ s.jobs, JobStep Takes j j') ∨ ∃ n job_id, New n ∧ j' = n.row job_id

/-- From one state to the next jobs are added only. -/
structure JobsAdded (New : NewJob → Prop) (s s' : OpsState) : Prop where
  after : ∀ j ∈ s.jobs, j ∈ s'.jobs
  before : ∀ j' ∈ s'.jobs, j' ∈ s.jobs ∨ ∃ n job_id, New n ∧ j' = n.row job_id

variable {New : NewJob → Prop} {s s' : OpsState}

theorem JobsAdded.move (h : JobsAdded New s s') : JobsMove Takes New s s' where
  after j hj := ⟨j, h.after j hj, .refl j⟩
  before j' hj' := (h.before j' hj').imp_left fun hj => ⟨j', hj, .refl j'⟩

theorem jobsAdded_of_jobs (h : s'.jobs = s.jobs) : JobsAdded New s s' where
  after _ hj := h ▸ hj
  before _ hj' := .inl (h ▸ hj')

theorem jobsMove_of_jobs (h : s'.jobs = s.jobs) : JobsMove Takes New s s' := (jobsAdded_of_jobs h).move

theorem JobsAdded.of_jobs (h : JobsAdded New s₁ s') (hjobs : s₁.jobs = s.jobs) : JobsAdded New s s' :=
  ⟨fun j hj => h.after j (hjobs ▸ hj), fun j' hj' => (h.before j' hj').imp_left fun hj => hjobs ▸ hj⟩

theorem JobsAdded.trans {s₃ : OpsState} (h : JobsAdded New s₁ s₂) (h' : JobsAdded New s₂ s₃) :
    JobsAdded New s₁ s₃ where
  after j hj := h'.after j (h.after j hj)
  before j' hj' := by
    rcases h'.before j' hj' with hj | hnew
    · exact h.before j' hj
    · exact .inr hnew

theorem jobsMove_modify {f : ScheduledJob → ScheduledJob} (h : ∀ j', j' ∈ s'.jobs ↔ ∃ j ∈ s.jobs, f j = j')
    (hf : ∀ j, JobStep Takes j (f j)) : JobsMove Takes New s s' where
  after j hj := ⟨f j, (h _).mpr ⟨j, hj, rfl⟩, hf j⟩
  before j' hj' := by
    obtain ⟨j, hj, rfl⟩ := (h j').mp hj'
    exact .inl ⟨j, hj, hf j⟩

theorem jobsMove_cancel_item_jobs (item_id reason : String) (h : s₁.jobs = s.jobs) :
    JobsMove Takes New s (s₁._cancel_item_jobs item_id reason) := by
  refine jobsMove_modify (fun j' => ?_) (jobStep_cancelJob item_id reason)
  rw [← h]
  exact List.mem_map

theorem JobsMove.of_jobs (h : JobsMove Takes New s s₁) (hjobs : s'.jobs = s₁.jobs) : JobsMove Takes New s s' :=
  ⟨fun j hj => hjobs ▸ h.after j hj, fun j' hj' => h.before j' (hjobs ▸ hj')⟩

theorem jobsMove_set_job (hm : m.MovesOn) (ht : m.status = .ENQUEUED → Takes job_id) :
    JobsMove Takes New s (s._set_job job_id m).2 :=
  jobsMove_modify (fun _ => List.mem_map) (jobStep_setJob hm ht)

theorem jobsAdded_insert_job {n : NewJob} {x : ScheduledJob × OpsState} (h : s._insert_job job_id n = .ok x)
    (hn : New n) : JobsAdded New s x.2 := by
  rcases OpsState.insert_job_spec h with ⟨-, hsame⟩ | ⟨-, hrow, -, -, hmem⟩
  · exact jobsAdded_of_jobs (congrArg OpsState.jobs hsame)
  · refine ⟨fun j hj => (hmem j).mpr (.inl hj), fun j' hj' => ?_⟩
    exact ((hmem j').mp hj').imp_right fun hnew => ⟨n, job_id, hn, hnew.trans hrow⟩

/-! ## Calls -/

section

variable [IsoTime]

variable {steps : List JourneyStep} {fresh : ℕ → Hex} {journey : Journey} {x : List ScheduledJob × OpsState}

theorem insertSteps_cons {index : ℕ} {step : JourneyStep} {s : OpsState}
    (h : OpsState.insertSteps fresh journey index (step :: steps) s = .ok x) :
    ∃ item job s₁ jobs, s._insert_job (OpsState.jobId (fresh index)) (OpsState.journeyJob journey index step item) =
        .ok (job, s₁) ∧ OpsState.insertSteps fresh journey (index + 1) steps s₁ = .ok (jobs, x.2) ∧
      x.1 = job :: jobs := by
  unfold OpsState.insertSteps at h
  split at h
  · cases h
  · rename_i item _
    cases hjob : s._insert_job (OpsState.jobId (fresh index)) (OpsState.journeyJob journey index step item) with
    | error e =>
      rw [hjob] at h
      cases h
    | ok y =>
      obtain ⟨job, s₁⟩ := y
      rw [hjob] at h
      dsimp only [Bind.bind, Except.bind] at h
      cases hrest : OpsState.insertSteps fresh journey (index + 1) steps s₁ with
      | error e =>
        rw [hrest] at h
        cases h
      | ok z =>
        rw [hrest] at h
        cases h
        exact ⟨item, job, s₁, z.1, hjob, hrest, rfl⟩

theorem items_insertSteps {index : ℕ} {s : OpsState}
    (h : OpsState.insertSteps fresh journey index steps s = .ok x) : x.2.items = s.items := by
  induction steps generalizing index s x with
  | nil =>
    cases h
    rfl
  | cons step steps ih =>
    obtain ⟨item, job, s₁, jobs, hjob, hrest, -⟩ := insertSteps_cons h
    exact (ih hrest).trans (OpsState.items_insert_job hjob)

end

variable [Sha256] [IsoTime]

theorem run_of_exec {c : OpsCall} {o : OpsOutcome} {s : OpsState} {x : c.Resp × OpsState}
    (h : opsExec c o s = .ok x) : c.run o s = .ok x := by
  cases c with
  | artifact | trust | publish => exact h
  | _ =>
    simp only [opsExec] at h
    split at h
    · cases h
    · exact h

/-- **What a call does to the items**: one is added, or each row is edited as the call edits it. -/
theorem items_after (c : OpsCall) (o : OpsOutcome) (s : OpsState) :
    (∃ row, c = .insert_item row ∧ s.items.find? row.content_item_id = none ∧
      ∀ k, (opsExec.after c o s).items.find? k =
        if row.content_item_id = k then some row else s.items.find? k) ∨ Edited c s (opsExec.after c o s) := by
  cases hexec : opsExec c o s with
  | error e =>
    rw [Exec.after_of_error hexec]
    exact .inr (edited_of_items rfl)
  | ok x =>
    obtain ⟨a, s'⟩ := x
    rw [Exec.after_of_ok hexec]
    have hrun := run_of_exec hexec
    cases c with
    | insert_item row =>
      simp only [OpsCall.run, OpsState.insert_item] at hrun
      split at hrun
      · rename_i hnone
        cases hrun
        exact .inl ⟨row, rfl, hnone, fun k => Table.find?_insert (h := hnone)⟩
      · cases hrun
    | transition_item item_id item target approved_version approval_ref =>
      refine .inr ?_
      simp only [OpsCall.run, OpsState.transition_item] at hrun
      split at hrun
      · rename_i hunmoved
        obtain ⟨r₀, hr₀, hstate, hversion⟩ := hunmoved
        obtain rfl : r₀.content_item_id = item_id := Table.key_of_find? hr₀
        have hedits : Edits s (.transition_item r₀.content_item_id item target approved_version approval_ref) r₀
            (r₀.transitioned target approved_version approval_ref) := .transitions hstate hversion
        split at hrun
        · cases hrun
          exact (edited_update (·.transitioned target approved_version approval_ref) (fun _ => rfl) hr₀ hedits).of_items rfl
        · cases hrun
          exact edited_update _ _ hr₀ hedits
      · cases hrun
    | revise_item item_id item body new_state =>
      refine .inr ?_
      simp only [OpsCall.run, OpsState.revise_item] at hrun
      split at hrun
      · rename_i hversion
        obtain ⟨r₀, hr₀, hversion⟩ := hversion
        obtain rfl : r₀.content_item_id = item_id := Table.key_of_find? hr₀
        cases hrun
        exact (edited_update (·.revised (item.version + 1) body new_state) (fun _ => rfl) hr₀
          (.revises hversion)).of_items rfl
      · cases hrun
    | schedule_item item_id item slot_id job =>
      refine .inr ?_
      simp only [OpsCall.run, OpsState.schedule_item] at hrun
      split at hrun
      · rename_i hunmoved
        obtain ⟨r₀, hr₀, hstate, hversion⟩ := hunmoved
        obtain rfl : r₀.content_item_id = item_id := Table.key_of_find? hr₀
        have hitems := (OpsState.items_insert_job hrun).trans OpsState.items_fillSlot
        exact (edited_update (·.moved .SCHEDULED) (fun _ => rfl) hr₀ (.schedules hstate hversion)).of_items hitems
      · cases hrun
    | insert_job job => exact .inr (edited_of_items (OpsState.items_insert_job hrun))
    | insert_journey journey => exact .inr (edited_of_items (items_insertSteps hrun))
    | claim_job job_id mark moved =>
      refine .inr ?_
      simp only [OpsCall.run, Except.ok.injEq] at hrun
      unfold OpsState.claim_job at hrun
      split at hrun
      · rename_i s₁ item target hclaim
        cases hrun
        obtain rfl : (s._set_job job_id mark).2 = s₁ := congrArg Prod.snd hclaim
        have hclaimed : (s._set_job job_id mark).1 = true := congrArg Prod.fst hclaim
        have hmoved : Edited (.claim_job job_id mark (some (item, target))) s (s._move_item item target) :=
          edited_move fun r hid hversion => .claims hclaimed hid.symm hversion
        exact hmoved.of_items rfl
      · rename_i hclaim _
        cases hrun
        obtain rfl : (s._set_job job_id mark).2 = s' := congrArg Prod.snd hclaim
        exact edited_of_items rfl
    | move_item item target =>
      cases hrun
      exact .inr (edited_move fun r hid hversion => .moves hid.symm hversion)
    | finish_item current =>
      cases hrun
      exact .inr (edited_finish_item s current)
    | ensure_attempt attempt =>
      refine .inr (edited_of_items ?_)
      simp only [OpsCall.run, OpsState.ensure_attempt] at hrun
      split at hrun
      · cases hrun
        rfl
      · split at hrun
        · cases hrun
          rfl
        · cases hrun
    | _ =>
      cases hrun
      exact .inr (edited_of_items rfl)

variable {c : OpsCall} {o : OpsOutcome} {s : OpsState}

theorem item_after (hr : r ∈ s.items) : ∃ r' ∈ (opsExec.after c o s).items,
    r'.content_item_id = r.content_item_id ∧ Edits s c r r' := by
  have hfind := Table.find?_key hr
  rcases items_after c o s with ⟨row, rfl, hnew, hafter⟩ | ⟨F, hF, hedits⟩
  · have hne : row.content_item_id ≠ r.content_item_id := by
      intro h
      rw [h, hfind] at hnew
      cases hnew
    have hsame := hafter r.content_item_id
    rw [if_neg hne, hfind] at hsame
    exact ⟨r, Table.mem_of_find? hsame, rfl, .keeps⟩
  · have hsome := hF r.content_item_id
    rw [hfind, Option.map_some] at hsome
    exact ⟨F r, Table.mem_of_find? hsome, Table.key_of_find? hsome, hedits r hr⟩

theorem item_before {r' : ItemRow} (hr' : r' ∈ (opsExec.after c o s).items) :
    (∃ r ∈ s.items, r'.content_item_id = r.content_item_id ∧ Edits s c r r') ∨
      c = .insert_item r' ∧ s.items.find? r'.content_item_id = none := by
  have hfind := Table.find?_key hr'
  rcases items_after c o s with ⟨row, rfl, hnew, hafter⟩ | ⟨F, hF, hedits⟩
  · rw [hafter] at hfind
    split at hfind
    · cases hfind
      exact .inr ⟨rfl, hnew⟩
    · exact .inl ⟨r', Table.mem_of_find? hfind, rfl, .keeps⟩
  · rw [hF] at hfind
    obtain ⟨r, hr, rfl⟩ := Option.map_eq_some_iff.mp hfind
    exact .inl ⟨r, Table.mem_of_find? hr, (Table.key_of_find? hr).symm, hedits r (Table.mem_of_find? hr)⟩

/-! ## Calls as the operations make them -/

/-- The job is one `schedule_content_item` makes. -/
def SchedulesJob (item_id : String) (item : ContentItem) (slot_id : Option String) (job : NewJob) : Prop :=
  ∃ (r : ScheduleRequest) (due_at : String), r.item_id = item_id ∧ slot_id = given r.slot_id ∧
    job = publishJob r item due_at

/-- What holds of a call that an operation makes, which requests a move of an item only if `moves`, and claims a job
    only if `claims`. -/
def ProperIf (moves claims : Prop) : OpsCall → Prop
  | .insert_item row =>
    (∃ h, row.content_item_id = itemId h) ∧ row.item.state = .PLANNED ∧ row.item.approved_version = none
  | .transition_item _ item target approved_version _ =>
    moves ∧ target ∈ CONTENT_TRANSITIONS item.state ∧
      (target ∈ APPROVAL_BOUND_CONTENT_STATES → approved_version = some item.version)
  | .revise_item _ item _ new_state => item.state ∉ SETTLED_STATES ∧ new_state = revisedState item.state
  | .schedule_item item_id item slot_id job =>
    (.SCHEDULED ∈ CONTENT_TRANSITIONS item.state ∧ item.approved_version = some item.version) ∧
      SchedulesJob item_id item slot_id job
  | .insert_job job => ∃ project_id item_id item due_at, job = refreshJob project_id item_id item due_at
  | .set_job _ mark => mark.MovesOn ∧ mark.status ≠ .ENQUEUED
  | .claim_job job_id mark _ => claims ∧ (mark = refreshMark ∨ mark = enqueueMark (messageId job_id))
  | _ => True

/-- What holds of every call that an operation makes. -/
abbrev Proper : OpsCall → Prop := ProperIf True True

/-- The jobs a call may add. -/
def OpsCall.Adds : OpsCall → NewJob → Prop
  | .schedule_item _ _ _ job, n => n = job
  | .insert_job job, n => n = job
  | .insert_journey journey, n => ∃ index step item, n = OpsState.journeyJob journey index step item
  | _, _ => False

section
omit [Sha256] [IsoTime]

theorem mem_TAKEN_UP {status : ScheduledJobStatus} : status ∈ TAKEN_UP ↔ status = .PENDING ∨ status = .BLOCKED := by
  simp [TAKEN_UP]

theorem movesOn_of_taken_up (hfrom : m.from_statuses = TAKEN_UP) (hstatus : m.status ≠ .PENDING) :
    m.MovesOn :=
  fun _ h => .inl ⟨mem_TAKEN_UP.mp (hfrom ▸ h), hstatus⟩

theorem movesOn_deliveryMark (delivery : Reliability.OutboxDeliveryResult) : (deliveryMark delivery).MovesOn := by
  unfold deliveryMark
  intro status h
  split at h <;> simp_all

end

variable {mark : JobMark}

omit [Sha256] [IsoTime] in
theorem movesOn_claim (h : mark = refreshMark ∨ mark = enqueueMark (messageId job_id)) :
    mark.MovesOn := by
  rcases h with rfl | rfl
  · exact movesOn_of_taken_up rfl (by simp [refreshMark])
  · exact movesOn_of_taken_up rfl (by simp [enqueueMark])

omit [Sha256] in
theorem jobsAdded_insertSteps {fresh : ℕ → Hex} {journey : Journey} {index : ℕ} {steps : List JourneyStep}
    {s : OpsState} {x : List ScheduledJob × OpsState} (h : OpsState.insertSteps fresh journey index steps s = .ok x) :
    JobsAdded (OpsCall.insert_journey journey).Adds s x.2 := by
  induction steps generalizing index s x with
  | nil =>
    cases h
    exact jobsAdded_of_jobs rfl
  | cons step steps ih =>
    obtain ⟨item, job, s₁, jobs, hjob, hrest, -⟩ := insertSteps_cons h
    have hadded : JobsAdded (OpsCall.insert_journey journey).Adds s s₁ :=
      jobsAdded_insert_job hjob ⟨index, step, item, rfl⟩
    exact hadded.trans (ih (x := (jobs, x.2)) hrest)

/-- The jobs a call may enqueue. -/
def OpsCall.Claims : OpsCall → String → Prop
  | .claim_job job_id mark _, k => k = job_id ∧ mark = enqueueMark (messageId job_id)
  | _, _ => False

omit [Sha256] [IsoTime] in
theorem claims_of_mark (moved : Option (ContentItem × ContentState))
    (h : mark = refreshMark ∨ mark = enqueueMark (messageId job_id)) (henqueued : mark.status = .ENQUEUED) :
    (OpsCall.claim_job job_id mark moved).Claims job_id := by
  rcases h with rfl | rfl
  · cases henqueued
  · exact ⟨rfl, rfl⟩

/-- **What a call does to the jobs.** -/
theorem jobs_after (hc : Proper c) : JobsMove c.Claims c.Adds s (opsExec.after c o s) := by
  cases hexec : opsExec c o s with
  | error e =>
    rw [Exec.after_of_error hexec]
    exact jobsMove_of_jobs rfl
  | ok x =>
    obtain ⟨a, s'⟩ := x
    rw [Exec.after_of_ok hexec]
    have hrun := run_of_exec hexec
    cases c with
    | insert_item row =>
      simp only [OpsCall.run, OpsState.insert_item] at hrun
      split at hrun
      · cases hrun
        exact jobsMove_of_jobs rfl
      · cases hrun
    | transition_item item_id item target approved_version approval_ref =>
      simp only [OpsCall.run, OpsState.transition_item] at hrun
      split at hrun
      · split at hrun
        · cases hrun
          exact jobsMove_cancel_item_jobs item_id _ rfl
        · cases hrun
          exact jobsMove_of_jobs rfl
      · cases hrun
    | revise_item item_id item body new_state =>
      simp only [OpsCall.run, OpsState.revise_item] at hrun
      split at hrun
      · cases hrun
        exact jobsMove_cancel_item_jobs item_id _ rfl
      · cases hrun
    | schedule_item item_id item slot_id job =>
      simp only [OpsCall.run, OpsState.schedule_item] at hrun
      split at hrun
      · have hadded : JobsAdded (OpsCall.schedule_item item_id item slot_id job).Adds _ s' :=
          jobsAdded_insert_job hrun rfl
        exact (hadded.of_jobs (s := s) OpsState.jobs_fillSlot).move
      · cases hrun
    | insert_job job =>
      have hadded : JobsAdded (OpsCall.insert_job job).Adds s s' := jobsAdded_insert_job hrun rfl
      exact hadded.move
    | insert_journey journey => exact (jobsAdded_insertSteps hrun).move
    | set_job job_id mark =>
      cases hrun
      exact jobsMove_set_job hc.1 fun henqueued => absurd henqueued hc.2
    | claim_job job_id mark moved =>
      have hmark := movesOn_claim hc.2
      have htakes := claims_of_mark moved hc.2
      simp only [OpsCall.run, Except.ok.injEq] at hrun
      unfold OpsState.claim_job at hrun
      split at hrun
      · rename_i s₁ item target hclaim
        cases hrun
        obtain rfl : (s._set_job job_id mark).2 = s₁ := congrArg Prod.snd hclaim
        exact (jobsMove_set_job hmark htakes).of_jobs rfl
      · rename_i hclaim _
        cases hrun
        obtain rfl : (s._set_job job_id mark).2 = s' := congrArg Prod.snd hclaim
        exact jobsMove_set_job hmark htakes
    | move_item item target =>
      cases hrun
      exact jobsMove_of_jobs rfl
    | finish_item current =>
      cases hrun
      exact jobsMove_of_jobs (OpsState.jobs_finish_item s current)
    | ensure_attempt attempt =>
      simp only [OpsCall.run, OpsState.ensure_attempt] at hrun
      split at hrun
      · cases hrun
        exact jobsMove_of_jobs rfl
      · split at hrun
        · cases hrun
          exact jobsMove_of_jobs rfl
        · cases hrun
    | _ =>
      cases hrun
      exact jobsMove_of_jobs rfl

end Content
