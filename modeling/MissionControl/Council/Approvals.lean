import MissionControl.Council.Sound

/-! # Side effects are approved

The gateway writes a scaffold under an approval it has found resolved, for the state that
approval binds. Two things can go wrong: an engine that starts over from a state that is
decided already leaves the decision on a new strategy; and an approval that is staled between
the check of the gateway and the write is not resolved any more when the tool runs. -/

namespace Council

open Canonical
open Interleaving

variable {mission : Mission} {m m' : CouncilStage} {i : Nat} {state : CouncilState}

section

variable [Sha256] [TextRules] [Settings]

/-! ## The gateway -/

/-- The row a worker has read is that of the mission. -/
structure RowOurs (mission : Mission) (row : MissionRow) : Prop where
  mission_id : row.mission_id = mission.mission_id
  tenant_id : row.tenant_id = mission.tenant_id
  project_id : row.project_id = mission.project_id
  engine : row.engine = mission.engine

/-- What an approval has that lacks nothing. -/
structure Granted (row : MissionRow) (requested : List RequestedAction) (a : Approval) : Prop where
  tenant_id : a.tenant_id = row.tenant_id
  project_id : a.project_id = row.project_id
  run_id : a.run_id = row.mission_id
  status : a.status = .resolved
  approve : a.approve = some true
  policy_version : a.policy_version = POLICY_VERSION
  listed : ∃ r ∈ requested, r.tool_id = WRITE_SCAFFOLD

variable {a : Approval} {row : MissionRow}

omit [Sha256] [TextRules] [Settings] in
theorem granted_of_missing {requested : List RequestedAction} (h : missing row requested a = none) :
    Granted row requested a := by
  unfold missing at h
  split at h
  · cases h
  rename_i hscope
  split at h
  · cases h
  rename_i hrun
  split at h
  · cases h
  rename_i hgranted
  split at h
  · cases h
  split at h
  · cases h
  rename_i hpolicy
  split at h
  · cases h
  rename_i hlisted
  push Not at hscope hrun hgranted hpolicy hlisted
  obtain ⟨r, hr, hpair⟩ := hlisted
  exact ⟨hscope.1, hscope.2, hrun, hgranted.1, hgranted.2, hpolicy, r, hr, congrArg Prod.fst hpair⟩

omit [Sha256] [TextRules] [Settings] in
theorem checking_of_own {t : List Exchange} {approval_id action_hash : String}
    {r : CouncilCalls.Answer (.consume_approval approval_id action_hash)} (ha : a.status = .resolved)
    (hown : m.own i = t ++ [⟨.get_approval approval_id, .ok (some a)⟩] ++
      [⟨.consume_approval approval_id action_hash, r⟩]) : Checking m i = some approval_id := by
  unfold Checking
  rw [hown]
  simp [checking, ha]

variable {decision : GateDecision}

omit [Settings] in
theorem writeApproved {w : World} {a' : Approval} (hrow : RowOurs mission row)
    (hgranted : Granted row state.requested_actions a) (hsound : Sound mission w state)
    (hdecision : state.decision = some decision) (happrove : decision.approve = true)
    (ha' : findApproval w.approvals decision.approval_id = some a') (hnext : a.Next a') :
    WriteApproved mission w state decision.approval_id := by
  have hdecided : a.status ≠ .pending := by
    rw [hgranted.status]
    decide
  refine ⟨hsound.requested_actions, ?_, a', ha', ?_⟩
  · obtain ⟨r, hr, htool⟩ := hgranted.listed
    rw [hsound.requested_actions] at hr
    exact ⟨r, hr, htool⟩
  · refine ⟨(hnext.run_id.trans hgranted.run_id).trans hrow.mission_id,
      (hnext.tenant_id.trans hgranted.tenant_id).trans hrow.tenant_id,
      (hnext.project_id.trans hgranted.project_id).trans hrow.project_id,
      (hnext.approve hdecided).trans hgranted.approve, hnext.policy_version.trans hgranted.policy_version, ?_⟩
    rcases hsound.decided with hopen | ⟨-, decision', a'', hdecision', ha'', hhash⟩
    · simp [CouncilState.approved, hdecision, happrove] at hopen
    · rw [hdecision] at hdecision'
      cases hdecision'
      rw [ha'] at ha''
      cases ha''
      exact hhash

/-- **The gateway writes what the approval binds.** -/
theorem keeps_invoke (hrow : RowOurs mission row) (h : Good mission state m)
    (hdecision : state.decision = some decision) (happrove : decision.approve = true) :
    Keeps mission i m (invoke row state decision.approval_id) fun _ _ => True := by
  refine keeps_asked trivial fun _ m₁ h₁ => ?_
  by_cases hempty : decision.approval_id = ""
  · simp only [_check_approval, if_pos hempty]
    exact Keeps.raise
  simp only [_check_approval, if_neg hempty, Program.bind_eq_bind, Program.bind_assoc]
  refine Keeps.call (fun _ _ _ => trivial) fun m₂ o r h₂ _ _ hr => ?_
  have hown := Stage.own_perform exec m₂ i (.get_approval decision.approval_id) o
  rw [hr] at hown
  cases r with
  | none => exact Keeps.raise
  | some a =>
    have hfound : findApproval m₂.world.approvals decision.approval_id = some a := Except.ok.inj hr
    cases hmissing : missing row state.requested_actions a with
    | some code =>
      simp only [hmissing]
      exact Keeps.raise
    | none =>
      simp only [hmissing]
      have hgranted := granted_of_missing hmissing
      have hlater := (h₁.trans h₂).trans (later_perform (i := i) (.get_approval decision.approval_id) o)
      refine Keeps.call (fun _ _ _ => trivial) fun m₃ o' r' h₃ hown₃ _ hr' => ?_
      have hown' := Stage.own_perform exec m₃ i (.consume_approval decision.approval_id
        (action_hash row.mission_id WRITE_SCAFFOLD (scaffoldArgs state))) o'
      rw [hown₃, hown] at hown'
      refine Keeps.perform (fun m₄ h₄ hown₄ => ⟨?_, fun hclean => ?_⟩) fun _ _ _ _ _ _ _ _ => trivial
      · exact checking_of_own hgranted.status (hown₄.trans hown')
      · have hlater₄ := (h₃.trans (later_perform (i := i) (.consume_approval decision.approval_id
          (action_hash row.mission_id WRITE_SCAFFOLD (scaffoldArgs state))) o')).trans h₄
        have hsound := (h.later (hlater.trans hlater₄)) hclean
        obtain ⟨a', ha', hnext⟩ := (later_perform (i := i) (.get_approval decision.approval_id) o |>.trans
          hlater₄).world.approvals _ a hfound
        exact writeApproved hrow hgranted hsound hdecision happrove ha' hnext

/-! ## Requests -/

variable {α : Type}

theorem keeps_booked {p : CouncilProgram α} (hp : Booked p) : Keeps mission i m p fun _ _ => True :=
  Keeps.unbound hp.unbound

theorem keeps_applyCompleted (hrow : RowOurs mission row) (h : Good mission state m) :
    Keeps mission i m (applyCompleted row state) fun _ _ => True := by
  unfold applyCompleted
  split
  · split
    · rename_i decision hdecision
      split
      · rename_i happrove
        exact (keeps_invoke hrow h hdecision happrove).bind fun _ _ _ _ => keeps_booked orderly_complete.booked
      · exact keeps_booked (orderly_fail _).booked
    · exact keeps_booked (orderly_fail _).booked
  · exact keeps_booked orderly_complete.booked

variable {P : α → CouncilStage → Prop}

theorem keeps_row {f : MissionRow → CouncilProgram α}
    (hf : ∀ row m', Later m m' → RowOurs mission row → Keeps mission i m' (f row) P) :
    Keeps mission i m ((perform .get_mission_row).bind f) P := by
  refine Keeps.call (fun _ _ _ => trivial) ?_
  intro m' o row h _ hbound hr
  cases hr
  exact hf _ _ (h.trans (later_perform _ o))
    ⟨hbound.ours.mission_id, hbound.ours.tenant_id, hbound.ours.project_id, hbound.ours.engine⟩

theorem keeps_settle {ended : Except Err EngineStep}
    (h : ∀ step, ended = .ok step → Good mission step.state m) :
    Keeps mission i m (settle ended) fun _ _ => True := by
  cases ended with
  | error e => exact keeps_booked (orderly_failed e).booked
  | ok step =>
    have hgood := h step rfl
    apply keeps_row
    intro row m₁ h₁ hrow
    obtain ⟨status, state⟩ := step
    cases status with
    | AWAITING_APPROVAL gate => exact keeps_booked (orderly_applyGate row gate).booked
    | COMPLETED => exact keeps_applyCompleted hrow (hgood.later h₁)
    | REJECTED => exact keeps_booked (orderly_applyEnded row).booked
    | BLOCKED => exact keeps_booked (orderly_applyEnded row).booked

theorem keeps_latest {f : Option CouncilState → CouncilProgram α}
    (hf : ∀ state m', Later m m' → (∀ st, state = some st → Good mission st m' ∧ st ∈ m'.world.checkpoints) →
      ((m.own i).any starts = true → ∀ st, state = some st → Open st m') → Keeps mission i m' (f state) P) :
    Keeps mission i m ((perform .latest_checkpoint_state).bind f) P := by
  refine Keeps.call (fun _ _ _ => trivial) ?_
  intro m' o state h hown hbound hr
  have hlater := later_perform (m := m') (i := i) .latest_checkpoint_state o
  have hmade := Stage.own_perform exec m' i .latest_checkpoint_state o
  rw [hr, hown] at hmade
  have hlast : m'.world.checkpoints.getLast? = state := Except.ok.inj hr
  apply hf state _ (h.trans hlater)
  · intro st hst
    have hmem : st ∈ m'.world.checkpoints := List.mem_of_getLast? (hlast.trans hst)
    exact ⟨Good.later (fun hclean => hbound.checkpoints hclean st hmem) hlater, hmem⟩
  · intro hstarted st hst hclean
    cases happroved : st.approved with
    | false => rfl
    | true =>
      refine absurd ?_ (hclean i)
      refine ⟨m.own i, _, [], hmade, hstarted, ?_⟩
      rw [hst]
      exact happroved

variable {run_engine : Engine → Option CouncilState → CouncilProgram EngineStep}

/-- **Under the lease**: the engine runs on the last checkpoint, and how it ended is applied. -/
theorem keeps_driven (hrow : RowOurs mission row) (hrun : ∀ state m₁, Later m m₁ →
      (∀ st, state = some st → Good mission st m₁ ∧ st ∈ m₁.world.checkpoints) →
      ((m.own i).any starts = true → ∀ st, state = some st → Open st m₁) →
      Keeps mission i m₁ (run_engine mission.engine state) fun step m' => Good mission step.state m') :
    Keeps mission i m (driven row run_engine (return true)) fun _ _ => True := by
  refine Keeps.call (fun _ _ _ => trivial) fun m₁ o _ h₁ hown _ _ => ?_
  have hlater := h₁.trans (later_perform (i := i) .run_status o)
  have hmade := Stage.own_perform exec m₁ i .run_status o
  apply keeps_latest
  intro state m₂ h₂ hstate hopen
  refine keeps_asked trivial fun _ m₃ h₃ => ?_
  rw [hrow.engine]
  have hstate₃ : ∀ st, state = some st → Good mission st m₃ ∧ st ∈ m₃.world.checkpoints :=
    fun st hst => ⟨(hstate st hst).1.later h₃, h₃.world.checkpoints st (hstate st hst).2⟩
  have hopen₃ (hstarted : (m.own i).any starts = true) : ∀ st, state = some st → Open st m₃ := by
    intro st hst
    refine (hopen ?_ st hst).later h₃
    rw [hmade, hown, List.any_append, hstarted, Bool.true_or]
  refine Keeps.attempt_bind (hrun state m₃ ((hlater.trans h₂).trans h₃) hstate₃ hopen₃) ?_ ?_
  · intro step m₄ _ hgood
    refine keeps_asked trivial fun _ m₅ h₅ => ?_
    exact keeps_settle fun step' hstep => by cases hstep; exact hgood.later h₅
  · intro e m₄ _
    refine keeps_asked trivial fun _ m₅ _ => ?_
    exact keeps_settle fun step' hstep => by cases hstep

variable {owner : String}

theorem keeps_drive {pre : CouncilProgram Bool} (hdriven : ∀ row m', Later m m' → RowOurs mission row →
      Keeps mission i m' (driven row run_engine pre) fun _ _ => True) :
    Keeps mission i m (_drive owner run_engine pre) fun _ _ => True := by
  refine Keeps.call (fun _ _ _ => trivial) ?_
  intro m₁ o row h₁ _ hbound hr
  cases row with
  | none => exact Keeps.ret fun _ _ => trivial
  | some row =>
    have hrow : RowOurs mission row := by
      unfold Exec.answer at hr
      by_cases hmay : mayAcquire m₁.world.row m₁.world.clock owner = true
      · rw [exec_acquire lease_ttl o hmay] at hr
        cases hr
        exact ⟨hbound.ours.mission_id, hbound.ours.tenant_id, hbound.ours.project_id, hbound.ours.engine⟩
      · simp only [exec, if_neg hmay] at hr
        cases hr
    have hlater := h₁.trans (later_perform (i := i) (.acquire_lease owner lease_ttl) o)
    refine Keeps.attempt_bind (hdriven row _ hlater hrow) ?_ ?_
    · intro _ m₂ _ _
      exact keeps_asked trivial fun _ _ _ => Keeps.ret fun _ _ => trivial
    · intro e m₂ _
      exact keeps_asked trivial fun _ _ _ => Keeps.raise

theorem keeps_execute : Keeps mission i m (execute owner) fun _ _ => True := by
  apply keeps_drive
  intro row m₁ _ hrow
  refine Keeps.call (fun _ _ _ => trivial) fun m₂ o started _ hown _ hr => ?_
  cases started with
  | false => exact Keeps.ret fun _ _ => trivial
  | true =>
    have hmade := Stage.own_perform exec m₂ i (.compare_and_set_run_status .queued .running) o
    rw [hr] at hmade
    have hstarted : ((m₂.perform exec i (.compare_and_set_run_status .queued .running) o).own i).any
        starts = true := by
      rw [hmade, List.any_append]
      simp [starts]
    apply keeps_driven hrow
    intro state m₃ _ hstate hopen
    exact keeps_start fun st hst => ⟨(hstate st hst).1, hopen hstarted st hst⟩

theorem keeps_driveRecover : Keeps mission i m (driveRecover owner) fun _ _ => True := by
  apply keeps_drive
  intro row m₁ _ hrow
  apply keeps_driven hrow
  intro state m₂ _ hstate _
  exact keeps_recover hstate

theorem keeps_resumeWith {approval : Approval} (hcertified : Certified (decisionOf approval) m) :
    Keeps mission i m (resumeWith owner row approval) fun _ _ => True := by
  refine keeps_asked trivial fun used m₁ h₁ => ?_
  cases used with
  | false => exact Keeps.raise
  | true =>
    apply (keeps_booked (orderly_startResuming approval).booked).bind
    intro moved m₂ h₂ _
    cases moved with
    | false => exact Keeps.raise
    | true =>
      refine keeps_asked trivial fun _ m₃ h₃ => ?_
      apply keeps_drive
      intro row' m₄ h₄ hrow
      apply keeps_driven hrow
      intro state m₅ h₅ hstate _
      have hlater := (((h₁.trans h₂).trans h₃).trans h₄).trans h₅
      exact keeps_resume (fun st hst => (hstate st hst).1) (hcertified.later hlater)

theorem keeps_rowApproval (row : MissionRow) : Keeps mission i m (rowApproval row) fun approval m' =>
      ∀ a, approval = some a → Certified (decisionOf a) m' := by
  unfold rowApproval
  split
  · rename_i approval_id _
    refine Keeps.perform (fun _ _ _ => trivial) ?_
    intro m₁ o approval m₂ _ _ hr h₂ a ha
    have hfound : findApproval m₁.world.approvals approval_id = some a := by
      rw [← ha]
      exact Except.ok.inj hr
    have hid : a.approval_id = approval_id := by
      simpa using List.find?_some hfound
    rw [← hid] at hfound
    have hcertified : Certified (decisionOf a) m₁ := ⟨a, hfound, rfl⟩
    exact (hcertified.later (later_perform (i := i) (.get_approval approval_id) o)).later h₂
  · exact Keeps.ret fun _ _ a ha => by cases ha

theorem keeps_resume_request : Keeps mission i m (resume owner) fun _ _ => True := by
  refine keeps_asked trivial fun row m₁ _ => ?_
  refine keeps_asked trivial fun status m₂ _ => ?_
  split
  · exact Keeps.raise
  · apply (keeps_rowApproval row).bind
    intro approval m₃ _ hcertified
    cases approval with
    | none => exact Keeps.raise
    | some approval =>
      dsimp only
      split
      · exact Keeps.raise
      · exact Keeps.raise
      · refine keeps_asked trivial fun state m₄ h₄ => ?_
        split
        · exact keeps_asked trivial fun _ _ _ => Keeps.raise
        · split
          · exact Keeps.raise
          · exact keeps_resumeWith ((hcertified approval rfl).later h₄)

theorem keeps_retry : Keeps mission i m (retry owner) fun _ _ => True := by
  refine keeps_asked trivial fun row m₁ _ => ?_
  refine keeps_asked trivial fun status m₂ _ => ?_
  split
  · exact Keeps.raise
  · refine keeps_asked trivial fun moved m₃ _ => ?_
    cases moved with
    | false => exact Keeps.raise
    | true => exact keeps_asked trivial fun _ _ _ => keeps_driveRecover

theorem keeps_resubmit {status : RunStatus} :
    Keeps mission i m (if status = .queued then execute owner else driveRecover owner)
      fun _ _ => True := by
  split
  · exact keeps_execute
  · exact keeps_driveRecover

theorem keeps_recover_request : Keeps mission i m (recover owner) fun _ _ => True := by
  refine keeps_asked trivial fun row m₁ _ => ?_
  refine keeps_asked trivial fun status m₂ _ => ?_
  split
  · exact Keeps.raise
  · refine keeps_asked trivial fun now m₃ _ => ?_
    split
    · exact keeps_resubmit
    · exact Keeps.raise

theorem keeps_recover_stale : Keeps mission i m (recover_stale owner) fun _ _ => True := by
  refine keeps_asked trivial fun now m₁ _ => ?_
  refine keeps_asked trivial fun stale m₂ _ => ?_
  cases stale with
  | false => exact Keeps.ret fun _ _ => trivial
  | true => exact keeps_asked trivial fun status m₃ _ => keeps_resubmit

omit [Settings] in
theorem sound_initial (w : World) :
    Sound mission w (initial_state mission.mission_id mission.idea mission.requested) :=
  ⟨rfl, rfl, by simp [initial_state], .inl rfl⟩

theorem keeps_dispatch : Keeps mission i m (dispatch mission owner) fun _ _ => True := by
  apply keeps_append fun _ => sound_initial m.world
  intro m₁ _
  exact keeps_execute

theorem binding_covers : (bindingDiscipline mission).Covers := by
  intro p hp i m _
  obtain ⟨request, rfl⟩ := hp
  have hkeeps : Keeps mission i m (request.program mission) fun _ _ => True := by
    cases request with
    | dispatch owner => exact keeps_dispatch
    | execute owner => exact keeps_execute
    | resume owner => exact keeps_resume_request
    | cancel => exact keeps_booked orderly_cancel.booked
    | retry owner => exact keeps_retry
    | recover owner => exact keeps_recover_request
    | recover_stale owner => exact keeps_recover_stale
    | decide approval_id reviewer approve =>
      exact keeps_booked (orderly_decide_approval approval_id reviewer approve).booked
  exact Discipline.Safe.mono hkeeps fun _ _ _ => trivial

end

/-! ## Runs -/

/-- Whether a call reads the last checkpoint. -/
def reads : Call → Bool
  | .latest_checkpoint_state => true
  | _ => false

/-- The approval a call retires. -/
def retires : Call → Option String
  | .mark_approval_stale approval_id => some approval_id
  | _ => none

/-- The worker that started the mission reads no state that is decided already, and no approval
    is retired while a worker is between the gateway's check of it and its write. -/
def Guarded (m : CouncilStage) : Action CouncilCalls World Outside → Prop
  | .call i c _ =>
    (reads c = true → (m.own i).any starts = true →
      m.world.checkpoints.getLast?.any (·.approved) = false) ∧
    ∀ approval_id ∈ retires c, ∀ e ∈ m.history, Checking m e.worker ≠ some approval_id
  | _ => True

instance (m : CouncilStage) : (a : Action CouncilCalls World Outside) → Decidable (Guarded m a)
  | .call i c _ => inferInstanceAs (Decidable
      ((reads c = true → (m.own i).any starts = true →
        m.world.checkpoints.getLast?.any (·.approved) = false) ∧
      ∀ approval_id ∈ retires c, ∀ e ∈ m.history, Checking m e.worker ≠ some approval_id))
  | .start _ => .isTrue trivial
  | .env _ => .isTrue trivial

/-- **What every guarded run keeps.** -/
structure Approving (m : CouncilStage) : Prop where
  clean : Clean m
  resolved : ∀ i approval_id, Checking m i = some approval_id →
    ∃ a, findApproval m.world.approvals approval_id = some a ∧ a.status = .resolved

theorem not_startedOver_nil : ¬ StartedOver [] := by
  intro ⟨t₁, x, t₂, h, _⟩
  simp at h

variable {x : Exchange} {t : List Exchange}

theorem startedOver_snoc (h : StartedOver (t ++ [x])) :
    StartedOver t ∨ t.any starts = true ∧ readsApproved x = true := by
  obtain ⟨t₁, y, t₂, heq, hstarted, hread⟩ := h
  rcases List.eq_nil_or_concat t₂ with rfl | ⟨t₂, z, rfl⟩
  · obtain ⟨rfl, hxy⟩ := List.append_inj' heq rfl
    cases hxy
    exact .inr ⟨hstarted, hread⟩
  · rw [List.concat_eq_append, ← List.cons_append, ← List.append_assoc] at heq
    obtain ⟨rfl, -⟩ := List.append_inj' heq rfl
    exact .inl ⟨t₁, y, t₂, rfl, hstarted, hread⟩

variable {o : Outside} {c : Call} {w : World}

theorem readsApproved_answer (h : readsApproved ⟨c, exec.answer c o w⟩ = true) :
    reads c = true ∧ w.checkpoints.getLast?.any (·.approved) = true := by
  cases c with
  | latest_checkpoint_state =>
    refine ⟨rfl, ?_⟩
    have hanswer : exec.answer .latest_checkpoint_state o w = .ok w.checkpoints.getLast? := rfl
    rw [hanswer] at h
    cases hlast : w.checkpoints.getLast? with
    | none =>
      rw [hlast] at h
      cases h
    | some st =>
      rw [hlast] at h
      exact h
  | _ => cases h

theorem Clean.call (h : Clean m) (hread : reads c = true → (m.own i).any starts = true →
      m.world.checkpoints.getLast?.any (·.approved) = false) : Clean (m.perform exec i c o) := by
  intro j hover
  by_cases hj : i = j
  · subst hj
    rw [Stage.own_perform] at hover
    rcases startedOver_snoc hover with hover | ⟨hstarted, happroved⟩
    · exact h i hover
    · obtain ⟨hreads, hlast⟩ := readsApproved_answer happroved
      rw [hread hreads hstarted] at hlast
      cases hlast
  · rw [Stage.own_perform_of_ne hj] at hover
    exact h j hover

/-- The approval is there, and resolved. -/
def Resolved (w : World) (approval_id : String) : Prop :=
  ∃ a, findApproval w.approvals approval_id = some a ∧ a.status = .resolved

variable {approval_id : String}

/-- An approval that is not retired stays resolved. -/
theorem Resolved.after (h : Resolved w approval_id) (o : Outside) (hc : retires c ≠ some approval_id) :
    Resolved (Exec.after exec c o w) approval_id := by
  obtain ⟨a, ha, hstatus⟩ := h
  have hid : a.approval_id = approval_id := by
    simpa using List.find?_some ha
  unfold Exec.after
  split
  · rename_i r w' hexec
    cases c with
    | create_approval_request subject_hash =>
      simp only [exec] at hexec
      split at hexec
      · cases hexec
      · cases hexec
        exact ⟨a, findApproval_append ha _, hstatus⟩
    | mark_approval_stale other =>
      cases hexec
      refine ⟨a, ?_, hstatus⟩
      have hne : a.approval_id ≠ other := fun heq => hc (congrArg some (heq.symm.trans hid))
      show findApproval (onApproval w.approvals other _) approval_id = _
      rw [findApproval_onApproval (fun _ => by rfl), ha]
      exact congrArg some (if_neg hne)
    | resolve_approval other reviewer approve =>
      simp only [exec] at hexec
      split at hexec
      · rename_i hpending
        cases hexec
        refine ⟨a, ?_, hstatus⟩
        have hne : a.approval_id ≠ other := by
          intro heq
          rw [← heq, hid, ha] at hpending
          simp [hstatus] at hpending
        show findApproval (onApproval w.approvals other _) approval_id = _
        rw [findApproval_onApproval (fun _ => by rfl), ha]
        exact congrArg some (if_neg hne)
      · cases hexec
        exact ⟨a, ha, hstatus⟩
    | _ =>
      simp only [exec, failing] at hexec
      (repeat' split at hexec) <;> cases hexec <;> exact ⟨a, ha, hstatus⟩
  · exact ⟨a, ha, hstatus⟩

theorem checking_cons (h : checking (x :: t) = some approval_id) :
    (∃ a : Approval, x = ⟨.get_approval approval_id, .ok (some a)⟩ ∧ a.status = .resolved) ∨
      checking t = some approval_id ∧ ∃ action_hash, x.1 = .consume_approval approval_id action_hash := by
  unfold checking at h
  split at h
  · rename_i other a t' heq
    split at h
    · rename_i hstatus
      cases h
      cases heq
      exact .inl ⟨a, rfl, hstatus⟩
    · cases h
  · rename_i other action_hash answer other' a t' heq
    split at h
    · rename_i hstatus
      cases h
      cases heq
      refine .inr ⟨?_, action_hash, rfl⟩
      obtain ⟨hresolved, hsame⟩ := hstatus
      simp [checking, hresolved, hsame]
    · cases h
  · cases h

theorem worker_of_checking (h : Checking m i = some approval_id) : ∃ e ∈ m.history, e.worker = i := by
  cases hown : m.own i with
  | nil =>
    unfold Checking at h
    rw [hown] at h
    cases h
  | cons x t =>
    have hmem : (⟨x.1, x.2⟩ : Exchange) ∈ m.own i := by
      rw [hown]
      exact List.mem_cons_self
    exact ⟨_, Stage.mem_own.mp hmem, rfl⟩

theorem Approving.init (w : World) : Approving ⟨w, []⟩ := by
  constructor
  · intro i
    exact not_startedOver_nil
  · intro i approval_id h
    cases h

theorem Approving.call (h : Approving m) (hguarded : Guarded m (.call i c o)) :
    Approving (m.perform exec i c o) := by
  obtain ⟨hread, hretire⟩ := hguarded
  have hkept {j : Nat} {approval_id : String} (hj : Checking m j = some approval_id) :
      Resolved (Exec.after exec c o m.world) approval_id := by
    refine Resolved.after (h.resolved j approval_id hj) o fun hc => ?_
    obtain ⟨e, he, rfl⟩ := worker_of_checking hj
    exact hretire approval_id hc e he hj
  refine ⟨h.clean.call hread, fun j approval_id hj => ?_⟩
  by_cases hij : i = j
  · subst hij
    unfold Checking at hj
    rw [Stage.own_perform, List.reverse_append] at hj
    rcases checking_cons hj with ⟨a, hx, hstatus⟩ | ⟨hbefore, -⟩
    · injection hx with hcall hanswer
      subst hcall
      exact ⟨a, Except.ok.inj (eq_of_heq hanswer), hstatus⟩
    · exact hkept hbefore
  · unfold Checking at hj
    rw [Stage.own_perform_of_ne hij] at hj
    exact hkept hj

theorem Approving.env (h : Approving m) (hw : Ticks m.world w) : Approving { m with world := w } := by
  have happrovals : w.approvals = m.world.approvals := by rw [hw.same]
  refine ⟨h.clean, fun j approval_id hj => ?_⟩
  obtain ⟨a, ha, hstatus⟩ := h.resolved j approval_id hj
  exact ⟨a, (congrArg (findApproval · approval_id) happrovals).trans ha, hstatus⟩

/-! ## Every guarded run -/

section

variable [Sha256] [TextRules]

/-- The checkpoints of a world. -/
def World.states (w : World) : List CouncilState :=
  w.checkpoints ++ w.native.toList.map (·.values)

/-- **Side effects are approved**: whoever writes a scaffold writes the one of a state whose
    approval is there and resolved; and the risk of no checkpoint is below what the rules say. -/
structure SideEffectsApproved (mission : Mission)
    (steps : List (CouncilStage × Action CouncilCalls World Outside)) (s : Pool CouncilCalls World) :
    Prop where
  written : ∀ m i state approval_id o, (m, .call i (.write_scaffold state approval_id) o) ∈ steps →
    WriteApproved mission m.world state approval_id ∧ Resolved m.world approval_id
  risk : ∀ m ∈ visited steps s, ∀ state ∈ m.world.states,
    ∀ r, state.risk = some r → Stricter (policy_for state) r

theorem Bound.init (clock : Instant) : Bound mission ⟨mission.world clock, []⟩ := by
  refine ⟨⟨rfl, rfl, rfl, rfl⟩, ?_, ?_⟩
  · intro _ state h
    cases h
  · intro _ native h
    cases h

theorem Bound.strict (h : Bound mission m) (hclean : Clean m) (hstate : state ∈ m.world.states) :
    ∀ r, state.risk = some r → Stricter (policy_for state) r := by
  unfold World.states at hstate
  rcases List.mem_append.mp hstate with hmem | hmem
  · exact (h.checkpoints hclean state hmem).risk
  · obtain ⟨native, hnative, rfl⟩ := List.mem_map.mp hmem
    exact (h.native hclean native (Option.mem_toList.mp hnative)).values.risk

/-- **In every guarded run side effects are approved.** -/
theorem side_effects_approved [Settings] {clock : Instant}
    {steps : List (CouncilStage × Action CouncilCalls World Outside)} {s : Pool CouncilCalls World}
    (run : Run (council mission) (mission.world clock) steps s) (hguarded : Meets Guarded steps) :
    SideEffectsApproved mission steps s := by
  have hcall : ∀ m i c o, Approving m → (bindingDiscipline mission).Inv m →
      (bindingDiscipline mission).Pre i c m → Guarded m (.call i c o) →
      Approving (m.perform (council mission).exec i c o) :=
    fun m i c o h _ _ hstep => h.call hstep
  have henv : ∀ m w', Approving m → (council mission).Env m.world w' →
      Approving { m with world := w' } :=
    fun m w' h hw => h.env hw
  constructor
  · intro m i state approval_id o hmem
    obtain ⟨happroving, hchecking, hbinds⟩ := Discipline.run_steps binding_covers
      (D := bindingDiscipline mission) (Bound.init clock) (Approving.init _) hcall henv run hguarded hmem
    exact ⟨hbinds happroving.clean, happroving.resolved i approval_id hchecking⟩
  · intro m hm state hstate
    obtain ⟨before, s', run', rfl, hprefix⟩ := run.visited hm
    have happroving : Approving s'.stage := Discipline.run_invariant binding_covers
      (D := bindingDiscipline mission) (Bound.init clock) (Approving.init _) hcall henv run'
      (hguarded.of_prefix hprefix)
    have hbound : Bound mission s'.stage := Discipline.run_invariant binding_covers
      (D := bindingDiscipline mission) (K := fun _ _ => True) (Bound.init clock) (Bound.init clock)
      (fun m i c o h _ hbinds _ => h.perform hbinds o) (fun m w' h hw => h.env hw) run'
      (fun _ _ => trivial)
    exact hbound.strict happroving.clean hstate

/-- **A mission only moves on.** In every run no approval is lost or rebound and no decision is changed, no checkpoint is
    lost, and the mission stays whose it is. -/
theorem missions_onward [Settings] {w : World} {steps : List (CouncilStage × Action CouncilCalls World Outside)}
    {s : Pool CouncilCalls World} (run : Run (council mission) w steps s) :
    (visited steps s).Pairwise fun m m' => m.world.Onward m'.world := by
  refine run.pairwise (C := fun _ _ => True) (fun run _ m hm => ?_) fun _ _ => trivial
  exact run.later (R := fun m m' => m.world.Onward m'.world) (fun _ => .refl _) (fun _ _ _ => .trans)
    (fun _ _ c o => onward_after c o _) (fun _ _ => Ticks.onward) hm

end

/-! ## The strategy of another worker -/

section

attribute [local instance] Canonical.mixHash quietRules defaults

/-- What the outside answers when the approval is created. -/
def named : Outside := { uuid := "apr_1" }

/-- A mission that is dispatched, approved and resumed. -/
def approved : List (Move CouncilCalls World Outside) :=
  [serves (.dispatch "host:1")] ++ calls 0 15 ++ [.call 0 named] ++ calls 0 4 ++
    [serves (.decide "apr_1" "reviewer" true), serves (.resume "host:1")] ++ calls 1 3 ++ calls 2 25

theorem approved_allowed : ∀ x ∈ approved, x.Allowed (council landingPage) := by
  simp only [approved, List.forall_mem_append, List.forall_mem_cons]
  exact ⟨⟨⟨⟨⟨⟨⟨allowed_serves _, by simp⟩, allowed_calls 0 15⟩, trivial, by simp⟩, allowed_calls 0 4⟩,
    allowed_serves _, allowed_serves _, by simp⟩, allowed_calls 1 3⟩, allowed_calls 2 25⟩

/-- The scaffold of an approved mission is written under its approval. -/
theorem side_effects_approved_resumed : SideEffectsApproved landingPage
    (play (council landingPage) (Pool.init (landingPage.world 0)) approved).1
    (play (council landingPage) (Pool.init (landingPage.world 0)) approved).2 :=
  side_effects_approved (play_run approved_allowed) (by decide +kernel)

theorem missions_onward_resumed :
    (visited (play (council landingPage) (Pool.init (landingPage.world 0)) approved).1
      (play (council landingPage) (Pool.init (landingPage.world 0)) approved).2).Pairwise
        fun m m' => m.world.Onward m'.world :=
  missions_onward (play_run approved_allowed)

/-- The worker that has started the mission stops before it reads the checkpoint. Another takes
    the mission to its gate, the strategy is approved, and a third resumes it and stops. The first
    goes on: its engine starts over from the decided state, with a new strategy, which the next
    recovery finds approved. -/
def overtaken : List (Move CouncilCalls World Outside) :=
  [serves (.dispatch "host:1")] ++ calls 0 4 ++ [passes 301000000, serves (.recover "host:2")] ++
    calls 1 16 ++ [.call 1 named] ++ calls 1 4 ++
    [serves (.decide "apr_1" "reviewer" true), serves (.resume "host:2")] ++ calls 2 3 ++ calls 3 14 ++
    calls 0 3 ++ [.call 0 { strategy := .str "another" }] ++ calls 0 1 ++
    [passes 301000000, serves (.recover "host:3")] ++ calls 4 17

theorem overtaken_allowed : ∀ x ∈ overtaken, x.Allowed (council landingPage) := by
  simp only [overtaken, List.forall_mem_append, List.forall_mem_cons]
  refine ⟨⟨⟨⟨⟨⟨⟨⟨⟨⟨⟨⟨⟨⟨allowed_serves _, ?_⟩, allowed_calls 0 4⟩, allowed_passes _, allowed_serves _, ?_⟩,
    allowed_calls 1 16⟩, trivial, ?_⟩, allowed_calls 1 4⟩, allowed_serves _, allowed_serves _, ?_⟩,
    allowed_calls 2 3⟩, allowed_calls 3 14⟩, allowed_calls 0 3⟩, trivial, ?_⟩, allowed_calls 0 1⟩,
    allowed_passes _, allowed_serves _, ?_⟩, allowed_calls 4 17⟩
  all_goals simp

/-- Whether a step writes a scaffold under an approval of something else. -/
def misdirected (x : CouncilStage × Action CouncilCalls World Outside) : Bool :=
  match x.2 with
  | .call _ (.write_scaffold state approval_id) _ =>
    (findApproval x.1.world.approvals approval_id).all (·.subject_hash != (gate_request state).subject_hash)
  | _ => false

theorem not_approved_of_misdirected {steps : List (CouncilStage × Action CouncilCalls World Outside)}
    {s : Pool CouncilCalls World} (h : steps.any misdirected = true) :
    ¬ SideEffectsApproved landingPage steps s := by
  intro happroved
  obtain ⟨⟨m, a⟩, hmem, hmis⟩ := List.any_eq_true.mp h
  unfold misdirected at hmis
  dsimp only at hmis
  split at hmis
  · rename_i i state approval_id o
    obtain ⟨a, ha, -, -, -, -, -, hhash⟩ := (happroved.written m i state approval_id o hmem).1.approval
    rw [ha] at hmis
    simp [hhash] at hmis
  · cases hmis

/-- A scaffold can be written under the approval of another strategy. -/
theorem side_effects_not_approved : ¬ ∀ steps s,
    Run (council landingPage) (landingPage.world 0) steps s → SideEffectsApproved landingPage steps s := by
  intro h
  have hmisdirected : (play (council landingPage) (Pool.init (landingPage.world 0)) overtaken).1.any
      misdirected = true := by
    decide +kernel
  exact not_approved_of_misdirected hmisdirected (h _ _ (play_run overtaken_allowed))

end

end Council
