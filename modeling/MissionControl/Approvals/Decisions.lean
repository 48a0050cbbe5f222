import MissionControl.Approvals.Records

/-! # Decisions stand

What a reviewer decided is decided once, and the row keeps it. That it also keeps what was
decided upon depends on the callers: a binding is written whatever the status of the row. -/

namespace Approvals

open Interleaving

/-- A point of a run of the approvals. -/
abbrev ApprovalStage : Type := Stage ApprovalCalls World

/-- An action of a run of the approvals. -/
abbrev ApprovalAction : Type := Action ApprovalCalls World String

variable {m m' : ApprovalStage} {i : Nat} {c : Call} {o approval_id : String} {row row' : Approval}

/-! ## Later versions of a row -/

/-- The row has been decided. -/
def Approval.decided (row : Approval) : Bool := row.decided_at.isSome

/-- Whether a reviewer's decision, and what it is bound to, is as it was. -/
structure Approval.SameDecision (row row' : Approval) : Prop where
  reviewer : row'.reviewer = row.reviewer
  decision : row'.decision = row.decision
  decided_at : row'.decided_at = row.decided_at
  subject_ref : row'.subject_ref = row.subject_ref
  subject_hash : row'.subject_hash = row.subject_hash

/-- **A later version of a row**: a decision stands, and so does staleness. -/
structure Approval.Stands (row row' : Approval) : Prop where
  decided : row.decided = true → row.SameDecision row'
  stale : row.status = .stale → row'.status = .stale

/-- Every approval is still there, and stands. -/
def Stand (w w' : World) : Prop :=
  ∀ approval_id row, w.rows.find? approval_id = some row →
    ∃ row', w'.rows.find? approval_id = some row' ∧ row.Stands row'

theorem Approval.SameDecision.refl (row : Approval) : row.SameDecision row := ⟨rfl, rfl, rfl, rfl, rfl⟩

variable {row'' : Approval}

theorem Approval.SameDecision.trans (h : row.SameDecision row') (h' : row'.SameDecision row'') :
    row.SameDecision row'' :=
  ⟨h'.reviewer.trans h.reviewer, h'.decision.trans h.decision, h'.decided_at.trans h.decided_at,
    h'.subject_ref.trans h.subject_ref, h'.subject_hash.trans h.subject_hash⟩

theorem Approval.Stands.refl (row : Approval) : row.Stands row := ⟨fun _ => .refl row, id⟩

theorem Approval.Stands.trans (h : row.Stands row') (h' : row'.Stands row'') : row.Stands row'' := by
  refine ⟨fun hdecided => ?_, fun hstale => h'.stale (h.stale hstale)⟩
  have hsame := h.decided hdecided
  refine hsame.trans (h'.decided ?_)
  unfold Approval.decided
  rw [hsame.decided_at]
  exact hdecided

theorem Stand.refl (w : World) : Stand w w := fun _ row h => ⟨row, h, .refl row⟩

variable {w : World}

theorem Stand.trans {w' w'' : World} (h : Stand w w') (h' : Stand w' w'') : Stand w w'' := by
  intro approval_id row hrow
  obtain ⟨row', hrow', hstands⟩ := h approval_id row hrow
  obtain ⟨row'', hrow'', hstands'⟩ := h' approval_id row' hrow'
  exact ⟨row'', hrow'', hstands.trans hstands'⟩

variable {f : Approval → Approval}

theorem stand_update (hf : ∀ row, (f row).approval_id = row.approval_id) :
    Stand w { w with rows := w.rows.update approval_id f hf } ↔
      ∀ row, w.rows.find? approval_id = some row → row.Stands (f row) := by
  constructor
  · intro h row hrow
    obtain ⟨row', hrow', hstands⟩ := h approval_id row hrow
    rw [Relational.Table.find?_update, if_pos rfl, hrow] at hrow'
    cases hrow'
    exact hstands
  · intro h other row hrow
    rw [Relational.Table.find?_update]
    split
    · rename_i heq
      subst heq
      exact ⟨f row, by rw [hrow, Option.map_some], h row hrow⟩
    · exact ⟨row, hrow, .refl row⟩

/-! ## What the updates keep -/

/-- The row is one the four operations make: what is pending has not been decided. -/
def Approval.Regular (row : Approval) : Prop := row.status = .pending → row.decided = false

theorem stands_resolve (hregular : row.Regular) (reviewer decision : String) (decided_at : Instant) :
    row.Stands (row.resolve reviewer decision decided_at) := by
  unfold Approval.resolve
  split
  · rename_i hpending
    constructor
    · intro hdecided
      rw [hregular hpending] at hdecided
      cases hdecided
    · intro hstale
      rw [hpending] at hstale
      cases hstale
  · exact .refl row

theorem stands_markStale (row : Approval) (reason : String) (now : Instant) :
    row.Stands (row.markStale reason now) := by
  unfold Approval.markStale
  split
  · exact .refl row
  · exact ⟨fun _ => ⟨rfl, rfl, rfl, rfl, rfl⟩, fun _ => rfl⟩

/-- The binding writes what a decided row has already. -/
def Subject.Repeats (subject : Subject) (row : Approval) : Prop :=
  row.decided = true →
    row.subject_hash = some subject.subject_hash ∧ ∀ ref ∈ subject.subject_ref, ref = row.subject_ref

instance (subject : Subject) (row : Approval) : Decidable (subject.Repeats row) :=
  inferInstanceAs (Decidable (row.decided = true →
    row.subject_hash = some subject.subject_hash ∧ ∀ ref ∈ subject.subject_ref, ref = row.subject_ref))

/-- **A decided row stands under a binding exactly when the binding repeats what it has.** -/
theorem stands_bind (subject : Subject) : row.Stands (row.bind subject) ↔ subject.Repeats row := by
  constructor
  · intro h hdecided
    have hsame := h.decided hdecided
    refine ⟨hsame.subject_hash.symm, fun ref href => ?_⟩
    have hrefs := hsame.subject_ref
    unfold Approval.bind at hrefs
    rw [Option.mem_def] at href
    rw [href] at hrefs
    exact hrefs
  · intro h
    refine ⟨fun hdecided => ?_, id⟩
    obtain ⟨hhash, href⟩ := h hdecided
    refine ⟨rfl, rfl, rfl, ?_, hhash.symm⟩
    show subject.subject_ref.getD row.subject_ref = _
    cases hgiven : subject.subject_ref with
    | none => rfl
    | some ref => exact href ref hgiven

/-! ## Steps -/

/-- Every row is regular. -/
def Regular (w : World) : Prop := ∀ row ∈ w.rows, row.Regular

theorem Regular.update (h : Regular w) (hf : ∀ row, (f row).approval_id = row.approval_id)
    (hreg : ∀ row, row.Regular → (f row).Regular) :
    Regular { w with rows := w.rows.update approval_id f hf } := by
  intro row hrow
  rcases (Relational.Table.mem_update hf).mp hrow with ⟨row₀, hrow₀, -, rfl⟩ | ⟨hrow, -⟩
  · exact hreg row₀ (h row₀ hrow₀)
  · exact h row hrow

theorem Regular.after (h : Regular m.world) (c : Call) (o : String) :
    Regular (Exec.after exec c o m.world) := by
  unfold Exec.after
  cases c with
  | now => exact h
  | get_approval approval_id => exact h
  | insert wanted framing now =>
    by_cases hnew : m.world.rows.find? o = none
    · simp only [exec, dif_pos hnew]
      intro row hrow
      rcases (Relational.Table.mem_insert (h := hnew)).mp hrow with hrow | rfl
      · exact h row hrow
      · exact fun _ => rfl
    · simp only [exec, dif_neg hnew]
      exact h
  | bind approval_id subject => exact h.update _ fun row hrow => hrow
  | mark_stale approval_id reason now =>
    refine h.update _ fun row hrow => ?_
    unfold Approval.markStale
    split
    · exact hrow
    · intro hpending
      cases hpending
  | resolve approval_id reviewer decision framing_acknowledged decided_at =>
    simp only [exec]
    split
    · rename_i hexec
      split at hexec
      · cases hexec
      · split at hexec
        · cases hexec
          refine h.update _ fun row hrow => ?_
          unfold Approval.resolve
          split
          · intro hpending
            cases hpending
          · exact hrow
        · cases hexec
          exact h
    · exact h

/-- A binding of a decided approval repeats what the approval is bound to already. -/
def Rebinds (m : ApprovalStage) : ApprovalAction → Prop
  | .call _ (.bind approval_id subject) _ =>
    ∀ row ∈ m.world.rows.find? approval_id, subject.Repeats row
  | _ => True

instance (m : ApprovalStage) : (a : ApprovalAction) → Decidable (Rebinds m a)
  | .call _ (.bind approval_id subject) _ =>
    inferInstanceAs (Decidable (∀ row ∈ m.world.rows.find? approval_id, subject.Repeats row))
  | .call _ .now _ | .call _ (.insert ..) _ | .call _ (.get_approval _) _ | .call _ (.mark_stale ..) _
  | .call _ (.resolve ..) _ | .start _ | .env _ => .isTrue trivial

/-- **One call**: the approvals stand after it, unless it binds a decided one to something else. -/
theorem stand_after (h : Regular m.world) (c : Call) (o : String) :
    Rebinds m (.call i c o) ↔ Stand m.world (Exec.after exec c o m.world) := by
  unfold Exec.after
  cases c with
  | now => exact iff_of_true trivial (.refl _)
  | get_approval approval_id => exact iff_of_true trivial (.refl _)
  | insert wanted framing now =>
    refine iff_of_true trivial ?_
    by_cases hnew : m.world.rows.find? o = none
    · simp only [exec, dif_pos hnew]
      intro approval_id row hrow
      refine ⟨row, ?_, .refl row⟩
      have hne : (wanted.row o framing now).approval_id ≠ approval_id := by
        intro heq
        rw [← show o = approval_id from heq, hnew] at hrow
        cases hrow
      exact (Relational.Table.find?_insert (h := hnew)).trans ((if_neg hne).trans hrow)
    · simp only [exec, dif_neg hnew]
      exact .refl _
  | bind approval_id subject =>
    refine Iff.trans ?_ (stand_update (f := (·.bind subject)) fun _ => rfl).symm
    exact forall_congr' fun row => imp_congr_right fun _ => (stands_bind subject).symm
  | mark_stale approval_id reason now =>
    refine iff_of_true trivial ?_
    exact (stand_update _).mpr fun row _ => stands_markStale row reason now
  | resolve approval_id reviewer decision framing_acknowledged decided_at =>
    refine iff_of_true trivial ?_
    simp only [exec]
    split
    · rename_i hexec
      split at hexec
      · cases hexec
      · split at hexec
        · cases hexec
          refine (stand_update _).mpr fun row hrow => ?_
          exact stands_resolve (h row (Relational.Table.mem_of_find? hrow)) reviewer decision decided_at
        · cases hexec
          exact .refl _
    · exact .refl _

/-! ## Decided once -/

/-- The call decides the approval. -/
def decides (approval_id : String) (e : Event ApprovalCalls) : Bool :=
  match e.call, e.answer with
  | .resolve other .., .ok (some _) => other == approval_id
  | _, _ => false

/-- How often the approval has been decided. -/
def decisions (m : ApprovalStage) (approval_id : String) : Nat := m.history.countP (decides approval_id)

/-- The approval is there, and is pending no longer. -/
def Closed (w : World) (approval_id : String) : Prop :=
  ∃ row, w.rows.find? approval_id = some row ∧ row.status ≠ .pending

theorem Closed.update (h : Closed w approval_id) {other : String}
    (hf : ∀ row, (f row).approval_id = row.approval_id)
    (hstatus : ∀ row : Approval, row.status ≠ .pending → (f row).status ≠ .pending) :
    Closed { w with rows := w.rows.update other f hf } approval_id := by
  obtain ⟨row, hrow, hclosed⟩ := h
  unfold Closed
  rw [Relational.Table.find?_update hf, hrow]
  split
  · exact ⟨f row, rfl, hstatus row hclosed⟩
  · exact ⟨row, rfl, hclosed⟩

theorem status_resolve (row : Approval) (reviewer decision : String) (decided_at : Instant) :
    (row.resolve reviewer decision decided_at).status ≠ .pending := by
  unfold Approval.resolve
  split
  · exact fun h => by cases h
  · rename_i h
    exact h

theorem Closed.after (h : Closed m.world approval_id) (c : Call) (o : String) :
    Closed (Exec.after exec c o m.world) approval_id := by
  unfold Exec.after
  cases c with
  | now => exact h
  | get_approval other => exact h
  | insert wanted framing now =>
    by_cases hnew : m.world.rows.find? o = none
    · simp only [exec, dif_pos hnew]
      obtain ⟨row, hrow, hclosed⟩ := h
      have hne : (wanted.row o framing now).approval_id ≠ approval_id := by
        intro heq
        rw [← show o = approval_id from heq, hnew] at hrow
        cases hrow
      exact ⟨row, (Relational.Table.find?_insert (h := hnew)).trans ((if_neg hne).trans hrow), hclosed⟩
    · simp only [exec, dif_neg hnew]
      exact h
  | bind other subject => exact h.update (f := (·.bind subject)) (fun _ => rfl) fun row hrow => hrow
  | mark_stale other reason now =>
    refine h.update (fun row => row.markStale_approval_id reason now) fun row hrow => ?_
    unfold Approval.markStale
    split
    · exact hrow
    · exact fun hpending => by cases hpending
  | resolve other reviewer decision framing_acknowledged decided_at =>
    simp only [exec]
    split
    · rename_i hexec
      split at hexec
      · cases hexec
      · split at hexec
        · cases hexec
          exact h.update (fun row => row.resolve_approval_id reviewer decision decided_at)
            fun row _ => status_resolve row reviewer decision decided_at
        · cases hexec
          exact h
    · exact h

theorem pending_of_decides (h : decides approval_id ⟨i, c, exec.answer c o m.world⟩ = true) :
    (∃ row, m.world.rows.find? approval_id = some row ∧ row.status = .pending) ∧
      Closed (Exec.after exec c o m.world) approval_id := by
  cases c with
  | resolve other reviewer decision framing_acknowledged decided_at =>
    have hanswer : exec.answer (.resolve other reviewer decision framing_acknowledged decided_at) o m.world =
      (exec (.resolve other reviewer decision framing_acknowledged decided_at) o m.world).map Prod.fst := rfl
    unfold Exec.after
    simp only [exec] at hanswer ⊢
    split at hanswer
    · rw [hanswer] at h
      cases h
    · rename_i hacknowledged
      split at hanswer
      · rename_i hpending
        have hother : other = approval_id := by
          rw [hanswer] at h
          simp only [Except.map, decides] at h
          split at h
          · rename_i heq _
            cases heq
            simpa using h
          · cases h
        subst hother
        simp only [if_neg hacknowledged, if_pos hpending]
        obtain ⟨row, hrow, hstatus⟩ : ∃ row, m.world.rows.find? other = some row ∧ row.status = .pending := by
          simpa [Option.any_eq_true] using hpending
        refine ⟨⟨row, hrow, hstatus⟩, row.resolve reviewer decision decided_at, ?_,
          status_resolve row reviewer decision decided_at⟩
        refine (Relational.Table.find?_update fun row : Approval =>
          row.resolve_approval_id reviewer decision decided_at).trans ?_
        rw [if_pos rfl, hrow]
        rfl
      · rw [hanswer] at h
        cases h
  | _ => cases h

/-- What has been decided was decided once, and is pending no longer. -/
def DecidedOnce (m : ApprovalStage) : Prop :=
  ∀ approval_id, decisions m approval_id = 0 ∨
    decisions m approval_id = 1 ∧ Closed m.world approval_id

theorem DecidedOnce.perform (h : DecidedOnce m) (i : Nat) (c : Call) (o : String) :
    DecidedOnce (m.perform exec i c o) := by
  intro approval_id
  have hcount : decisions (m.perform exec i c o) approval_id = decisions m approval_id +
      if decides approval_id ⟨i, c, exec.answer c o m.world⟩ then 1 else 0 := by
    show (m.history ++ [_]).countP _ = _
    rw [List.countP_append, List.countP_singleton]
    rfl
  by_cases hdecides : decides approval_id ⟨i, c, exec.answer c o m.world⟩ = true
  · obtain ⟨⟨row, hrow, hpending⟩, hclosed⟩ := pending_of_decides hdecides
    rcases h approval_id with hnone | ⟨-, row', hrow', hclosed'⟩
    · refine .inr ⟨?_, hclosed⟩
      rw [hcount, if_pos hdecides, hnone]
    · rw [hrow] at hrow'
      cases hrow'
      exact absurd hpending hclosed'
  · rw [hcount, if_neg hdecides]
    exact (h approval_id).imp id fun hone => ⟨hone.1, hone.2.after c o⟩

/-! ## Runs -/

/-- **Decided approvals are immutable**: no approval is decided twice, and in each later stage of
    the run a decision stands with what it is bound to, and a stale approval is stale. -/
structure Immutable (steps : List (ApprovalStage × ApprovalAction)) (s : Pool ApprovalCalls World) : Prop where
  once : ∀ m ∈ visited steps s, ∀ approval_id, decisions m approval_id ≤ 1
  stands : (visited steps s).Pairwise fun m m' => Stand m.world m'.world

section

variable [Patterns] {w : World} {steps : List (ApprovalStage × ApprovalAction)}
  {s : Pool ApprovalCalls World}

theorem run_regular (h : Regular w) (run : Run approvals w steps s) : Regular s.stage.world := by
  refine Run.invariant (S := approvals) (P := fun m => Regular m.world) h (fun m i c o hm => hm.after c o) ?_ run
  intro m w' hm hw row hrow
  rw [hw.1] at hrow
  exact hm row hrow

theorem run_decidedOnce (run : Run approvals w steps s) : DecidedOnce s.stage := by
  refine Run.invariant (S := approvals) (fun _ => .inl rfl) (fun m i c o hm => hm.perform i c o) ?_ run
  intro m w' hm hw approval_id
  refine (hm approval_id).imp id fun hone => ⟨hone.1, ?_⟩
  obtain ⟨row, hrow, hclosed⟩ := hone.2
  exact ⟨row, by rw [hw.1]; exact hrow, hclosed⟩

theorem stands_iff (h : Regular w) (run : Run approvals w steps s) :
    (visited steps s).Pairwise (fun m m' => Stand m.world m'.world) ↔ Meets Rebinds steps := by
  refine Run.pairwise_iff (S := approvals) (R := fun m m' => Stand m.world m'.world)
    (P := fun m => Regular m.world) (fun run' => run_regular h run') (fun m => .refl m.world)
    (fun m₁ m₂ m₃ => Stand.trans) (fun m p => trivial) (fun m i c o hm => stand_after hm c o)
    (fun m w' hw => ⟨trivial, ?_⟩) run
  intro approval_id row hrow
  exact ⟨row, by rw [hw.1]; exact hrow, .refl row⟩

theorem decisions_le_one (run : Run approvals w steps s) {m : ApprovalStage} (hm : m ∈ visited steps s)
    (approval_id : String) : decisions m approval_id ≤ 1 := by
  obtain ⟨before, s', run', rfl, -⟩ := run.visited hm
  rcases run_decidedOnce run' approval_id with hnone | ⟨hone, -⟩
  · rw [hnone]
    exact Nat.zero_le 1
  · exact le_of_eq hone

/-- **Decided approvals are immutable in a run exactly when no binding of a decided approval
    changes what it is bound to.** -/
theorem immutable_iff (h : Regular w) (run : Run approvals w steps s) :
    Immutable steps s ↔ Meets Rebinds steps := by
  rw [← stands_iff h run]
  exact ⟨Immutable.stands, fun hpairs => ⟨fun m hm => decisions_le_one run hm, hpairs⟩⟩

end

/-! ## A binding after the decision -/

section

/-- Patterns that match nothing. -/
abbrev noPatterns : Patterns where
  urgency _ := false
  pressure _ := false
  minimization _ := false
  assurance _ := false
  evidence _ := false
  lower text := text

attribute [local instance] noPatterns

/-- The database without approvals. -/
def noApprovals : World := ⟨.empty, 0⟩

theorem regular_noApprovals : Regular noApprovals := by
  intro row h
  exact absurd h (Relational.Table.not_mem_empty row)

/-- An approval is requested. -/
def requested : List (Move ApprovalCalls World String) :=
  [.start (Request.create ⟨"run-1", "acme", "web", "release review", "RUN_RESULT", none, none, none,
      "human-review", "amc-approval/v1"⟩ []).program,
    .call 0 "", .call 0 "apr-1", .call 0 ""]

/-- A worker binds it to a result. -/
def binds (i : Nat) : List (Move ApprovalCalls World String) :=
  [.start (Request.bind "apr-1" ⟨"result", none, none, none, none⟩).program, .call i "", .call i ""]

/-- A worker records its approval. -/
def approves (i : Nat) : List (Move ApprovalCalls World String) :=
  [.start (Request.resolve "apr-1" "reviewer" "approve" false).program, .call i "", .call i ""]

theorem requested_allowed : ∀ x ∈ requested, x.Allowed approvals := by
  simp only [requested, List.forall_mem_cons]
  exact ⟨⟨_, rfl⟩, trivial, trivial, trivial, by simp⟩

theorem binds_allowed (i : Nat) : ∀ x ∈ binds i, x.Allowed approvals := by
  simp only [binds, List.forall_mem_cons]
  exact ⟨⟨_, rfl⟩, trivial, trivial, by simp⟩

theorem approves_allowed (i : Nat) : ∀ x ∈ approves i, x.Allowed approvals := by
  simp only [approves, List.forall_mem_cons]
  exact ⟨⟨_, rfl⟩, trivial, trivial, by simp⟩

theorem boundFirst_allowed : ∀ x ∈ requested ++ binds 1 ++ approves 2, x.Allowed approvals := by
  simp only [List.forall_mem_append]
  exact ⟨⟨requested_allowed, binds_allowed 1⟩, approves_allowed 2⟩

theorem boundLate_allowed : ∀ x ∈ requested ++ approves 1 ++ binds 2, x.Allowed approvals := by
  simp only [List.forall_mem_append]
  exact ⟨⟨requested_allowed, approves_allowed 1⟩, binds_allowed 2⟩

theorem immutable_boundFirst :
    Immutable (play approvals (Pool.init noApprovals) (requested ++ binds 1 ++ approves 2)).1
      (play approvals (Pool.init noApprovals) (requested ++ binds 1 ++ approves 2)).2 :=
  (immutable_iff regular_noApprovals (play_run boundFirst_allowed)).mpr (by decide)

/-- A binding of a decided approval changes what was decided upon. -/
theorem not_immutable : ¬ ∀ steps s, Run approvals noApprovals steps s → Immutable steps s := by
  intro h
  have hmeets := (stands_iff regular_noApprovals (play_run boundLate_allowed)).mp
    (h _ _ (play_run boundLate_allowed)).stands
  revert hmeets
  decide

end

end Approvals
