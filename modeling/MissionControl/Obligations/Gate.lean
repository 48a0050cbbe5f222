import MissionControl.Approvals.Records
import MissionControl.Obligations.Invalidation

/-! # The compile gate

A run is released only if nothing blocks it: no demanded obligation of its protected branch is open, no stale
approval is left standing, and none of its remediations is open. Of the remediations the gate asks for the 200
newest of the whole project.

* **What the gate sees** of them (`lineage_remediations_ne_nil`).
* **When open remediations block a release** (`open_remediations_block_iff`). -/

namespace Obligations

open Approvals (Approval)
open Relational (Table recent)

/-! ## The gate -/

/-- What the gate reads of a run. -/
structure RunRow where
  run_id : String
  tenant_id : String
  project_id : String

structure Database where
  runs : Table RunRow String RunRow.run_id
  approvals : Approvals.Rows
  obligations : Ledger
  remediations : Queue

def PROTECTED_BRANCH_PREFIX : String := "art-protected-"

/-- `SELECT … WHERE run_id = ? ORDER BY created_at DESC` -/
def get_approvals_for_run (rows : Approvals.Rows) (run_id : String) : List Approval :=
  recent Approval.created_at (rows.rows.filter fun a => a.run_id = run_id)

/-- The run and what is approved in it: the run itself, where nothing is named. -/
def subject (a : Approval) : String × String := (a.run_id, if a.subject_ref = "" then a.run_id else a.subject_ref)

/-- Stale approvals that no later approval of their subject supersedes. -/
def blocking_stale_approvals (approvals : List Approval) : List Approval :=
  let live := approvals.filter fun a => a.status ≠ .stale
  approvals.filter fun a => a.status = .stale ∧
    ¬ ∃ other ∈ live, subject other = subject a ∧ a.created_at < other.created_at

structure CompileGate where
  artifact_branch : String
  compile_blocked : Bool
  open_obligations : List Obligation
  stale_approvals : List Approval
  lineage_remediations : List Remediation

def run_compile_gate (db : Database) (run_id : String) : CompileGate :=
  let artifact_branch := PROTECTED_BRANCH_PREFIX ++ run_id
  let obligations := open_demanded_obligations db.obligations run_id (some artifact_branch)
  let stale_approvals := blocking_stale_approvals (get_approvals_for_run db.approvals run_id)
  let lineage_remediations :=
    match db.runs.find? run_id with
    | none => []
    | some run => (list_project_lineage_remediations db.remediations run.project_id run.tenant_id 200).filter
        fun r => r.OpenFor run_id
  { artifact_branch
    compile_blocked := obligations ≠ [] ∨ stale_approvals ≠ [] ∨ lineage_remediations ≠ []
    open_obligations := obligations
    stale_approvals
    lineage_remediations }

/-! ## The delivery gate -/

/-- Whether a run's release goes by a contract, and whether that is enforced. -/
structure WorkflowPin where
  uses_contract : Bool
  enforces_contract : Bool

/-- The other checks of a delivery: the codes of its release guards, what the release predicate blocks (nothing,
    where it cannot be evaluated), and whether its verdict could be recorded. -/
structure ReleaseChecks where
  failures : List String
  evaluate : (compile_blocked : Bool) → Option (List String)
  recorded : Bool

/-- The release predicate of a contract. It refuses only where it is enforced. -/
def release_gate (pin : WorkflowPin) (checks : ReleaseChecks) (compile_blocked : Bool) : Except String Unit :=
  if pin.uses_contract then
    match checks.evaluate compile_blocked with
    | none => if pin.enforces_contract then .error "release_gate_unavailable" else .ok ()
    | some blocks =>
      if pin.enforces_contract then
        if checks.recorded then
          match blocks with
          | code :: _ => .error code
          | [] => .ok ()
        else
          .error "release_gate_unrecorded"
      else
        .ok ()
  else
    .ok ()

/-- What a refused delivery is refused for. -/
def delivery_gate (db : Database) (run_id : String) (pin : WorkflowPin) (checks : ReleaseChecks) : Except String Unit :=
  match checks.failures with
  | code :: _ => .error code
  | [] => do
    let compile_blocked := (run_compile_gate db run_id).compile_blocked
    release_gate pin checks compile_blocked
    if compile_blocked then .error "compile_blocked" else .ok ()

/-! ## What the gate sees -/

variable {db : Database} {run_id : String}

/-- The remediations that precede `r` in the listing of its project. -/
def preceding (queue : Queue) (r : Remediation) : List Remediation :=
  let project := queue.rows.filter fun x => x.tenant_id = r.tenant_id ∧ x.project_id = r.project_id
  project.filter fun x => Relational.Precedes Remediation.created_at project x r

/-- **The gate sees** an open remediation of the run's own project that fewer than 200 precede. -/
theorem lineage_remediations_ne_nil : (run_compile_gate db run_id).lineage_remediations ≠ [] ↔
    ∃ run, db.runs.find? run_id = some run ∧ ∃ r ∈ db.remediations, r.OpenFor run_id ∧
      r.tenant_id = run.tenant_id ∧ r.project_id = run.project_id ∧ (preceding db.remediations r).length < 200 := by
  unfold run_compile_gate
  dsimp only
  cases hrun : db.runs.find? run_id with
  | none => simp
  | some run =>
    dsimp only
    constructor
    · intro hne
      obtain ⟨r, hr⟩ := List.exists_mem_of_ne_nil _ hne
      obtain ⟨hlisted, hopen⟩ := List.mem_filter.mp hr
      obtain ⟨⟨hmem, htenant, hproject⟩, hplace⟩ := mem_list_project_lineage_remediations.mp hlisted
      refine ⟨run, rfl, r, hmem, of_decide_eq_true hopen, htenant, hproject, ?_⟩
      unfold preceding
      rw [htenant, hproject]
      exact hplace
    · rintro ⟨run', hrun', r, hmem, hopen, htenant, hproject, hplace⟩
      cases hrun'
      refine List.ne_nil_of_mem (a := r) (List.mem_filter.mpr ⟨mem_list_project_lineage_remediations.mpr ⟨⟨hmem, htenant, hproject⟩, ?_⟩,
        decide_eq_true hopen⟩)
      unfold preceding at hplace
      rw [htenant, hproject] at hplace
      exact hplace

theorem compile_blocked_iff : (run_compile_gate db run_id).compile_blocked = true ↔
    (run_compile_gate db run_id).open_obligations ≠ [] ∨ (run_compile_gate db run_id).stale_approvals ≠ [] ∨
      (run_compile_gate db run_id).lineage_remediations ≠ [] := decide_eq_true_iff

theorem not_blocked_of_delivery {pin : WorkflowPin} {checks : ReleaseChecks}
    (h : delivery_gate db run_id pin checks = .ok ()) : (run_compile_gate db run_id).compile_blocked = false := by
  unfold delivery_gate at h
  cases hfailures : checks.failures with
  | cons code codes =>
    rw [hfailures] at h
    cases h
  | nil =>
    rw [hfailures] at h
    dsimp only at h
    -- the release predicate may refuse, but not let through
    cases hrelease : release_gate pin checks (run_compile_gate db run_id).compile_blocked with
    | error code =>
      rw [hrelease] at h
      cases h
    | ok x =>
      rw [hrelease] at h
      replace h : (if (run_compile_gate db run_id).compile_blocked = true then
        Except.error "compile_blocked" else Except.ok ()) = .ok () := h
      split at h
      · cases h
      · rename_i hblocked
        exact Bool.eq_false_iff.mpr hblocked

theorem delivery_of_not_blocked (h : (run_compile_gate db run_id).compile_blocked = false) :
    delivery_gate db run_id ⟨false, false⟩ ⟨[], fun _ => some [], true⟩ = .ok () := by
  unfold delivery_gate
  rw [h]
  rfl

/-! ## Open remediations -/

/-- No remediation of the run is open. -/
def NoneOpen (db : Database) (run_id : String) : Prop := ∀ r ∈ db.remediations, ¬ r.OpenFor run_id

/-- **Whether the gate can pass over an open remediation**: it cannot if something else blocks the run, or if one that
    is open is of the run's own project and fewer than 200 of that project precede it. -/
def Covered (db : Database) (run_id : String) : Prop :=
  open_demanded_obligations db.obligations run_id (some (PROTECTED_BRANCH_PREFIX ++ run_id)) ≠ [] ∨
    blocking_stale_approvals (get_approvals_for_run db.approvals run_id) ≠ [] ∨
    ∃ run, db.runs.find? run_id = some run ∧ ∃ r ∈ db.remediations, r.OpenFor run_id ∧
      r.tenant_id = run.tenant_id ∧ r.project_id = run.project_id ∧ (preceding db.remediations r).length < 200

theorem compile_blocked_iff_covered : (run_compile_gate db run_id).compile_blocked = true ↔ Covered db run_id := by
  rw [compile_blocked_iff, lineage_remediations_ne_nil]
  rfl

/-- **Open remediations block a release**, at the compile gate and at every delivery, exactly if none is open or the
    run is covered. -/
theorem open_remediations_block_iff (db : Database) (run_id : String) :
    (((run_compile_gate db run_id).compile_blocked = false → NoneOpen db run_id) ∧
      ∀ pin checks, delivery_gate db run_id pin checks = .ok () → NoneOpen db run_id) ↔
    NoneOpen db run_id ∨ Covered db run_id := by
  constructor
  · rintro ⟨hgate, -⟩
    rcases Bool.eq_false_or_eq_true (run_compile_gate db run_id).compile_blocked with hblocked | hpasses
    · exact .inr (compile_blocked_iff_covered.mp hblocked)
    · exact .inl (hgate hpasses)
  · rintro (hnone | hcovered)
    · exact ⟨fun _ => hnone, fun _ _ _ => hnone⟩
    · have hblocked := compile_blocked_iff_covered.mpr hcovered
      refine ⟨fun hpasses => ?_, fun pin checks hdelivery => ?_⟩
      · rw [hblocked] at hpasses
        cases hpasses
      · have hpasses := not_blocked_of_delivery hdelivery
        rw [hblocked] at hpasses
        cases hpasses

/-! ### A project with many remediations -/

/-- The first remediation of a project is one of the run `a`, all later ones are of the run `b`. -/
def crowdedRow (i : ℕ) : Remediation where
  remediation_id := String.ofList (List.replicate i 'x')
  tenant_id := "t"
  project_id := "p"
  run_id := if i = 0 then "a" else "b"
  approval_id := none
  artifact_id := "artifact"
  artifact_version_ref := "artifact:v1"
  changed_artifact_id := "brief"
  changed_version_ref := "brief:v2"
  reason := "PROTECTED_ARTIFACT_VERSION_CHANGED"
  payload := []
  status := if i = 0 then .OPEN else .RESOLVED
  created_at := i

/-- 200 of them are newer than the first. -/
def crowded : Database where
  runs := Table.empty.put ⟨"a", "t", "p"⟩
  approvals := .empty
  obligations := .empty
  remediations :=
    { rows := (List.range 201).map crowdedRow
      nodup := by
        rw [List.map_map]
        apply List.Nodup.map _ List.nodup_range
        intro i j h
        have hlists : List.replicate i 'x' = List.replicate j 'x' := String.ofList_injective h
        simpa using congrArg List.length hlists }

/-- The run `a` passes both gates, with its remediation open. -/
theorem crowded_passes : (run_compile_gate crowded "a").compile_blocked = false ∧
    delivery_gate crowded "a" ⟨false, false⟩ ⟨[], fun _ => some [], true⟩ = .ok () ∧ ¬ NoneOpen crowded "a" := by
  have hpasses : (run_compile_gate crowded "a").compile_blocked = false := by decide +kernel
  refine ⟨hpasses, delivery_of_not_blocked hpasses, fun hnone => ?_⟩
  have hfirst : crowdedRow 0 ∈ crowded.remediations :=
    List.mem_map.mpr ⟨0, List.mem_range.mpr (by omega), rfl⟩
  exact hnone _ hfirst ⟨rfl, rfl⟩

end Obligations
