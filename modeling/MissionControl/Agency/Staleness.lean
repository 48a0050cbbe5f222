import MissionControl.Agency.Exactness
import MissionControl.Approvals.Records
import MissionControl.Obligations.Invalidation

/-! # What a revision stales

After a revision was propagated, each impacted artifact is looked at on its own: an approval with that subject
is staled, and a remediation is queued. Which approval it is the loop looks up in a dictionary of the listed
approvals by subject, which keeps one of each.

* **The loop is what the kernel takes for one call** (`record_artifact_revision_refines`).
* **What it stales** is one approval for each impacted artifact that a run protects (`revision_stales_iff`). -/

namespace Agency.Staling

open Interleaving
open Approvals (Approval Rows)
open Relational (recent)
open Obligations (Queue)

/-! ## Calls -/

/-- The keys of an artifact's metadata that name what protects it. -/
structure Protected where
  protected_run_id : Option String := none
  protected_approval_id : Option String := none

/-- The kernel's tables, with the metadata of the artifacts and the two tables the loop writes. -/
structure RevisionState where
  kernel : KernelState
  metadata : String → Protected
  approvals : Rows
  remediations : Queue

inductive RevisionCall where
  | kernel (c : Call)
  | list_approvals_for_subject_refs (project_id : String) (subject_refs : List String)
  /-- `get_artifact`, with the metadata. -/
  | get_protected (artifact_id : String)
  | mark_approval_stale (approval_id reason : String)
  | create_lineage_remediation (wanted : Obligations.Wanted)

abbrev RevisionCall.Resp : RevisionCall → Type
  | kernel c => c.Resp
  | list_approvals_for_subject_refs .. => List Approval
  | get_protected _ => Option (Artifact × Protected)
  | mark_approval_stale .. => Unit
  | create_lineage_remediation _ => Unit

abbrev RevisionCalls : Interface := ⟨RevisionCall, RevisionCall.Resp, KernelError⟩

/-- What the outside decides about a call: the clock, whether it raises, and a new identifier. -/
structure RevisionOutcome where
  now : Instant
  fault : Bool
  fresh : String

/-- `SELECT … WHERE project_id = ? AND subject_ref IN (…) AND status <> 'stale' ORDER BY created_at DESC`, for the
    references that are not empty. -/
def list_approvals_for_subject_refs (rows : Rows) (project_id : String) (subject_refs : List String) : List Approval :=
  let refs := subject_refs.filter (· ≠ "")
  recent Approval.created_at
    (rows.rows.filter fun a => a.project_id = project_id ∧ a.subject_ref ∈ refs ∧ a.status ≠ .stale)

def markStale (rows : Rows) (approval_id reason : String) (now : Instant) : Rows :=
  rows.update approval_id (·.markStale reason now) (by simp)

def RevisionCall.run (o : RevisionOutcome) (w : RevisionState) :
    (c : RevisionCall) → Except KernelError (c.Resp × RevisionState)
  | .kernel c => (c.run o.now w.kernel).map fun x => (x.1, { w with kernel := x.2 })
  | .list_approvals_for_subject_refs project_id subject_refs =>
    .ok (Staling.list_approvals_for_subject_refs w.approvals project_id subject_refs, w)
  | .get_protected artifact_id => .ok ((w.kernel.artifacts.find? artifact_id).map (·, w.metadata artifact_id), w)
  | .mark_approval_stale approval_id reason =>
    .ok ((), { w with approvals := markStale w.approvals approval_id reason o.now })
  | .create_lineage_remediation wanted =>
    match Obligations.create_lineage_remediation w.remediations wanted o.fresh o.now with
    | some x => .ok ((), { w with remediations := x.2 })
    | none => .error .fault

def revisionExec : Exec RevisionCalls RevisionState RevisionOutcome := fun c o w =>
  if o.fault then .error .fault else c.run o w

abbrev RevisionProgram (α : Type) : Type := Program RevisionCalls α

abbrev perform (c : RevisionCall) : RevisionProgram c.Resp := Program.perform (I := RevisionCalls) c

/-- A program of the kernel, carried out call by call. -/
abbrev lift {α : Type} (p : Kernel α) : RevisionProgram α := p.handle fun c => perform (.kernel c)

/-! ## The loop -/

/-- A text that is there and not empty. -/
def given (text : Option String) : Option String := text.filter (· ≠ "")

/-- `{approval["subject_ref"]: approval for approval in approvals}.get(subject_ref)`: of several with one subject
    the last stays. -/
def approvals_by_subject (approvals : List Approval) (subject_ref : String) : Option Approval :=
  (approvals.filter (·.subject_ref = subject_ref)).getLast?

/-- `metadata.get("protected_run_id") or (approval or {}).get("run_id")` -/
def protectedRun (metadata : Protected) (approval : Option Approval) : Option String :=
  (given metadata.protected_run_id).or (approval.map Approval.run_id)

/-- `metadata.get("protected_approval_id") or (approval or {}).get("approval_id")` -/
def protectedApproval (metadata : Protected) (approval : Option Approval) : Option String :=
  (given metadata.protected_approval_id).or (approval.map Approval.approval_id)

def ArtifactStatus.value : ArtifactStatus → String
  | .draft => "draft"
  | .validating => "validating"
  | .approved => "approved"
  | .release_eligible => "release_eligible"
  | .released => "released"
  | .review_required => "review_required"
  | .invalidated => "invalidated"
  | .archived => "archived"

/-- `if approval_id: mark_approval_stale(approval_id, reason)` -/
def staleIfGiven (approval_id : Option String) (reason : String) : RevisionProgram Unit :=
  match given approval_id with
  | some approval_id => perform (.mark_approval_stale approval_id reason)
  | none => pure ()

/-- One round of the loop. -/
def settle (approvals : List Approval) (updated : Artifact) (artifact_id changed_version_ref impacted_id : String) :
    RevisionProgram Unit := do
  match ← perform (.get_protected impacted_id) with
  | none => pure ()
  | some (impacted, metadata) =>
    let approval := approvals_by_subject approvals impacted_id
    let approval_id := protectedApproval metadata approval
    match given (protectedRun metadata approval) with
    | none => pure ()
    | some run_id => do
      staleIfGiven approval_id s!"artifact_version_changed:{changed_version_ref}"
      perform (.create_lineage_remediation
        { tenant_id := updated.tenant_id
          project_id := updated.project_id
          run_id
          approval_id
          artifact_id := impacted_id
          artifact_version_ref := s!"{impacted_id}:v{impacted.version}"
          changed_artifact_id := artifact_id
          changed_version_ref
          reason := "PROTECTED_ARTIFACT_VERSION_CHANGED"
          payload :=
            [("changed_artifact_id", artifact_id), ("changed_version_ref", changed_version_ref),
              ("affected_artifact_id", impacted_id), ("affected_artifact_status", ArtifactStatus.value impacted.status)] })

def settleEach (approvals : List Approval) (updated : Artifact) (artifact_id changed_version_ref : String) :
    List String → RevisionProgram Unit
  | [] => pure ()
  | impacted_id :: impacted_ids => do
    settle approvals updated artifact_id changed_version_ref impacted_id
    settleEach approvals updated artifact_id changed_version_ref impacted_ids

/-- The impacted artifacts are settled. -/
def settleImpacted (updated : Artifact) (artifact_id changed_version_ref : String) (impacted_ids : List String) :
    RevisionProgram Unit := do
  let approvals ← perform (.list_approvals_for_subject_refs updated.project_id impacted_ids)
  settleEach approvals updated artifact_id changed_version_ref impacted_ids

variable (hash_payload : List (String × ArtifactStatus) → String)

def record_artifact_revision (fuel : ℕ) (r : Revision) :
    RevisionProgram (Artifact × List (String × ArtifactStatus)) := do
  match ← perform (.kernel (.get_artifact r.artifact_id)) with
  | none => throw (.value "Artifact not found")
  | some source =>
    let base_version := r.expected_version.getD source.version
    if base_version ≠ source.version then
      throw (.stale
        s!"artifact {r.artifact_id} is at v{source.version}, edit was based on v{base_version}")
    else do
      let now ← perform (.kernel .now)
      perform (.kernel (.revise r.artifact_id source.version r.content_hash r.semantic_fingerprint
        r.content_location now))
      match ← perform (.kernel (.get_artifact r.artifact_id)) with
      | none => throw (.runtime "Artifact revision succeeded but record could not be read back")
      | some updated => do
        let affected ← lift (propagate_artifact_change hash_payload fuel r.artifact_id)
        settleImpacted updated r.artifact_id s!"{r.artifact_id}:v{source.version + 1}"
          (r.artifact_id :: affected.map Prod.fst)
        perform (.kernel (.record_trust_policy
          s!"policy-artifact-revision-{r.artifact_id}-v{source.version + 1}"))
        pure (updated, affected)

/-! ## The loop as one call -/

variable {hash_payload} {w w' : RevisionState} {o : RevisionOutcome} {α β : Type}
  {l : List (OwnCall RevisionCalls RevisionState RevisionOutcome)}

/-- What the outside decides, as the kernel sees it. -/
def RevisionOutcome.kernel (o : RevisionOutcome) : Outcome := ⟨o.now, o.fault⟩

theorem revisionExec_kernel (c : Call) (o : RevisionOutcome) (w : RevisionState) : revisionExec (.kernel c) o w =
    (exec c o.kernel w.kernel).map fun x => (x.1, { w with kernel := x.2 }) := by
  unfold revisionExec exec RevisionOutcome.kernel
  dsimp only
  split <;> rfl

theorem kernel_refines (c : Call) :
    Refines exec revisionExec RevisionState.kernel (perform (.kernel c)) (.perform (I := KernelCalls) c) := by
  apply Refines.perform
  intro w l r w' run
  obtain ⟨o, -, rfl, rfl⟩ := run.of_perform
  refine ⟨o.kernel, ?_⟩
  have hrun := revisionExec_kernel c o w
  unfold Exec.answer Exec.after
  rw [hrun]
  cases exec c o.kernel w.kernel <;> exact ⟨rfl, rfl⟩

theorem lift_refines (p : Kernel α) (hp : p.Only fun _ => True) :
    Refines exec revisionExec RevisionState.kernel (lift p) p :=
  Refines.handle (fun c _ => kernel_refines c) hp

/-- The program leaves the kernel's tables, and fails only where a call does. -/
def Aside (p : RevisionProgram α) : Prop :=
  ∀ ⦃w l r w'⦄, Solo revisionExec p w l r w' → w'.kernel = w.kernel ∧ ∀ e, r = .error e → e = .fault

theorem Aside.ret (a : α) : Aside (.ret a) := by
  intro w l r w' h
  obtain ⟨-, rfl, rfl⟩ := h.of_ret
  exact ⟨rfl, fun e he => by cases he⟩

theorem Aside.bind {p : RevisionProgram α} {f : α → RevisionProgram β} (hp : Aside p) (hf : ∀ a, Aside (f a)) :
    Aside (p.bind f) := by
  intro w l r w' h
  rcases h.of_bind with ⟨e, hfirst, rfl⟩ | ⟨a, w₁, l₁, l₂, -, hfirst, hrest⟩
  · obtain ⟨hkernel, herr⟩ := hp hfirst
    exact ⟨hkernel, fun e' he => herr e' (by injection he with he; rw [he])⟩
  · obtain ⟨hkernel, herr⟩ := hf a hrest
    exact ⟨hkernel.trans (hp hfirst).1, herr⟩

variable {c : RevisionCall}

theorem revisionExec_aside (hc : ∀ k, c ≠ .kernel k) (o : RevisionOutcome) (w : RevisionState) :
    (∃ a w', revisionExec c o w = .ok (a, w') ∧ w'.kernel = w.kernel) ∨ revisionExec c o w = .error .fault := by
  unfold revisionExec
  split
  · exact .inr rfl
  · cases c with
    | kernel k => exact absurd rfl (hc k)
    | create_lineage_remediation wanted =>
      simp only [RevisionCall.run]
      split
      · exact .inl ⟨_, _, rfl, rfl⟩
      · exact .inr rfl
    | _ => exact .inl ⟨_, _, rfl, rfl⟩

theorem aside_perform (hc : ∀ k, c ≠ .kernel k) : Aside (perform c) := by
  intro w l r w' h
  obtain ⟨o, -, rfl, rfl⟩ := h.of_perform
  unfold Exec.answer Exec.after
  rcases revisionExec_aside hc o w with ⟨a, w', hexec, hkernel⟩ | hexec
  · rw [hexec]
    exact ⟨hkernel, fun e he => by cases he⟩
  · rw [hexec]
    exact ⟨rfl, fun e he => by cases he; rfl⟩

theorem aside_staleIfGiven (approval_id : Option String) (reason : String) :
    Aside (staleIfGiven approval_id reason) := by
  unfold staleIfGiven
  split
  · exact aside_perform (by simp)
  · exact Aside.ret ()

theorem aside_settle (approvals : List Approval) (updated : Artifact)
    (artifact_id changed_version_ref impacted_id : String) :
    Aside (settle approvals updated artifact_id changed_version_ref impacted_id) := by
  refine (aside_perform (by simp)).bind fun impacted => ?_
  cases impacted with
  | none => exact Aside.ret ()
  | some impacted =>
    dsimp only
    split
    · exact Aside.ret ()
    · exact (aside_staleIfGiven ..).bind fun _ => aside_perform (by simp)

theorem aside_settleEach (approvals : List Approval) (updated : Artifact) (artifact_id changed_version_ref : String)
    (impacted_ids : List String) : Aside (settleEach approvals updated artifact_id changed_version_ref impacted_ids) := by
  induction impacted_ids with
  | nil => exact Aside.ret ()
  | cons impacted_id impacted_ids ih => exact (aside_settle ..).bind fun _ => ih

/-- **What the kernel takes for one call** the loop does: it leaves the kernel's tables. -/
theorem settleImpacted_refines (updated : Artifact) (artifact_id changed_version_ref : String)
    (impacted_ids : List String) : Refines exec revisionExec RevisionState.kernel
      (settleImpacted updated artifact_id changed_version_ref impacted_ids)
      (ask (.settle_impacted impacted_ids changed_version_ref)) := by
  refine Refines.perform (I := KernelCalls) (c := .settle_impacted impacted_ids changed_version_ref) fun w l r w' h => ?_
  have haside : Aside (settleImpacted updated artifact_id changed_version_ref impacted_ids) :=
    (aside_perform (by simp)).bind fun _ => aside_settleEach ..
  obtain ⟨hkernel, herr⟩ := haside h
  rw [hkernel]
  cases r with
  | ok x => exact ⟨⟨0, false⟩, rfl, rfl⟩
  | error e =>
    rw [herr e rfl]
    exact ⟨⟨0, true⟩, rfl, rfl⟩

theorem only_propagateAll (fuel : ℕ) (artifact_id : String) :
    (propagate_artifact_change hash_payload fuel artifact_id).Only fun _ => True :=
  (only_propagate fuel artifact_id).mono fun _ _ => trivial

/-- **A revision with its loop** does to the kernel's tables what the kernel's revision does. -/
theorem record_artifact_revision_refines (fuel : ℕ) (rev : Revision) :
    Refines exec revisionExec RevisionState.kernel (record_artifact_revision hash_payload fuel rev)
      (Agency.record_artifact_revision hash_payload fuel rev) := by
  refine (kernel_refines _).bind fun source => ?_
  cases source with
  | none => exact Refines.raise _
  | some source =>
    dsimp only
    split
    · exact Refines.raise _
    refine (kernel_refines _).bind fun now => (kernel_refines _).bind fun _ => (kernel_refines _).bind fun updated => ?_
    cases updated with
    | none => exact Refines.raise _
    | some updated =>
      refine (lift_refines _ (only_propagateAll ..)).bind fun affected => ?_
      refine (settleImpacted_refines ..).bind fun _ => (kernel_refines _).bind fun _ => ?_
      exact Refines.ret _

/-! ## What a round stales -/

/-- The same approval, staled if it is one of these. -/
structure SameSubject (staled : List String) (a a' : Approval) : Prop where
  approval_id : a'.approval_id = a.approval_id
  project_id : a'.project_id = a.project_id
  subject_ref : a'.subject_ref = a.subject_ref
  stale : a'.status = .stale ↔ a.status = .stale ∨ a.approval_id ∈ staled

/-- The same approvals, of which these were staled. -/
def StaledBy (staled : List String) (rows rows' : Rows) : Prop :=
  ∀ approval_id, Option.Rel (SameSubject staled) (rows.find? approval_id) (rows'.find? approval_id)

theorem StaledBy.refl (rows : Rows) : StaledBy [] rows rows := by
  intro approval_id
  cases rows.find? approval_id with
  | none => exact .none
  | some a => exact .some ⟨rfl, rfl, rfl, by simp⟩

variable {rows : Rows}

theorem StaledBy.trans {staled staled' : List String} {rows₁ rows' : Rows} (h : StaledBy staled rows rows₁)
    (h' : StaledBy staled' rows₁ rows') : StaledBy (staled ++ staled') rows rows' := by
  intro approval_id
  have hfirst := h approval_id
  have hsecond := h' approval_id
  generalize rows.find? approval_id = a at hfirst ⊢
  generalize rows₁.find? approval_id = a₁ at hfirst hsecond
  generalize rows'.find? approval_id = a' at hsecond ⊢
  cases hfirst with
  | none =>
    cases hsecond
    exact .none
  | some hsame =>
    obtain ⟨hsame'⟩ := hsecond
    refine .some ⟨hsame'.approval_id.trans hsame.approval_id, hsame'.project_id.trans hsame.project_id,
      hsame'.subject_ref.trans hsame.subject_ref, ?_⟩
    rw [hsame'.stale, hsame.stale, hsame.approval_id, List.mem_append, or_assoc]

theorem staledBy_markStale (rows : Rows) (approval_id reason : String) (now : Instant) :
    StaledBy [approval_id] rows (markStale rows approval_id reason now) := by
  intro approval_id'
  unfold markStale
  rw [Relational.Table.find?_update]
  cases hfind : rows.find? approval_id' with
  | none =>
    split
    · rename_i heq
      rw [← heq]
      exact .none
    · exact .none
  | some a =>
    have hkey : a.approval_id = approval_id' := Relational.Table.key_of_find? hfind
    split
    · rename_i heq
      rw [← heq, Option.map_some]
      refine .some ?_
      unfold Approval.markStale
      split
      · rename_i hstale
        exact ⟨rfl, rfl, rfl, by simp [hstale]⟩
      · exact ⟨rfl, rfl, rfl, by simp [hkey]⟩
    · rename_i hne
      exact .some ⟨rfl, rfl, rfl, by simp [hkey, hne]⟩

/-- **The approval a round stales**, in the state it is made in. -/
def stales (s : KernelState) (metadata : String → Protected) (approvals : List Approval) (impacted_id : String) :
    Option String :=
  let approval := approvals_by_subject approvals impacted_id
  if (s.artifacts.find? impacted_id).isSome ∧ (given (protectedRun (metadata impacted_id) approval)).isSome then
    given (protectedApproval (metadata impacted_id) approval)
  else
    none

theorem solo_step {f : c.Resp → RevisionProgram α} {a : α}
    (h : Solo revisionExec ((perform c).bind f) w l (.ok a) w') :
    ∃ o x w₁ l', c.run o w = .ok (x, w₁) ∧ Solo revisionExec (f x) w₁ l' (.ok a) w' := by
  obtain ⟨o, l', -, ⟨x, w₁, hexec, hrest⟩ | ⟨e, -, -, hr, -⟩⟩ := h.of_ask
  · unfold revisionExec at hexec
    split at hexec
    · cases hexec
    · exact ⟨o, x, w₁, l', hexec, hrest⟩
  · cases hr

theorem solo_last {x : c.Resp} (h : Solo revisionExec (perform c) w l (.ok x) w') :
    ∃ o, c.run o w = .ok (x, w') := by
  obtain ⟨o, -, hanswer, rfl⟩ := h.of_perform
  have hexec := Exec.of_answer hanswer.symm
  by_cases hfault : o.fault = true
  · have herr : revisionExec c o w = .error .fault := if_pos hfault
    rw [herr] at hexec
    cases hexec
  · have hrun : revisionExec c o w = c.run o w := if_neg hfault
    exact ⟨o, hrun.symm.trans hexec⟩

theorem only_any (p : RevisionProgram α) : p.Only fun _ => True := by
  induction p with
  | ret a => trivial
  | raise e => trivial
  | call c next ih => exact ⟨trivial, ih⟩

theorem revisionExec_after (c : RevisionCall) (o : RevisionOutcome) (w : RevisionState) :
    (revisionExec.after c o w).metadata = w.metadata ∧
      ((∃ k, c = .kernel k) → (revisionExec.after c o w).approvals = w.approvals) := by
  cases hexec : revisionExec c o w with
  | error e =>
    rw [Exec.after_of_error hexec]
    exact ⟨rfl, fun _ => rfl⟩
  | ok x =>
    obtain ⟨a, w'⟩ := x
    rw [Exec.after_of_ok hexec]
    unfold revisionExec at hexec
    split at hexec
    · cases hexec
    · cases c with
      | kernel k =>
        simp only [RevisionCall.run] at hexec
        cases hrun : k.run o.now w.kernel with
        | error e =>
          rw [hrun] at hexec
          cases hexec
        | ok x =>
          rw [hrun] at hexec
          cases hexec
          exact ⟨rfl, fun _ => rfl⟩
      | create_lineage_remediation wanted =>
        simp only [RevisionCall.run] at hexec
        split at hexec
        · cases hexec
          exact ⟨rfl, fun _ => rfl⟩
        · cases hexec
      | _ =>
        cases hexec
        exact ⟨rfl, by simp⟩

theorem metadata_of_solo {p : RevisionProgram α} {r : Except KernelError α} (h : Solo revisionExec p w l r w') :
    w'.metadata = w.metadata :=
  h.invariant (P := fun w' => w'.metadata = w.metadata)
    (fun c o w₁ _ hw₁ => (revisionExec_after c o w₁).1.trans hw₁) (only_any p) rfl

theorem staleIfGiven_spec {approval_id : Option String} {reason : String}
    (h : Solo revisionExec (staleIfGiven approval_id reason) w l (.ok ()) w') :
    StaledBy (given approval_id).toList w.approvals w'.approvals := by
  unfold staleIfGiven at h
  split at h
  · rename_i approval_id hgiven
    obtain ⟨o, hrun⟩ := solo_last h
    cases hrun
    rw [hgiven]
    exact staledBy_markStale _ _ _ _
  · rename_i hgiven
    obtain ⟨-, -, rfl⟩ := h.of_ret
    rw [hgiven]
    exact StaledBy.refl _

variable {artifact_id : String}

variable {approvals : List Approval} {changed_version_ref : String}

theorem settle_spec {updated : Artifact} {x : String}
    (h : Solo revisionExec (settle approvals updated artifact_id changed_version_ref x) w l (.ok ()) w') :
    StaledBy (stales w.kernel w.metadata approvals x).toList w.approvals w'.approvals := by
  unfold settle at h
  obtain ⟨o, found, w₁, l', hrun, hrest⟩ := solo_step h
  cases hrun
  unfold stales
  dsimp only
  cases hfind : w.kernel.artifacts.find? x with
  | none =>
    rw [hfind] at hrest
    obtain ⟨-, -, rfl⟩ := hrest.of_ret
    exact StaledBy.refl _
  | some impacted =>
    rw [hfind] at hrest
    dsimp only [Option.map_some] at hrest
    split at hrest
    · rename_i hrun
      obtain ⟨-, -, rfl⟩ := hrest.of_ret
      rw [if_neg (by rw [hrun]; simp)]
      exact StaledBy.refl _
    · rename_i run_id hrun
      rcases hrest.of_bind with ⟨e, -, he⟩ | ⟨_, w₂, l₁, l₂, -, hstale, hcreate⟩
      · cases he
      rw [if_pos (by rw [hrun]; simp)]
      obtain ⟨o, hcreated⟩ := solo_last hcreate
      simp only [RevisionCall.run] at hcreated
      split at hcreated
      · cases hcreated
        have hstaled : StaledBy _ w.approvals w₂.approvals := staleIfGiven_spec hstale
        exact hstaled
      · cases hcreated

theorem settleEach_spec {updated : Artifact} {impacted_ids : List String}
    (h : Solo revisionExec (settleEach approvals updated artifact_id changed_version_ref impacted_ids) w l (.ok ()) w') :
    StaledBy (impacted_ids.filterMap (stales w.kernel w.metadata approvals)) w.approvals w'.approvals := by
  induction impacted_ids generalizing w l with
  | nil =>
    obtain ⟨-, -, rfl⟩ := h.of_ret
    exact StaledBy.refl _
  | cons x impacted_ids ih =>
    rcases h.of_bind with ⟨e, -, he⟩ | ⟨_, w₁, l₁, l₂, -, hfirst, hrest⟩
    · cases he
    have hlater := ih hrest
    rw [(aside_settle _ _ _ _ _ hfirst).1, metadata_of_solo hfirst] at hlater
    have hall := (settle_spec hfirst).trans hlater
    have hids : (x :: impacted_ids).filterMap (stales w.kernel w.metadata approvals) =
        (stales w.kernel w.metadata approvals x).toList ++
          impacted_ids.filterMap (stales w.kernel w.metadata approvals) := by
      rw [List.filterMap_cons]
      cases stales w.kernel w.metadata approvals x <;> rfl
    rw [hids]
    exact hall

/-! ## What a revision stales -/

variable {fuel : ℕ} {rev : Revision} {updated source : Artifact} {affected : List (String × ArtifactStatus)}

variable {s : KernelState}

theorem isSome_find?_update {d : String} {f : Artifact → Artifact} {hf : ∀ a, (f a).artifact_id = a.artifact_id}
    (d' : String) : ((s.artifacts.update d f hf).find? d').isSome = (s.artifacts.find? d').isSome := by
  rw [Relational.Table.find?_update]
  split
  · rename_i heq
    rw [Option.isSome_map, heq]
  · rfl

theorem isSome_find?_setStatuses (affected : List (String × ArtifactStatus)) (now : Instant) (engagement_id : String)
    (s : KernelState) (d : String) :
    ((affected.foldl (KernelState.setStatus · now engagement_id) s).artifacts.find? d).isSome =
      (s.artifacts.find? d).isSome := by
  induction affected generalizing s with
  | nil => rfl
  | cons x affected ih =>
    rw [List.foldl_cons, ih]
    unfold KernelState.setStatus
    rw [isSome_find?_update]

theorem isSome_find?_after (c : Call) (o : Outcome) (s : KernelState) (d : String) :
    ((exec.after c o s).artifacts.find? d).isSome = (s.artifacts.find? d).isSome := by
  cases hexec : exec c o s with
  | error e => rw [Exec.after_of_error hexec]
  | ok x =>
    obtain ⟨a, s'⟩ := x
    rw [Exec.after_of_ok hexec]
    unfold exec at hexec
    split at hexec
    · cases hexec
    · cases c with
      | insert_dependency dep =>
        simp only [Call.run] at hexec
        cases hinsert : s.insertDependency dep with
        | error e =>
          rw [hinsert] at hexec
          cases hexec
        | ok s₁ =>
          rw [hinsert] at hexec
          cases hexec
          rw [(mem_insertDependency hinsert).1]
      | set_statuses affected now engagement_id =>
        cases hexec
        exact isSome_find?_setStatuses affected now engagement_id s d
      | revise =>
        simp only [Call.run, KernelState.revise] at hexec
        split at hexec
        · split at hexec
          · cases hexec
            dsimp only
            rw [isSome_find?_update]
          · cases hexec
        · cases hexec
      | _ =>
        cases hexec
        rfl

variable {s' : KernelState}

variable {now : Instant}

theorem isSome_find?_of_run {c : Call} {x : c.Resp} (h : c.run now s = .ok (x, s')) (d : String) :
    (s'.artifacts.find? d).isSome = (s.artifacts.find? d).isSome := by
  have hexec : exec c ⟨now, false⟩ s = .ok (x, s') := h
  have hafter := isSome_find?_after c ⟨now, false⟩ s d
  rw [Exec.after_of_ok hexec] at hafter
  exact hafter

theorem reaches_congr (h : s'.dependencies = s.dependencies) : Reaches s' = Reaches s := by
  have hdepends : DependsOn s' = DependsOn s := by
    funext u d
    unfold DependsOn
    rw [h]
  unfold Reaches
  rw [hdepends]

/-- The artifact is the one that is revised, or depends on it. -/
def Impacted (s : KernelState) (artifact_id d : String) : Prop := d = artifact_id ∨ Reaches s artifact_id d

/-- **The approval that governs an artifact**: of those with this subject that are not stale, the one listed last,
    which is an oldest one. -/
def governing (rows : Rows) (project_id subject_ref : String) : Option Approval :=
  (recent Approval.created_at (rows.rows.filter fun a =>
    a.project_id = project_id ∧ a.subject_ref = subject_ref ∧ a.subject_ref ≠ "" ∧ a.status ≠ .stale)).getLast?

theorem approvals_by_subject_list {project_id x : String} {ids : List String} (hx : x ∈ ids) :
    approvals_by_subject (list_approvals_for_subject_refs rows project_id ids) x = governing rows project_id x := by
  unfold approvals_by_subject list_approvals_for_subject_refs governing
  dsimp only
  rw [← Relational.recent_filter, List.filter_filter]
  congr 2
  refine List.filter_congr fun a _ => ?_
  rw [← Bool.decide_and, decide_eq_decide, List.mem_filter, decide_eq_true_eq]
  constructor
  · rintro ⟨hsubject, hproject, ⟨-, hgiven⟩, hstale⟩
    exact ⟨hproject, hsubject, hgiven, hstale⟩
  · rintro ⟨hproject, hsubject, hgiven, hstale⟩
    exact ⟨hsubject, hproject, ⟨hsubject ▸ hx, hgiven⟩, hstale⟩

/-- **The approval that is staled for an artifact**, if it exists and a run protects it: the one its metadata names,
    else the one that governs it. -/
def stalesFor (w : RevisionState) (project_id x : String) : Option String :=
  let approval := governing w.approvals project_id x
  if (w.kernel.artifacts.find? x).isSome ∧ (given (protectedRun (w.metadata x) approval)).isSome then
    given (protectedApproval (w.metadata x) approval)
  else
    none

theorem of_revise {a : Artifact} {base_version : ℕ}
    {content_hash semantic_fingerprint content_location : Option String} {now' : Instant} {x : Unit}
    (ha : s.artifacts.find? artifact_id = some a)
    (h : (Call.revise artifact_id base_version content_hash semantic_fingerprint content_location now).run now' s =
      .ok (x, s')) : s'.dependencies = s.dependencies ∧
      ∀ a', s'.artifacts.find? artifact_id = some a' → a'.project_id = a.project_id := by
  simp only [Call.run, KernelState.revise, ha] at h
  split at h
  · cases h
    refine ⟨rfl, fun a' ha' => ?_⟩
    rw [Relational.Table.find?_update, if_pos rfl, ha] at ha'
    cases ha'
    rfl
  · cases h

theorem of_kernel {c : Call} {x : c.Resp} {w₁ : RevisionState} (h : (RevisionCall.kernel c).run o w = .ok (x, w₁)) :
    ∃ s₁, c.run o.now w.kernel = .ok (x, s₁) ∧ w₁ = { w with kernel := s₁ } := by
  simp only [RevisionCall.run] at h
  cases hrun : c.run o.now w.kernel with
  | error e =>
    rw [hrun] at h
    cases h
  | ok y =>
    rw [hrun] at h
    cases h
    exact ⟨y.2, rfl, rfl⟩

theorem lift_spec (h : Solo revisionExec (lift (propagate_artifact_change hash_payload fuel rev.artifact_id)) w l
      (.ok affected) w') : w'.approvals = w.approvals ∧ w'.metadata = w.metadata ∧
      (∀ d, (w'.kernel.artifacts.find? d).isSome = (w.kernel.artifacts.find? d).isSome) ∧
        ∀ d, d ∈ affected.map Prod.fst ↔ Reaches w.kernel rev.artifact_id d := by
  obtain ⟨l', hkernel⟩ := lift_refines _ (only_propagateAll fuel rev.artifact_id) h
  have hcalls : (lift (propagate_artifact_change hash_payload fuel rev.artifact_id)).Only
      fun c => ∃ k, c = RevisionCall.kernel k :=
    (only_propagateAll fuel rev.artifact_id).handle fun c _ => Program.only_perform ⟨c, rfl⟩
  refine ⟨?_, metadata_of_solo h, fun d => ?_, mem_affected_iff hkernel⟩
  · exact h.invariant (P := fun w' => w'.approvals = w.approvals)
      (fun c o w₁ hc hw₁ => ((revisionExec_after c o w₁).2 hc).trans hw₁) hcalls rfl
  · exact hkernel.alone.invariant
      (P := fun s => (s.artifacts.find? d).isSome = (w.kernel.artifacts.find? d).isSome)
      (fun c o s hs => (isSome_find?_after c o s d).trans hs) rfl

/-- What a revision that returns has staled. -/
theorem revision_spec (hsource : w.kernel.artifacts.find? rev.artifact_id = some source)
    (h : Solo revisionExec (record_artifact_revision hash_payload fuel rev) w l (.ok (updated, affected)) w') :
    updated.project_id = source.project_id ∧
      (∀ d, d ∈ rev.artifact_id :: affected.map Prod.fst ↔ Impacted w.kernel rev.artifact_id d) ∧
      StaledBy ((rev.artifact_id :: affected.map Prod.fst).filterMap (stalesFor w source.project_id))
        w.approvals w'.approvals := by
  obtain ⟨o, found, w₁, l₁, hrun, hfound⟩ := solo_step h
  obtain ⟨s₁, hread, rfl⟩ := of_kernel hrun
  cases hread
  rw [hsource] at hfound
  dsimp only at hfound
  split at hfound
  · cases hfound.of_raise.2.1
  obtain ⟨o, now, w₂, l₂, hrun, hrevise⟩ := solo_step hfound
  obtain ⟨s₂, hread, rfl⟩ := of_kernel hrun
  cases hread
  obtain ⟨o', x, w₃, l₃, hrun, hreread⟩ := solo_step hrevise
  obtain ⟨s₃, hrevised, rfl⟩ := of_kernel hrun
  obtain ⟨o'', found, w₄, l₄, hrun, hupdated⟩ := solo_step hreread
  obtain ⟨s₄, hread, rfl⟩ := of_kernel hrun
  cases hread
  obtain ⟨hdependencies, hproject⟩ := of_revise hsource hrevised
  cases hfound : s₃.artifacts.find? rev.artifact_id with
  | none =>
    rw [hfound] at hupdated
    cases hupdated.of_raise.2.1
  | some updated' =>
    rw [hfound] at hupdated
    rcases hupdated.of_bind with ⟨e, -, he⟩ | ⟨affected', w₅, l₅, l₆, -, hpropagate, hrest⟩
    · cases he
    obtain ⟨happrovals, hmetadata, hsome, hmem⟩ := lift_spec hpropagate
    rw [reaches_congr hdependencies] at hmem
    rcases hrest.of_bind with ⟨e, -, he⟩ | ⟨_, w₆, l₇, l₈, -, hsettle, hrecord⟩
    · cases he
    obtain ⟨o₁, x, w₇, l₉, hrun, hret⟩ := solo_step hrecord
    obtain ⟨s₇, -, rfl⟩ := of_kernel hrun
    obtain ⟨-, hr, rfl⟩ := hret.of_ret
    cases hr
    obtain ⟨o₂, approvals, w₈, l₁₀, hrun, heach⟩ := solo_step hsettle
    cases hrun
    have hupdatedProject : updated.project_id = source.project_id := hproject updated hfound
    refine ⟨hupdatedProject, fun d => ?_, ?_⟩
    · rw [List.mem_cons, hmem]
      rfl
    · have hstaled := settleEach_spec heach
      rw [happrovals, hmetadata, hupdatedProject] at hstaled
      have hsame : ∀ x ∈ rev.artifact_id :: affected.map Prod.fst,
          stales w₅.kernel w.metadata (list_approvals_for_subject_refs w.approvals source.project_id
            (rev.artifact_id :: affected.map Prod.fst)) x = stalesFor w source.project_id x := by
        intro x hx
        unfold stales stalesFor
        rw [approvals_by_subject_list hx, hsome x, isSome_find?_of_run hrevised x]
      rw [← List.filterMap_congr hsame]
      exact hstaled

/-- **What a revision leaves unstaled.** It stales every approval of the project with an impacted subject exactly if
    each of them is the one that is staled for some impacted artifact. -/
theorem revision_stales_iff (hsource : w.kernel.artifacts.find? rev.artifact_id = some source)
    (h : Solo revisionExec (record_artifact_revision hash_payload fuel rev) w l (.ok (updated, affected)) w') :
    (∀ a ∈ w'.approvals, a.project_id = updated.project_id → a.subject_ref ∈ rev.artifact_id :: affected.map Prod.fst →
      a.status = .stale) ↔
    ∀ a ∈ w.approvals, a.project_id = source.project_id → a.status ≠ .stale →
      Impacted w.kernel rev.artifact_id a.subject_ref →
        ∃ x, Impacted w.kernel rev.artifact_id x ∧ stalesFor w source.project_id x = some a.approval_id := by
  obtain ⟨hproject, himpacted, hstaled⟩ := revision_spec hsource h
  rw [hproject]
  constructor
  · intro hall a ha haproject hlive hsubject
    have hrel := hstaled a.approval_id
    rw [Relational.Table.find?_key ha] at hrel
    cases hfind : w'.approvals.find? a.approval_id with
    | none =>
      rw [hfind] at hrel
      cases hrel
    | some a' =>
      rw [hfind] at hrel
      obtain ⟨hsame⟩ := hrel
      have hstale : a'.status = .stale := hall a' (Relational.Table.mem_of_find? hfind)
        (hsame.project_id.trans haproject) (by rw [hsame.subject_ref, himpacted]; exact hsubject)
      obtain ⟨x, hx, hpicked⟩ := List.mem_filterMap.mp ((hsame.stale.mp hstale).resolve_left hlive)
      exact ⟨x, (himpacted x).mp hx, hpicked⟩
  · intro hall a' ha' haproject hsubject
    have hrel := hstaled a'.approval_id
    rw [Relational.Table.find?_key ha'] at hrel
    cases hfind : w.approvals.find? a'.approval_id with
    | none =>
      rw [hfind] at hrel
      cases hrel
    | some a =>
      rw [hfind] at hrel
      obtain ⟨hsame⟩ := hrel
      rw [hsame.stale]
      by_cases hlive : a.status = .stale
      · exact .inl hlive
      · rw [hsame.subject_ref, himpacted] at hsubject
        obtain ⟨x, hx, hpicked⟩ := hall a (Relational.Table.mem_of_find? hfind) (hsame.project_id.symm.trans haproject)
          hlive hsubject
        exact .inr (List.mem_filterMap.mpr ⟨x, (himpacted x).mpr hx, hpicked⟩)

/-! ### Two approvals of one artifact -/

def approval (approval_id : String) (created_at : Instant) : Approval where
  approval_id
  run_id := "run"
  tenant_id := "t"
  project_id := "p"
  reason := "release"
  subject_ref := "left"
  subject_version_ref := "left:v1"
  created_at

/-- An artifact on which others depend, and its approvals. -/
def office (approvals : Rows) : RevisionState where
  kernel := cyclic
  metadata := fun _ => {}
  approvals
  remediations := .empty

def revision : Revision := ⟨"left", some "h", none, none, none⟩

/-- The revision, alone and undisturbed. -/
def revised (approvals : Rows) :=
  runAlone revisionExec ⟨7, false, "remediation"⟩ (record_artifact_revision (fun _ => "h") 10 revision) []
    (office approvals)

theorem revised_ok (approvals : Rows) (h : (revised approvals).1.isOk = true) :
    ∃ updated affected, (revised approvals).1 = .ok (updated, affected) := by
  cases hr : (revised approvals).1 with
  | error e =>
    rw [hr] at h
    cases h
  | ok x => exact ⟨x.1, x.2, rfl⟩

theorem revised_solo {approvals : Rows} {updated : Artifact} {affected : List (String × ArtifactStatus)}
    (h : (revised approvals).1 = .ok (updated, affected)) :
    ∃ l, Solo revisionExec (record_artifact_revision (fun _ => "h") 10 revision) (office approvals) l
      (.ok (updated, affected)) (revised approvals).2 := by
  rw [← h]
  exact ⟨_, solo_runAlone ..⟩

/-- With one approval, the artifact is revised, and the condition is exact. -/
theorem revision_stales_iff_one_approval : ∃ updated affected,
    (revised (Relational.Table.empty.put (approval "old" 1))).1 = .ok (updated, affected) ∧
    ((∀ a ∈ (revised (Relational.Table.empty.put (approval "old" 1))).2.approvals, a.project_id = updated.project_id →
      a.subject_ref ∈ "left" :: affected.map Prod.fst → a.status = .stale) ↔
    ∀ a ∈ (Relational.Table.empty.put (approval "old" 1) : Rows), a.project_id = "p" → a.status ≠ .stale →
      Impacted cyclic "left" a.subject_ref → ∃ x, Impacted cyclic "left" x ∧
        stalesFor (office (Relational.Table.empty.put (approval "old" 1))) "p" x = some a.approval_id) := by
  obtain ⟨updated, affected, hr⟩ := revised_ok (Relational.Table.empty.put (approval "old" 1)) (by decide +kernel)
  obtain ⟨l, hl⟩ := revised_solo hr
  have hsource : (office (Relational.Table.empty.put (approval "old" 1))).kernel.artifacts.find? revision.artifact_id =
      some (approved "left") := rfl
  exact ⟨updated, affected, hr, revision_stales_iff hsource hl⟩

/-- Of two approvals of the artifact, the newer one is not staled. -/
theorem newer_approval_stays : ∃ updated affected l,
    Solo revisionExec (record_artifact_revision (fun _ => "h") 10 revision)
      (office ((Relational.Table.empty.put (approval "old" 1)).put (approval "new" 2))) l (.ok (updated, affected))
      (revised ((Relational.Table.empty.put (approval "old" 1)).put (approval "new" 2))).2 ∧
    ∃ a ∈ (revised ((Relational.Table.empty.put (approval "old" 1)).put (approval "new" 2))).2.approvals,
      a.project_id = updated.project_id ∧ a.subject_ref ∈ "left" :: affected.map Prod.fst ∧ a.status ≠ .stale := by
  obtain ⟨updated, affected, hr⟩ :=
    revised_ok ((Relational.Table.empty.put (approval "old" 1)).put (approval "new" 2)) (by decide +kernel)
  obtain ⟨l, hl⟩ := revised_solo hr
  have hproject : (revised ((Relational.Table.empty.put (approval "old" 1)).put (approval "new" 2))).1.toOption.map
      (·.1.project_id) = some "p" := by decide +kernel
  have hnew : ((revised ((Relational.Table.empty.put (approval "old" 1)).put (approval "new" 2))).2.approvals.find?
      "new").map (fun a => (a.project_id, a.subject_ref, a.status)) = some ("p", "left", .pending) := by decide +kernel
  rw [hr] at hproject
  obtain ⟨a, ha, heq⟩ := Option.map_eq_some_iff.mp hnew
  injection heq with haproject hrest
  injection hrest with hsubject hstatus
  refine ⟨updated, affected, l, hl, a, Relational.Table.mem_of_find? ha, ?_, ?_, ?_⟩
  · exact haproject.trans (Option.some.inj hproject).symm
  · rw [hsubject]
    exact List.mem_cons_self
  · rw [hstatus]
    decide

end Agency.Staling
