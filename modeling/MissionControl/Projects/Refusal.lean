import MissionControl.Projects.Artifacts

/-! # A revision that is stale

A revision of an artifact is refused where its base is not the version the artifact has, by a read or by the
compare-and-set. Until then nothing has been written, and nothing after it is refused for that reason
(`revise_project_artifact_refuses`). A revision that returns has written the artifact (`revise_project_artifact_marks`). -/

namespace Projects

open Agency (ArtifactStatus KernelError Revision Severities)
open Agency.Staling (RevisionCall RevisionOutcome RevisionState revisionExec)
open Interleaving
open Interleaving.Program (Only Raises only_perform raises_perform)
open Relational (Table)

/-! ## The registry -/

/-- `StaleArtifactVersionError` -/
def KernelStale : KernelError → Prop
  | .stale _ => True
  | _ => False

/-- The compare-and-set. -/
def KernelRevises : Agency.Call → Prop
  | .revise .. => True
  | _ => False

/-- Only the compare-and-set answers that the version is stale. -/
def StaleByRevising (c : Agency.Call) (ans : Except KernelError c.Resp) : Prop :=
  ∀ e, ans = .error e → KernelStale e → KernelRevises c

/-- The same for the calls of the revision with its loop. -/
def StaleByRevision : (c : RevisionCall) → Except KernelError c.Resp → Prop
  | .kernel c, ans => StaleByRevising c ans
  | _, ans => ∀ e, ans = .error e → ¬ KernelStale e

variable {s : Agency.KernelState}

theorem error_insertDependency {d : Agency.Dependency} {e : KernelError} (h : s.insertDependency d = .error e) :
    e = .integrity := by
  unfold Agency.KernelState.insertDependency at h
  split at h
  · split at h
    · cases h
      rfl
    · cases h
  · cases h
    rfl

theorem staleByRevising_run (c : Agency.Call) (now : Agency.Instant) (s : Agency.KernelState) :
    StaleByRevising c ((c.run now s).map Prod.fst) := by
  intro e he hstale
  cases c with
  | revise => trivial
  | insert_dependency d =>
    cases hinsert : s.insertDependency d with
    | ok s' =>
      simp only [Agency.Call.run, hinsert] at he
      cases he
    | error e' =>
      obtain rfl := error_insertDependency hinsert
      simp only [Agency.Call.run, hinsert] at he
      cases he
      exact hstale.elim
  | _ => cases he

theorem staleByRevision_answer (c : RevisionCall) (o : RevisionOutcome) (w : RevisionState) :
    StaleByRevision c (revisionExec.answer c o w) := by
  unfold Exec.answer revisionExec
  by_cases hfault : o.fault = true
  · rw [if_pos hfault]
    cases c with
    | kernel c =>
      intro e he hstale
      cases he
      exact hstale.elim
    | _ =>
      intro e he
      cases he
      exact id
  · rw [if_neg hfault]
    cases c with
    | kernel c =>
      have hrun := staleByRevising_run c o.now w.kernel
      intro e he
      apply hrun e
      simp only [RevisionCall.run] at he
      cases hc : c.run o.now w.kernel with
      | ok x =>
        rw [hc] at he
        cases he
      | error e' =>
        rw [hc] at he
        exact he
    | create_lineage_remediation wanted =>
      intro e he
      simp only [RevisionCall.run] at he
      split at he
      · cases he
      · cases he
        exact id
    | _ =>
      intro e he
      cases he

variable {c : Agency.Call}

theorem raises_ask (hc : ¬ KernelRevises c) : (Agency.ask c).Raises StaleByRevising fun e => ¬ KernelStale e :=
  raises_perform fun e h hstale => hc (h e rfl hstale)

theorem raises_kernel (hc : ¬ KernelRevises c) :
    (Agency.Staling.perform (.kernel c)).Raises StaleByRevision fun e => ¬ KernelStale e :=
  raises_perform fun e h hstale => hc (h e rfl hstale)

theorem raises_propagateFrom (fuel : ℕ) (queue visited : List (String × ArtifactStatus)) (severity : Severities) :
    (Agency.propagateFrom fuel queue visited severity).Raises StaleByRevising fun e => ¬ KernelStale e := by
  induction fuel generalizing queue visited severity with
  | zero => exact id
  | succ fuel ih =>
    cases queue with
    | nil => trivial
    | cons current queue =>
      unfold Agency.propagateFrom
      split
      · exact ih _ _ _
      · exact (raises_ask id).bind fun rows => ih _ _ _

section

variable (hash_payload : List (String × ArtifactStatus) → String) (fuel : ℕ)

theorem raises_propagate (artifact_id : String) : (Agency.propagate_artifact_change hash_payload fuel artifact_id).Raises
    StaleByRevising fun e => ¬ KernelStale e := by
  refine (raises_ask id).bind fun source => ?_
  cases source with
  | none => exact id
  | some source =>
    refine (raises_propagateFrom fuel _ _ _).bind fun severity => ?_
    refine (raises_ask id).bind fun now => (raises_ask id).bind fun _ => ?_
    split
    · trivial
    · exact (raises_ask id).bind fun _ => trivial

end

theorem raises_lift {α : Type} {p : Agency.Kernel α} (hp : p.Raises StaleByRevising fun e => ¬ KernelStale e) :
    (Agency.Staling.lift p).Raises StaleByRevision fun e => ¬ KernelStale e := by
  induction p with
  | ret a => trivial
  | raise e => exact hp
  | call c next ih =>
    intro ans hans
    cases ans with
    | ok a => exact ih _ (hp _ hans)
    | error e => exact ih _ (hp _ hans)

theorem raises_settleEach (approvals : List Approvals.Approval) (updated : Agency.Artifact)
    (artifact_id changed_version_ref : String) (impacted_ids : List String) :
    (Agency.Staling.settleEach approvals updated artifact_id changed_version_ref impacted_ids).Raises StaleByRevision
      fun e => ¬ KernelStale e := by
  induction impacted_ids with
  | nil => trivial
  | cons impacted_id impacted_ids ih =>
    refine Raises.bind ?_ fun _ => ih
    refine Raises.bind (raises_perform fun e h => h e rfl) fun impacted => ?_
    cases impacted with
    | none => trivial
    | some impacted =>
      dsimp only
      split
      · trivial
      · refine Raises.bind ?_ fun _ => raises_perform fun e h => h e rfl
        unfold Agency.Staling.staleIfGiven
        split
        · exact raises_perform fun e h => h e rfl
        · trivial

/-- The calls before the compare-and-set. -/
def KernelReads : RevisionCall → Prop
  | .kernel .now | .kernel (.get_artifact _) => True
  | _ => False

theorem watches_kernel {c : RevisionCall} (hc : KernelReads c) : Watches revisionExec (Agency.Staling.perform c) := by
  refine watches_of_only (only_perform hc) fun c o w hc => ?_
  unfold Exec.after revisionExec
  by_cases hfault : o.fault = true
  · rw [if_pos hfault]
  · rw [if_neg hfault]
    cases c with
    | kernel c =>
      cases c with
      | now | get_artifact => rfl
      | _ => exact hc.elim
    | _ => exact hc.elim

variable {now : Agency.Instant} {artifact_id : String} {content_hash fingerprint location : Option String}
  {base_version : ℕ}

theorem revise_ne : s.revise artifact_id base_version content_hash fingerprint location now ≠ .ok s := by
  intro h
  unfold Agency.KernelState.revise at h
  split at h
  · rename_i a ha
    split at h
    · rename_i hversion
      have hartifacts := congrArg (fun s' => s'.artifacts.find? artifact_id) (Except.ok.inj h)
      dsimp only at hartifacts
      rw [Table.find?_update, if_pos rfl, ha] at hartifacts
      have hlater := congrArg Agency.Artifact.version (Option.some.inj hartifacts)
      dsimp only at hlater
      omega
    · cases h
  · cases h

theorem marks_revise : Marks revisionExec
      (Agency.Staling.perform (.kernel (.revise artifact_id base_version content_hash fingerprint location now))) := by
  apply marks_perform
  intro o w a hanswer hsame
  have hexec := Exec.of_answer hanswer
  rw [hsame] at hexec
  unfold revisionExec at hexec
  split at hexec
  · cases hexec
  · simp only [RevisionCall.run, Agency.Call.run] at hexec
    cases hrevise : w.kernel.revise artifact_id base_version content_hash fingerprint location now with
    | error e =>
      rw [hrevise] at hexec
      cases hexec
    | ok s =>
      rw [hrevise] at hexec
      have hkernel : s = w.kernel := congrArg (fun x => x.2.kernel) (Except.ok.inj hexec)
      exact revise_ne (hkernel ▸ hrevise)

section

variable (hash_payload : List (String × ArtifactStatus) → String) (fuel : ℕ)

theorem record_artifact_revision_refuses (r : Revision) :
    Refuses revisionExec KernelStale (Agency.Staling.record_artifact_revision hash_payload fuel r) := by
  refine Watches.bind_refuses (watches_kernel trivial) fun source => ?_
  cases source with
  | none => exact refuses_raise _
  | some source =>
    dsimp only
    split
    · exact refuses_raise _
    refine Watches.bind_refuses (watches_kernel trivial) fun now => ?_
    refine (refuses_perform _).bind_spares fun _ => spares_of_raises staleByRevision_answer ?_
    refine (raises_kernel id).bind fun updated => ?_
    cases updated with
    | none => exact id
    | some updated =>
      refine (raises_lift (raises_propagate hash_payload fuel _)).bind fun affected => ?_
      refine Raises.bind ?_ fun _ => (raises_kernel id).bind fun _ => trivial
      exact Raises.bind (raises_perform fun e h => h e rfl) fun _ => raises_settleEach _ _ _ _ _

theorem record_artifact_revision_marks (r : Revision) :
    Marks revisionExec (Agency.Staling.record_artifact_revision hash_payload fuel r) := by
  refine marks_bind fun source => ?_
  cases source with
  | none => exact marks_raise _
  | some source =>
    dsimp only
    split
    · exact marks_raise _
    · exact marks_bind fun now => marks_revise.bind

/-! ## The tables of a project -/

/-- `StaleArtifactVersionError` -/
def ProjectStale : ProjectError → Prop
  | .stale _ => True
  | _ => False

theorem kernelStale_of_ofKernel (e : KernelError) (h : ProjectStale (.ofKernel e)) : KernelStale e := by
  cases e with
  | stale => trivial
  | _ => exact h.elim

variable {w : ArtifactState} {o : ArtifactOutcome} {c : ArtifactCall}

theorem error_artifactExec {e : ProjectError} (h : artifactExec c o w = .error e) : e = .fault ∨ e = .integrity := by
  unfold artifactExec at h
  cases c with
  | revision => cases h
  | create_artifact record =>
    dsimp only [ArtifactCall.run, ArtifactState.create_artifact] at h
    split at h
    · cases h
      exact .inl rfl
    · split at h
      · cases h
      · cases h
        exact .inr rfl
  | record_change =>
    dsimp only [ArtifactCall.run, recordChange] at h
    split at h
    · cases h
      exact .inl rfl
    · split at h
      · cases h
      · cases h
        exact .inr rfl
  | _ =>
    dsimp only at h
    split at h
    · cases h
      exact .inl rfl
    · cases h

theorem not_stale_answer (c : ArtifactCall) (o : ArtifactOutcome) (w : ArtifactState) (e : ProjectError)
    (h : artifactExec.answer c o w = .error e) : ¬ ProjectStale e := by
  unfold Exec.answer at h
  cases hexec : artifactExec c o w with
  | ok x =>
    rw [hexec] at h
    cases h
  | error e' =>
    rw [hexec] at h
    cases h
    rcases error_artifactExec hexec with rfl | rfl <;> exact id

/-- What is done before the registry's revision. -/
def ArtifactReads : ArtifactCall → Prop
  | .get_artifact _ | .store_text .. => True
  | _ => False

theorem after_artifactReads (hc : ArtifactReads c) : artifactExec.after c o w = w := by
  cases hexec : artifactExec c o w with
  | error e => exact Exec.after_of_error hexec
  | ok x =>
    rw [Exec.after_of_ok hexec]
    unfold artifactExec at hexec
    cases c with
    | get_artifact | store_text =>
      dsimp only at hexec
      split at hexec
      · cases hexec
      · cases hexec
        rfl
    | _ => exact hc.elim

theorem watches_artifact {α : Type} {p : ArtifactProgram α} (hp : p.Only ArtifactReads) : Watches artifactExec p :=
  watches_of_only hp fun _ _ _ => after_artifactReads

theorem only_scoped_artifact (artifact_id project_id : String) :
    (_scoped_artifact artifact_id project_id).Only ArtifactReads := by
  refine Only.bind (only_perform trivial) fun record => ?_
  cases record with
  | none => trivial
  | some record =>
    dsimp only
    split <;> trivial

theorem only_revisedContent (r : ProjectRevision) (tenant_id : String) :
    (revisedContent r tenant_id).Only ArtifactReads := by
  unfold revisedContent
  split
  · exact Only.bind (only_perform trivial) fun _ => trivial
  · trivial

/-- **A revision refuses what is stale**: it has changed nothing. -/
theorem revise_project_artifact_refuses (r : ProjectRevision) :
    Refuses artifactExec ProjectStale (revise_project_artifact hash_payload fuel r) := by
  refine Watches.bind_refuses (watches_artifact (only_scoped_artifact _ _)) fun record => ?_
  refine Watches.bind_refuses (watches_artifact (only_revisedContent r _)) fun content => ?_
  obtain ⟨content_hash, location⟩ := content
  have hregistry := record_artifact_revision_refuses hash_payload fuel (registryRevision r content_hash location)
  refine (hregistry.inside kernelCalls_carries kernelStale_of_ofKernel).bind_spares fun revision => ?_
  refine spares_of_raises (A := fun _ ans => ∀ e, ans = .error e → ¬ ProjectStale e) not_stale_answer ?_
  refine Raises.bind (raises_perform fun e h => h e rfl) fun _ => ?_
  refine Raises.bind (raises_perform fun e h => h e rfl) fun updated => ?_
  cases updated with
  | none => exact id
  | some updated => exact Raises.bind (raises_perform fun e h => h e rfl) fun _ => trivial

/-- **A revision that returns** has written the artifact. -/
theorem revise_project_artifact_marks (r : ProjectRevision) :
    Marks artifactExec (revise_project_artifact hash_payload fuel r) := by
  refine marks_bind fun record => marks_bind fun content => ?_
  obtain ⟨content_hash, location⟩ := content
  exact ((record_artifact_revision_marks hash_payload fuel _).inside kernelCalls_carries).bind

end

end Projects
