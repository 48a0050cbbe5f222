import MissionControl.Projects.Ledger

/-! # The history of an artifact

Any number of revisions of one artifact, in any order, each of which may crash between two of its calls. The head, the
metadata and the row of a version are written in transactions of their own, and the row is copied from the head as it is
read again.

* **When the history is complete**, exactly (`history_complete_iff`): no head was updated while another revision was
  between its own update and its reading the head again, and no revision stopped between its update and its row. -/

namespace Projects

open Agency (Artifact ArtifactStatus)
open Agency.Staling (RevisionCall RevisionOutcome RevisionState revisionExec)
open Interleaving
open Relational (Table)

/-! ## The ledger in the tables -/

/-- The version of an artifact and its content. -/
def versionOf (a : Artifact) : ℕ × Content := (a.version, contentOf a)

/-- The head of an artifact. -/
def headOf (w : ArtifactState) (artifact_id : String) : Option (ℕ × Content) :=
  (w.office.kernel.artifacts.find? artifact_id).map versionOf

/-- The metadata of an artifact. -/
def metadataOf (w : ArtifactState) (artifact_id : String) : Metadata :=
  ⟨w.office.metadata artifact_id, w.v2 artifact_id⟩

/-- The ledger of an artifact in the tables. -/
def ledgerOf (artifact_id : String) (m : Stage ArtifactCalls ArtifactState) : Ledger where
  head := headOf m.world artifact_id
  metadata := metadataOf m.world artifact_id
  row v := m.world.versions.find? (artifact_id, v)
  phase i := phaseOf (m.own i)

/-- **The update of a head goes through**: the head has the version that the update is based on, and nothing fails. -/
def UpdatesHead (artifact_id : String) (w : ArtifactState) (o : ArtifactOutcome) : ArtifactCall → Prop
  | .revision (.kernel (.revise a base_version ..)) => a = artifact_id ∧ o.revision.fault = false ∧
      ∃ c, headOf w artifact_id = some (base_version, c)
  | _ => False

abbrev ArtifactSteps : Type :=
  List (Stage ArtifactCalls ArtifactState × Action ArtifactCalls ArtifactState ArtifactOutcome)

/-- What the revisions wrote in these steps: a head with its content by an update that went through, and metadata. -/
def deedsOf (artifact_id : String) (steps : ArtifactSteps) : Deeds where
  made i v c := ∃ m call o, (m, .call i call o) ∈ steps ∧ UpdatesHead artifact_id m.world o call ∧
    headOf (artifactExec.after call o m.world) artifact_id = some (v, c)
  described i metadata := ∃ m o, (m, .call i (.set_metadata artifact_id metadata) o) ∈ steps ∧ o.fault = false

/-! ## What a call does -/

variable {artifact_id : String}

theorem after_kernel (c : Agency.Call) (o : RevisionOutcome) (w : RevisionState) :
    revisionExec.after (.kernel c) o w = { w with kernel := Agency.exec.after c o.kernel w.kernel } := by
  have hexec := Agency.Staling.revisionExec_kernel c o w
  unfold Exec.after
  rw [hexec]
  cases Agency.exec c o.kernel w.kernel <;> rfl

theorem shown_revision {γ : Type} {g : Artifact → γ} (hg : StatusBlind g) {c : RevisionCall} (hc : ¬ RegistryRevises c)
    (o : RevisionOutcome) (w : RevisionState) (d : String) :
    ((revisionExec.after c o w).kernel.artifacts.find? d).map g = (w.kernel.artifacts.find? d).map g := by
  by_cases hkernel : ∃ k, c = .kernel k
  · obtain ⟨k, rfl⟩ := hkernel
    rw [after_kernel]
    refine shown_after hg ?_ o.kernel w.kernel d
    cases k with
    | revise => exact absurd trivial hc
    | _ => trivial
  · have hother : ∀ k, c ≠ .kernel k := fun k hk => hkernel ⟨k, hk⟩
    rcases Agency.Staling.revisionExec_aside hother o w with ⟨a, w', hexec, hsame⟩ | hexec
    · rw [Exec.after_of_ok hexec, hsame]
    · rw [Exec.after_of_error hexec]

theorem statusBlind_versionOf : StatusBlind versionOf := fun _ _ _ => rfl

theorem metadataOf_revision (c : RevisionCall) (o : ArtifactOutcome) (w : ArtifactState) :
    metadataOf (artifactExec.after (.revision c) o w) artifact_id = metadataOf w artifact_id := by
  show (⟨(revisionExec.after c o.revision w.office).metadata artifact_id, w.v2 artifact_id⟩ : Metadata) = _
  rw [(Agency.Staling.revisionExec_after c o.revision w.office).1]
  rfl

theorem versions_revision (c : RevisionCall) (o : ArtifactOutcome) (w : ArtifactState) :
    (artifactExec.after (.revision c) o w).versions = w.versions := rfl

theorem headOf_revision {c : RevisionCall} (hc : ¬ RegistryRevises c) (o : ArtifactOutcome) (w : ArtifactState) :
    headOf (artifactExec.after (.revision c) o w) artifact_id = headOf w artifact_id :=
  shown_revision statusBlind_versionOf hc o.revision w.office artifact_id

theorem kernel_revise (artifact_id : String) (base_version : ℕ) (hash fingerprint location : Option String)
    (now : Agency.Instant) (s : Agency.KernelState) :
    (∃ a s', s.artifacts.find? artifact_id = some a ∧ a.version = base_version ∧
      s.revise artifact_id base_version hash fingerprint location now = .ok s' ∧
      (s'.artifacts.find? artifact_id).map versionOf = some (base_version + 1,
        ⟨hash.or a.content_hash, location.or a.content_location, fingerprint.or a.semantic_fingerprint⟩)) ∨
    ((∀ a, s.artifacts.find? artifact_id = some a → a.version ≠ base_version) ∧
      ∃ e, s.revise artifact_id base_version hash fingerprint location now = .error e) := by
  unfold Agency.KernelState.revise
  cases ha : s.artifacts.find? artifact_id with
  | none => exact .inr ⟨nofun, _, rfl⟩
  | some a =>
    dsimp only
    by_cases hversion : a.version = base_version
    · refine .inl ⟨a, _, rfl, hversion, if_pos hversion, ?_⟩
      rw [Table.find?_update, if_pos rfl, ha]
      rfl
    · refine .inr ⟨?_, _, if_neg hversion⟩
      rintro _ ⟨⟩
      exact hversion

/-- **An update of the head** that goes through makes the next version; another changes nothing. -/
theorem headOf_revise (artifact_id : String) (base_version : ℕ) (hash fingerprint location : Option String)
    (now : Agency.Instant) (o : ArtifactOutcome) (w : ArtifactState) :
    let call : ArtifactCall := .revision (.kernel (.revise artifact_id base_version hash fingerprint location now))
    (∃ c c', o.revision.fault = false ∧ headOf w artifact_id = some (base_version, c) ∧
      headOf (artifactExec.after call o w) artifact_id = some (base_version + 1, c') ∧
      artifactExec.answer call o w = .ok (.ok ())) ∨
    (¬ UpdatesHead artifact_id w o call ∧ headOf (artifactExec.after call o w) artifact_id = headOf w artifact_id ∧
      ∃ e, artifactExec.answer call o w = .ok (.error e)) := by
  intro call
  cases hfault : o.revision.fault with
  | true =>
    have hexec : revisionExec (.kernel (.revise artifact_id base_version hash fingerprint location now)) o.revision
        w.office = .error .fault := if_pos hfault
    refine .inr ⟨fun h => ?_, ?_, .fault, ?_⟩
    · rw [h.2.1] at hfault
      cases hfault
    · show ((revisionExec.after (.kernel _) o.revision w.office).kernel.artifacts.find? artifact_id).map versionOf = _
      rw [Exec.after_of_error hexec]
      rfl
    · show Except.ok (Except.map Prod.fst (revisionExec _ o.revision w.office)) = _
      rw [hexec]
      rfl
  | false =>
    have hexec : revisionExec (.kernel (.revise artifact_id base_version hash fingerprint location now)) o.revision
        w.office =
        ((w.office.kernel.revise artifact_id base_version hash fingerprint location now).map fun s => ((), s)).map
          fun x => (x.1, { w.office with kernel := x.2 }) := by
      unfold revisionExec
      rw [hfault]
      rfl
    have hanswer : artifactExec.answer call o w = .ok (Except.map Prod.fst (revisionExec
        (.kernel (.revise artifact_id base_version hash fingerprint location now)) o.revision w.office)) := rfl
    have hafter : headOf (artifactExec.after call o w) artifact_id =
        ((revisionExec.after (.kernel (.revise artifact_id base_version hash fingerprint location now)) o.revision
          w.office).kernel.artifacts.find? artifact_id).map versionOf := rfl
    rw [hanswer, hafter]
    rcases kernel_revise artifact_id base_version hash fingerprint location now w.office.kernel with
      ⟨a, s', ha, hversion, hrevise, hhead⟩ | ⟨hne, e, hrevise⟩
    · rw [hrevise] at hexec
      rw [Exec.after_of_ok hexec]
      refine .inl ⟨contentOf a, _, rfl, ?_, hhead, ?_⟩
      · unfold headOf
        rw [ha, ← hversion]
        rfl
      · rw [hexec]
        rfl
    · rw [hrevise] at hexec
      refine .inr ⟨?_, ?_, e, ?_⟩
      · rintro ⟨-, -, c, hhead⟩
        obtain ⟨a, ha, hsame⟩ := Option.map_eq_some_iff.mp hhead
        exact hne a ha (congrArg Prod.fst hsame)
      · rw [Exec.after_of_error hexec]
        rfl
      · rw [hexec]
        rfl

/-! ## Each call advances the ledger -/

variable {m : Stage ArtifactCalls ArtifactState} {i : ℕ} {c : ArtifactCall} {o : ArtifactOutcome} {d : Deeds}

theorem ledgerOf_perform : ledgerOf artifact_id (m.perform artifactExec i c o) =
    { head := headOf (artifactExec.after c o m.world) artifact_id
      metadata := metadataOf (artifactExec.after c o m.world) artifact_id
      row := fun v => (artifactExec.after c o m.world).versions.find? (artifact_id, v)
      phase := Function.update (ledgerOf artifact_id m).phase i
        ((phaseOf (m.own i)).next ⟨c, artifactExec.answer c o m.world⟩) } := by
  unfold ledgerOf
  congr 1
  funext j
  by_cases hji : j = i
  · subst hji
    rw [Function.update_self, Stage.own_perform, phaseOf_snoc]
  · rw [Function.update_of_ne hji, Stage.own_perform_of_ne (Ne.symm hji)]

/-- The call may end a phase. -/
def ArtifactCall.Moves : ArtifactCall → Prop
  | .revision (.kernel (.revise ..)) => True
  | .set_metadata .. => True
  | .get_artifact _ => True
  | .record_change .. => True
  | _ => False

theorem next_error (phase : Phase) (e : ProjectError) : phase.next ⟨c, .error e⟩ = phase := by
  unfold Phase.next
  split <;> first | rfl | (rename_i heq; cases heq)

theorem next_of_not_moves (phase : Phase) (ans : ArtifactCalls.Answer c) (hc : ¬ c.Moves) :
    phase.next ⟨c, ans⟩ = phase := by
  unfold Phase.next
  split <;> first | rfl | (rename_i heq; cases heq; exact absurd trivial hc)

theorem advance_idle (hhead : headOf (artifactExec.after c o m.world) artifact_id = headOf m.world artifact_id)
    (hmetadata : metadataOf (artifactExec.after c o m.world) artifact_id = metadataOf m.world artifact_id)
    (hrows : (artifactExec.after c o m.world).versions = m.world.versions)
    (hphase : (phaseOf (m.own i)).next ⟨c, artifactExec.answer c o m.world⟩ = phaseOf (m.own i)) :
    Ledger.Advance d i (ledgerOf artifact_id m) (ledgerOf artifact_id (m.perform artifactExec i c o)) := by
  have hsame : ledgerOf artifact_id (m.perform artifactExec i c o) = ledgerOf artifact_id m := by
    rw [ledgerOf_perform, hhead, hmetadata, hrows, hphase]
    unfold ledgerOf
    congr 1
    exact Function.update_eq_self i _
  rw [hsame]
  exact .idle

theorem advance_error {e : ProjectError} (hexec : artifactExec c o m.world = .error e) :
    Ledger.Advance d i (ledgerOf artifact_id m) (ledgerOf artifact_id (m.perform artifactExec i c o)) := by
  have hanswer : artifactExec.answer c o m.world = .error e := congrArg (Except.map Prod.fst) hexec
  refine advance_idle ?_ ?_ ?_ ?_
  · rw [Exec.after_of_error hexec]
  · rw [Exec.after_of_error hexec]
  · rw [Exec.after_of_error hexec]
  · rw [hanswer]
    exact next_error _ e

theorem advance_other {a : c.Resp} (hexec : artifactExec c o m.world = .ok (a, m.world)) (hc : ¬ c.Moves) :
    Ledger.Advance d i (ledgerOf artifact_id m) (ledgerOf artifact_id (m.perform artifactExec i c o)) := by
  refine advance_idle ?_ ?_ ?_ (next_of_not_moves _ _ hc)
  · rw [Exec.after_of_ok hexec]
  · rw [Exec.after_of_ok hexec]
  · rw [Exec.after_of_ok hexec]

theorem advance_revision {c : RevisionCall} (howes : Owes artifact_id (m.own i) (.revision c))
    (hmade : ∀ v c', UpdatesHead artifact_id m.world o (.revision c) →
      headOf (artifactExec.after (.revision c) o m.world) artifact_id = some (v, c') → d.made i v c') :
    Ledger.Advance d i (ledgerOf artifact_id m) (ledgerOf artifact_id (m.perform artifactExec i (.revision c) o)) := by
  by_cases hrevises : RegistryRevises c
  · cases c with
    | kernel c =>
      cases c with
      | revise a base_version hash fingerprint location now =>
        obtain ⟨rfl, hphase⟩ := howes
        rcases headOf_revise a base_version hash fingerprint location now o m.world with
          ⟨c, c', hfault, hhead, hafter, hanswer⟩ | ⟨-, hafter, e, hanswer⟩
        · rw [ledgerOf_perform, hafter, metadataOf_revision, versions_revision, hanswer, hphase]
          exact .update hphase hhead (hmade _ _ ⟨rfl, hfault, c, hhead⟩ hafter)
        · refine advance_idle hafter (metadataOf_revision ..) rfl ?_
          rw [hanswer, hphase]
          rfl
      | _ => exact hrevises.elim
    | _ => exact hrevises.elim
  · refine advance_idle (headOf_revision hrevises ..) (metadataOf_revision ..) rfl (next_of_not_moves _ _ ?_)
    cases c with
    | kernel c => cases c <;> exact hrevises
    | _ => exact fun h => h

variable {metadata : Metadata}

theorem advance_set_metadata (hphase : phaseOf (m.own i) = .updated)
    (hdescribed : o.fault = false → d.described i metadata) : Ledger.Advance d i (ledgerOf artifact_id m)
      (ledgerOf artifact_id (m.perform artifactExec i (.set_metadata artifact_id metadata) o)) := by
  cases hfault : o.fault with
  | true => exact advance_error (if_pos hfault)
  | false =>
    have hexec : artifactExec (.set_metadata artifact_id metadata) o m.world =
        .ok ((), m.world.set_metadata artifact_id metadata) := if_neg (by simp [hfault])
    have hanswer : artifactExec.answer (.set_metadata artifact_id metadata) o m.world = .ok () :=
      congrArg (Except.map Prod.fst) hexec
    have hmetadata : metadataOf (m.world.set_metadata artifact_id metadata) artifact_id = metadata := by
      unfold metadataOf ArtifactState.set_metadata
      simp only [Function.update_self]
    rw [ledgerOf_perform, Exec.after_of_ok hexec, hmetadata, hanswer, hphase]
    exact .describe hphase (hdescribed hfault)

theorem advance_get_artifact : Ledger.Advance d i (ledgerOf artifact_id m)
    (ledgerOf artifact_id (m.perform artifactExec i (.get_artifact artifact_id) o)) := by
  cases hfault : o.fault with
  | true => exact advance_error (if_pos hfault)
  | false =>
    have hexec : artifactExec (.get_artifact artifact_id) o m.world = .ok (m.world.get_artifact artifact_id, m.world) :=
      if_neg (by simp [hfault])
    have hanswer : artifactExec.answer (.get_artifact artifact_id) o m.world = .ok (m.world.get_artifact artifact_id) :=
      congrArg (Except.map Prod.fst) hexec
    have hafter : artifactExec.after (.get_artifact artifact_id) o m.world = m.world := Exec.after_of_ok hexec
    by_cases hsame : (phaseOf (m.own i)).next ⟨.get_artifact artifact_id, .ok (m.world.get_artifact artifact_id)⟩ =
        phaseOf (m.own i)
    · refine advance_idle ?_ ?_ ?_ ?_
      · rw [hafter]
      · rw [hafter]
      · rw [hafter]
      · rw [hanswer, hsame]
    · -- only a revision that has set the metadata reads the head again
      cases hphase : phaseOf (m.own i) with
      | described metadata =>
        rw [hphase] at hsame
        cases hfound : m.world.get_artifact artifact_id with
        | none =>
          rw [hfound] at hsame
          exact absurd rfl hsame
        | some record =>
          obtain ⟨a, ha, rfl⟩ := Option.map_eq_some_iff.mp hfound
          rw [ledgerOf_perform, hafter, hanswer, hphase, hfound]
          refine .reread hphase ?_ rfl
          show headOf m.world artifact_id = _
          unfold headOf
          rw [ha]
          rfl
      | _ =>
        rw [hphase] at hsame
        exact absurd rfl hsame

theorem advance_record_change {change : VersionChange} {project_id changed_version_ref : String}
    {affected : List (String × ArtifactStatus)} (hphase : phaseOf (m.own i) = .reread metadata change.artifact)
    (hread : change.artifact.artifact.artifact_id = artifact_id) : Ledger.Advance d i (ledgerOf artifact_id m)
      (ledgerOf artifact_id
        (m.perform artifactExec i (.record_change change project_id changed_version_ref affected) o)) := by
  cases hfault : o.fault with
  | true => exact advance_error (if_pos hfault)
  | false =>
    have hexec : artifactExec (.record_change change project_id changed_version_ref affected) o m.world =
        recordChange m.world o.fresh change project_id changed_version_ref affected := if_neg (by simp [hfault])
    unfold recordChange at hexec
    split at hexec
    · rename_i hrow
      have hkey : change.row.key = (artifact_id, change.row.version) := by
        rw [← hread]
        rfl
      have hrows : (fun v => (m.world.versions.insert change.row hrow).find? (artifact_id, v)) =
          Function.update (ledgerOf artifact_id m).row change.row.version (some change.row) := by
        funext v
        rw [Table.find?_insert, hkey]
        by_cases hv : v = change.row.version
        · rw [hv, if_pos rfl, Function.update_self]
        · rw [if_neg fun h => hv (congrArg Prod.snd h).symm, Function.update_of_ne hv]
          rfl
      have hanswer : artifactExec.answer (.record_change change project_id changed_version_ref affected) o m.world =
          .ok _ :=
        congrArg (Except.map Prod.fst) hexec
      rw [ledgerOf_perform, Exec.after_of_ok hexec, hanswer, hphase]
      dsimp only
      rw [hrows]
      refine .record hphase ?_
      rw [hkey] at hrow
      exact hrow
    · exact advance_error hexec

/-- What a revision reads again is the artifact. -/
def Rereads (artifact_id : String) (m : Stage ArtifactCalls ArtifactState) : Prop :=
  ∀ i metadata record, phaseOf (m.own i) = .reread metadata record → record.artifact.artifact_id = artifact_id

/-- **Each call of a revision advances the ledger.** -/
theorem advance_perform (howes : Owes artifact_id (m.own i) c) (hread : Rereads artifact_id m)
    (hmade : ∀ v c', UpdatesHead artifact_id m.world o c →
      headOf (artifactExec.after c o m.world) artifact_id = some (v, c') → d.made i v c')
    (hdescribed : ∀ metadata, c = .set_metadata artifact_id metadata → o.fault = false → d.described i metadata) :
    Ledger.Advance d i (ledgerOf artifact_id m) (ledgerOf artifact_id (m.perform artifactExec i c o)) := by
  cases c with
  | revision c => exact advance_revision howes hmade
  | set_metadata a metadata =>
    obtain ⟨rfl, hphase⟩ := howes
    exact advance_set_metadata hphase (hdescribed metadata rfl)
  | get_artifact a =>
    obtain rfl := howes
    exact advance_get_artifact
  | record_change change project_id changed_version_ref affected =>
    obtain ⟨metadata, hphase⟩ := howes
    exact advance_record_change hphase (hread i metadata _ hphase)
  | create_artifact => exact howes.elim
  | _ =>
    cases hfault : o.fault with
    | true => exact advance_error (if_pos hfault)
    | false => exact advance_other (if_neg (by simp [hfault])) fun h => h

theorem kernel_after (hrevision : ∀ k, c ≠ .revision k) (hcreate : ∀ r, c ≠ .create_artifact r) (w : ArtifactState) :
    (artifactExec.after c o w).office.kernel = w.office.kernel := by
  have hrun : ∀ x, c.run o w = .ok x → x.2.office.kernel = w.office.kernel := by
    intro x hx
    cases c with
    | revision k => exact absurd rfl (hrevision k)
    | create_artifact r => exact absurd rfl (hcreate r)
    | record_change =>
      simp only [ArtifactCall.run, recordChange] at hx
      split at hx
      · cases hx
        rfl
      · cases hx
    | _ =>
      cases hx
      rfl
  cases hexec : artifactExec c o w with
  | error e => rw [Exec.after_of_error hexec]
  | ok x =>
    have hafter : artifactExec.after c o w = x.2 := Exec.after_of_ok hexec
    rw [hafter]
    apply hrun x
    cases c with
    | revision k => exact absurd rfl (hrevision k)
    | _ =>
      simp only [artifactExec] at hexec
      split at hexec
      · cases hexec
      · exact hexec

/-- **The head changes** exactly where an update goes through. -/
theorem head_ne_iff (howes : Owes artifact_id (m.own i) c) :
    headOf (artifactExec.after c o m.world) artifact_id ≠ headOf m.world artifact_id ↔
      UpdatesHead artifact_id m.world o c := by
  by_cases hrevision : ∃ k, c = .revision k
  · obtain ⟨k, rfl⟩ := hrevision
    by_cases hrevises : RegistryRevises k
    · cases k with
      | kernel k =>
        cases k with
        | revise a base_version hash fingerprint location now =>
          obtain ⟨rfl, -⟩ := howes
          rcases headOf_revise a base_version hash fingerprint location now o m.world with
            ⟨c, c', hfault, hhead, hafter, -⟩ | ⟨hnot, hafter, -⟩
          · refine iff_of_true ?_ ⟨rfl, hfault, c, hhead⟩
            rw [hafter, hhead]
            simp
          · exact iff_of_false (fun hne => hne hafter) hnot
        | _ => exact hrevises.elim
      | _ => exact hrevises.elim
    · refine iff_of_false (fun hne => hne (headOf_revision hrevises ..)) fun h => hrevises ?_
      cases k with
      | kernel k =>
        cases k with
        | revise => trivial
        | _ => exact h.elim
      | _ => exact h.elim
  · refine iff_of_false (fun hne => hne ?_) fun h => ?_
    · unfold headOf
      rw [kernel_after (fun k hk => hrevision ⟨k, hk⟩)]
      rintro r rfl
      exact howes
    · cases c with
      | revision k => exact hrevision ⟨k, rfl⟩
      | _ => exact h

theorem of_next_reread {phase : Phase} {ans : ArtifactCalls.Answer c} {record : ArtifactRecord}
    (h : phase.next ⟨c, ans⟩ = .reread metadata record) : phase = .reread metadata record ∨
      ∃ a, (⟨c, ans⟩ : Program.Exchange ArtifactCalls) = ⟨.get_artifact a, .ok (some record)⟩ := by
  unfold Phase.next at h
  split at h
  · cases h
  · cases h
  · rename_i heq
    cases h
    exact .inr ⟨_, heq⟩
  · cases h
  · exact .inl h

theorem Rereads.perform (h : Rereads artifact_id m) (howes : Owes artifact_id (m.own i) c) :
    Rereads artifact_id (m.perform artifactExec i c o) := by
  intro j metadata record hj
  by_cases hij : i = j
  · subst hij
    rw [Stage.own_perform, phaseOf_snoc] at hj
    rcases of_next_reread hj with hj | ⟨a, ha⟩
    · exact h i metadata record hj
    · obtain ⟨rfl, hanswer⟩ := Sigma.mk.inj ha
      obtain rfl := howes
      have hexec := Exec.of_answer (eq_of_heq hanswer)
      simp only [artifactExec] at hexec
      split at hexec
      · cases hexec
      · simp only [ArtifactCall.run, Except.ok.injEq, Prod.mk.injEq] at hexec
        obtain ⟨a', ha', rfl⟩ := Option.map_eq_some_iff.mp hexec.1
        exact (Table.find?_eq_some.mp ha').2
  · rw [Stage.own_perform_of_ne hij] at hj
    exact h j metadata record hj

/-! ## Runs -/

variable (hash_payload : List (String × ArtifactStatus) → String) (artifact_id)

/-- **Revisions of one artifact**, any number of them. Between their calls other programs may change whatever is not the
    head of the artifact, its metadata, or the rows of its versions. -/
def revisions : System ArtifactCalls ArtifactState ArtifactOutcome where
  exec := artifactExec
  Starts p := ∃ r fuel, r.artifact_id = artifact_id ∧ p = (revise_project_artifact hash_payload fuel r).void
  Env w w' := headOf w' artifact_id = headOf w artifact_id ∧ metadataOf w' artifact_id = metadataOf w artifact_id ∧
    ∀ v, w'.versions.find? (artifact_id, v) = w.versions.find? (artifact_id, v)

/-- **No update too early**: where a head is updated, no revision is between its own update and its reading the head
    again. -/
def Undisturbed (m : Stage ArtifactCalls ArtifactState) : Action ArtifactCalls ArtifactState ArtifactOutcome → Prop
  | .call _ c o => UpdatesHead artifact_id m.world o c → ∀ j, ¬ (phaseOf (m.own j)).Open
  | _ => True

/-- The artifact is at version `n`, and its versions are recorded until then. -/
def RecordedUntil (w : ArtifactState) (n : ℕ) : Prop :=
  (∃ c, headOf w artifact_id = some (n, c)) ∧ ∀ v, (w.versions.find? (artifact_id, v)).isSome ↔ 1 ≤ v ∧ v ≤ n

variable {hash_payload} {artifact_id} {w : ArtifactState} {n₀ : ℕ} {steps : ArtifactSteps}
  {s : Pool ArtifactCalls ArtifactState}

theorem deedsOf_within (artifact_id : String) (steps more : ArtifactSteps) :
    (deedsOf artifact_id steps).Within (deedsOf artifact_id (steps ++ more)) where
  made := by
    rintro i v c ⟨m, call, o, hmem, h⟩
    exact ⟨m, call, o, List.mem_append_left _ hmem, h⟩
  described := by
    rintro i metadata ⟨m, o, hmem, h⟩
    exact ⟨m, o, List.mem_append_left _ hmem, h⟩

theorem owes_of_run (run : Run (revisions artifact_id hash_payload) w steps s) {m : Stage ArtifactCalls ArtifactState}
    {i : ℕ} {c : ArtifactCall} {o : ArtifactOutcome} (h : (m, .call i c o) ∈ steps) : Owes artifact_id (m.own i) c := by
  refine run.obeys ?_ h
  rintro _ ⟨r, fuel, hr, rfl⟩
  exact (revise_obeys r hr).void

/-- **Until a head is updated too early the history is orderly; from then on a version is lost.** -/
theorem ledger_of_run (hw : RecordedUntil artifact_id w n₀) (run : Run (revisions artifact_id hash_payload) w steps s) :
    Rereads artifact_id s.stage ∧
      ((Meets (Undisturbed artifact_id) steps ∧ ∃ n c, (ledgerOf artifact_id s.stage).Orderly
          (fun v => w.versions.find? (artifact_id, v)) n₀ (deedsOf artifact_id steps) n c) ∨
        (¬ Meets (Undisturbed artifact_id) steps ∧ (ledgerOf artifact_id s.stage).Lost)) := by
  induction run with
  | nil =>
    obtain ⟨⟨c, hhead⟩, hrows⟩ := hw
    have hphase : ∀ i, phaseOf ((Pool.init w).stage.own i) = .reading := fun i => rfl
    refine ⟨fun i metadata record hi => ?_, .inl ⟨meets_nil _, n₀, c, ?_⟩⟩
    · rw [hphase] at hi
      cases hi
    exact {
      head := hhead
      above := le_rfl
      kept := fun v _ => rfl
      covered := fun v hv hle => by omega
      due := fun i v hi => hi.elim
      once := fun i j v hi => hi.elim
      tells := fun i => trivial
      wrote := fun v row hv hrow => by
        have hle := ((hrows v).mp (Option.isSome_iff_exists.mpr ⟨row, hrow⟩)).2
        omega }
  | @snoc steps s s' a run step ih =>
    obtain ⟨hread, hledger⟩ := ih
    have hstep := run.snoc step
    cases step with
    | start hp =>
      refine ⟨hread, hledger.imp ?_ ?_⟩
      · rintro ⟨hmeets, n, c, horderly⟩
        exact ⟨meets_snoc.mpr ⟨hmeets, trivial⟩, n, c, horderly.within (deedsOf_within ..)⟩
      · rintro ⟨hmeets, hlost⟩
        exact ⟨fun h => hmeets (meets_snoc.mp h).1, hlost⟩
    | @env w' hw' =>
      obtain ⟨hhead, hmetadata, hrows⟩ := hw'
      have hsame : ledgerOf artifact_id { s.stage with world := w' } = ledgerOf artifact_id s.stage := by
        unfold ledgerOf
        simp only [hhead, hmetadata, hrows]
        rfl
      refine ⟨hread, hledger.imp ?_ ?_⟩
      · rintro ⟨hmeets, n, c, horderly⟩
        refine ⟨meets_snoc.mpr ⟨hmeets, trivial⟩, n, c, ?_⟩
        rw [hsame]
        exact horderly.within (deedsOf_within ..)
      · rintro ⟨hmeets, hlost⟩
        refine ⟨fun h => hmeets (meets_snoc.mp h).1, ?_⟩
        rw [hsame]
        exact hlost
    | @call i c next o hi =>
      have hmem : (s.stage, Action.call i c o) ∈ steps ++ [(s.stage, Action.call i c o)] :=
        List.mem_append_right _ (List.mem_singleton.mpr rfl)
      have howes := owes_of_run hstep hmem
      have hadvance : Ledger.Advance (deedsOf artifact_id (steps ++ [(s.stage, .call i c o)])) i
          (ledgerOf artifact_id s.stage) (ledgerOf artifact_id (s.stage.perform artifactExec i c o)) := by
        refine advance_perform howes hread (fun v c' hupdates hhead => ⟨s.stage, c, o, hmem, hupdates, hhead⟩) ?_
        rintro metadata rfl hfault
        exact ⟨s.stage, o, hmem, hfault⟩
      refine ⟨hread.perform howes, ?_⟩
      rcases hledger with ⟨hmeets, n, c₀, horderly⟩ | ⟨hmeets, hlost⟩
      · have hlater := horderly.within (deedsOf_within artifact_id steps [(s.stage, .call i c o)])
        by_cases hquiet : Undisturbed artifact_id s.stage (.call i c o)
        · left
          refine ⟨meets_snoc.mpr ⟨hmeets, hquiet⟩, hlater.advance hadvance fun hne => ?_⟩
          exact hquiet ((head_ne_iff howes).mp hne)
        · right
          refine ⟨fun h => hquiet (meets_snoc.mp h).2, ?_⟩
          obtain ⟨hupdates, hopen⟩ := Classical.not_imp.mp hquiet
          obtain ⟨j, hj⟩ := not_forall.mp hopen
          exact hlater.lost hadvance ((head_ne_iff howes).mpr hupdates) (not_not.mp hj)
      · exact .inr ⟨fun h => hmeets (meets_snoc.mp h).1, hlost.advance hadvance⟩

/-- **When the history of an artifact is complete**: exactly when no head was updated while another revision was between
    its own update and its reading the head again, and each revision that has updated the head has recorded its
    version. -/
theorem history_complete_iff (hw : RecordedUntil artifact_id w n₀)
    (run : Run (revisions artifact_id hash_payload) w steps s) :
    (ledgerOf artifact_id s.stage).Complete (fun v => w.versions.find? (artifact_id, v)) n₀
        (deedsOf artifact_id steps) ↔
      Meets (Undisturbed artifact_id) steps ∧ ∀ i, (phaseOf (s.stage.own i)).Settled := by
  obtain ⟨-, ⟨hmeets, n, c, horderly⟩ | ⟨hmeets, hlost⟩⟩ := ledger_of_run hw run
  · rw [horderly.complete_iff hw.2]
    exact (and_iff_right hmeets).symm
  · exact iff_of_false hlost.not_complete fun h => hmeets h.1

/-! ## Two revisions -/

/-- A second revision, based on the first. -/
def retold : ProjectRevision where
  project_id := "p"
  artifact_id := "art-p-brief"
  actor := "u"
  expected_version := 2
  content_hash := some "h3"
  storage_uri := some "local://t/p/h3"

/-- Revisions of the brief. -/
abbrev briefRevisions : System ArtifactCalls ArtifactState ArtifactOutcome := revisions "art-p-brief" fun _ => "h"

/-- The revision starts. -/
def begins (r : ProjectRevision) : Move ArtifactCalls ArtifactState ArtifactOutcome :=
  .start (revise_project_artifact (fun _ => "h") 9 r).void

/-- The revision makes its next `count` calls, while there are any. -/
def goesOn (i count : ℕ) : List (Move ArtifactCalls ArtifactState ArtifactOutcome) :=
  List.replicate count (.call i calmly)

theorem allowed_begins {r : ProjectRevision} (hr : r.artifact_id = "art-p-brief") : (begins r).Allowed briefRevisions :=
  ⟨r, 9, hr, rfl⟩

theorem allowed_goesOn {i count : ℕ} {x : Move ArtifactCalls ArtifactState ArtifactOutcome} (hx : x ∈ goesOn i count) :
    x.Allowed briefRevisions := by
  rw [List.eq_of_mem_replicate hx]
  trivial

theorem recordedUntil_of_rows {w : ArtifactState} {n : ℕ} {c : Content} (hhead : headOf w artifact_id = some (n, c))
    (hrows : w.versions.rows.map VersionRow.key = (List.range n).map fun v => (artifact_id, v + 1)) :
    RecordedUntil artifact_id w n := by
  refine ⟨⟨c, hhead⟩, fun v => ?_⟩
  have hmem : (w.versions.find? (artifact_id, v)).isSome ↔ (artifact_id, v) ∈ w.versions.rows.map VersionRow.key := by
    rw [Option.isSome_iff_exists, List.mem_map]
    exact exists_congr fun row => Table.find?_eq_some
  rw [hmem, hrows, List.mem_map]
  constructor
  · rintro ⟨v', hv', h⟩
    have hlt := List.mem_range.mp hv'
    have hsame := congrArg Prod.snd h
    dsimp only at hsame
    omega
  · rintro ⟨hpos, hle⟩
    exact ⟨v - 1, List.mem_range.mpr (by omega), Prod.ext rfl (by dsimp only; omega)⟩

theorem not_complete_of_missing {first : ℕ → Option VersionRow} {x : Ledger} {n v : ℕ}
    (hhead : x.head.map Prod.fst = some n) (hrow : (x.row v).isSome = false) (hpos : 1 ≤ v) (hle : v ≤ n) :
    ¬ x.Complete first n₀ d := by
  rintro ⟨n', c, hhead', hrows, -⟩
  rw [hhead'] at hhead
  cases hhead
  rw [(hrows v).mpr ⟨hpos, hle⟩] at hrow
  cases hrow

theorem recordedUntil_afterCreate : RecordedUntil "art-p-brief" afterCreate 1 := by
  obtain ⟨⟨n, c⟩, hhead, hn⟩ := (Option.any_eq_true _ _).mp
    (show (headOf afterCreate "art-p-brief").any (·.1 = 1) = true by decide +kernel)
  obtain rfl := of_decide_eq_true hn
  exact recordedUntil_of_rows hhead (by decide +kernel)

/-- One revision, to its end. -/
def oneRevision : List (Move ArtifactCalls ArtifactState ArtifactOutcome) := begins translated :: goesOn 0 15

/-- The second revision updates the head after the first has, and before the first reads it again; both go on to their
    ends. -/
def twoRevisions : List (Move ArtifactCalls ArtifactState ArtifactOutcome) :=
  begins translated :: goesOn 0 4 ++ begins retold :: goesOn 1 4 ++ goesOn 0 11 ++ goesOn 1 11

theorem run_oneRevision : Run briefRevisions afterCreate (play briefRevisions (Pool.init afterCreate) oneRevision).1
    (play briefRevisions (Pool.init afterCreate) oneRevision).2 := by
  refine play_run fun x hx => ?_
  rcases List.mem_cons.mp hx with rfl | hx
  · exact allowed_begins rfl
  · exact allowed_goesOn hx

theorem run_twoRevisions : Run briefRevisions afterCreate (play briefRevisions (Pool.init afterCreate) twoRevisions).1
    (play briefRevisions (Pool.init afterCreate) twoRevisions).2 := by
  refine play_run fun x hx => ?_
  simp only [twoRevisions, List.cons_append, List.append_assoc, List.mem_cons, List.mem_append] at hx
  rcases hx with rfl | hx | rfl | hx | hx | hx
  · exact allowed_begins rfl
  · exact allowed_goesOn hx
  · exact allowed_begins rfl
  · exact allowed_goesOn hx
  · exact allowed_goesOn hx
  · exact allowed_goesOn hx

/-- The history after one revision. -/
theorem history_complete_iff_once : ∃ steps s, Run briefRevisions afterCreate steps s ∧
    ((ledgerOf "art-p-brief" s.stage).Complete (fun v => afterCreate.versions.find? ("art-p-brief", v)) 1
        (deedsOf "art-p-brief" steps) ↔
      Meets (Undisturbed "art-p-brief") steps ∧ ∀ i, (phaseOf (s.stage.own i)).Settled) :=
  ⟨_, _, run_oneRevision, history_complete_iff recordedUntil_afterCreate run_oneRevision⟩

/-- **A version is lost**: of two revisions, one after the other, that both went through, the first leaves no row. -/
theorem version_lost : ∃ steps s, Run briefRevisions afterCreate steps s ∧ RecordedUntil "art-p-brief" afterCreate 1 ∧
    (headOf s.stage.world "art-p-brief").map Prod.fst = some 3 ∧
    s.stage.world.versions.find? ("art-p-brief", 2) = none ∧
    ¬ (ledgerOf "art-p-brief" s.stage).Complete (fun v => afterCreate.versions.find? ("art-p-brief", v)) 1
      (deedsOf "art-p-brief" steps) := by
  have hhead : (ledgerOf "art-p-brief"
      (play briefRevisions (Pool.init afterCreate) twoRevisions).2.stage).head.map Prod.fst = some 3 := by
    decide +kernel
  have hrow : ((ledgerOf "art-p-brief"
      (play briefRevisions (Pool.init afterCreate) twoRevisions).2.stage).row 2).isSome = false := by decide +kernel
  have hnone := Option.isNone_iff_eq_none.mp (Option.isSome_eq_false_iff.mp hrow)
  exact ⟨_, _, run_twoRevisions, recordedUntil_afterCreate, hhead, hnone,
    not_complete_of_missing hhead hrow (by omega) (by omega)⟩

end Projects
