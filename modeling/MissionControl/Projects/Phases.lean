import MissionControl.Projects.Restore

/-! # How far a revision has come

A revision of a project artifact writes three times: it updates the head, it sets the metadata, and it records the
version, from the head it has read again. Between any two of them other revisions may write, and it may crash. How far
it has come is read off its own calls (`phaseOf`), and a revision makes each of its writes in the phase that is due
(`revise_obeys`). -/

namespace Projects

open Agency (Artifact ArtifactStatus)
open Agency.Staling (RevisionCall RevisionCalls)
open Interleaving
open Interleaving.Program (Exchange Obeys Only obeys_ask only_perform)

/-- How far a revision has come: nothing is written yet; the head is updated; the metadata is set as well; the head is
    read again; the version is recorded. -/
inductive Phase where
  | reading
  | updated
  | described (metadata : Metadata)
  | reread (metadata : Metadata) (record : ArtifactRecord)
  | recorded

/-- The phase after a call. -/
def Phase.next : Phase → Exchange ArtifactCalls → Phase
  | .reading, ⟨.revision (.kernel (.revise ..)), .ok (.ok _)⟩ => .updated
  | .updated, ⟨.set_metadata _ metadata, .ok _⟩ => .described metadata
  | .described metadata, ⟨.get_artifact _, .ok (some record)⟩ => .reread metadata record
  | .reread .., ⟨.record_change .., .ok _⟩ => .recorded
  | phase, _ => phase

/-- The phase after some calls. -/
def phaseOf (past : List (Exchange ArtifactCalls)) : Phase := past.foldl Phase.next .reading

/-- The call updates a head. -/
def ArtifactCall.Revises : ArtifactCall → Prop
  | .revision (.kernel (.revise ..)) => True
  | _ => False

/-- **When a revision makes its calls**: each write in the phase that is due. -/
def Owes (artifact_id : String) (past : List (Exchange ArtifactCalls)) : ArtifactCall → Prop
  | .revision (.kernel (.revise a ..)) => a = artifact_id ∧ phaseOf past = .reading
  | .set_metadata a _ => a = artifact_id ∧ phaseOf past = .updated
  | .get_artifact a => a = artifact_id
  | .record_change change .. => ∃ metadata, phaseOf past = .reread metadata change.artifact
  | .create_artifact _ => False
  | _ => True

variable {past t : List (Exchange ArtifactCalls)} {artifact_id : String}

theorem phaseOf_snoc (x : Exchange ArtifactCalls) : phaseOf (past ++ [x]) = (phaseOf past).next x := by
  unfold phaseOf
  rw [List.foldl_append]
  rfl

theorem phaseOf_reading (hpast : phaseOf past = .reading) (ht : ∀ x ∈ t, ¬ x.1.Revises) :
    phaseOf (past ++ t) = .reading := by
  induction t using List.reverseRecOn with
  | nil => rwa [List.append_nil]
  | append_singleton t x ih =>
    rw [← List.append_assoc, phaseOf_snoc, ih fun y hy => ht y (List.mem_append_left _ hy)]
    have hx := ht x (by simp)
    unfold Phase.next
    split <;> first | rfl | contradiction | exact absurd trivial hx

theorem phaseOf_updated (hpast : phaseOf past = .updated) (ht : ∀ x ∈ t, ∃ c, x.1 = .revision c) :
    phaseOf (past ++ t) = .updated := by
  induction t using List.reverseRecOn with
  | nil => rwa [List.append_nil]
  | append_singleton t x ih =>
    rw [← List.append_assoc, phaseOf_snoc, ih fun y hy => ht y (List.mem_append_left _ hy)]
    obtain ⟨c, hc⟩ := ht x (by simp)
    obtain ⟨call, answer⟩ := x
    dsimp only at hc
    subst hc
    unfold Phase.next
    split <;> first | rfl | contradiction | (rename_i heq; exact nomatch (Sigma.mk.inj heq).1)

variable {a : String}

theorem phaseOf_reread {a' : String} {metadata : Metadata} {record : ArtifactRecord}
    (hpast : phaseOf past = .updated) :
    phaseOf (past ++ [⟨.set_metadata a metadata, .ok ()⟩] ++ [⟨.get_artifact a', .ok (some record)⟩]) =
      .reread metadata record := by
  rw [phaseOf_snoc, phaseOf_snoc, hpast]
  rfl

/-! ## A revision keeps to its phases -/

/-- An exchange of the registry's, as one of the project's. -/
def registryExchange (x : Exchange RevisionCalls) : Exchange ArtifactCalls := ⟨.revision x.1, .ok x.2⟩

/-- The registry's call updates a head. -/
def RegistryRevises : RevisionCall → Prop
  | .kernel (.revise ..) => True
  | _ => False

/-- A revision in the registry updates the head of its artifact, and no other, once. -/
def RegistryOwes (artifact_id : String) (past : List (Exchange RevisionCalls)) : RevisionCall → Prop
  | .kernel (.revise a ..) => a = artifact_id ∧ ∀ x ∈ past, ¬ RegistryRevises x.1
  | _ => True

/-- The head was updated among the calls. -/
def HasRevised (past : List (Exchange RevisionCalls)) : Prop :=
  ∃ before a v h f l now after, past = before ++ ⟨.kernel (.revise a v h f l now), .ok ()⟩ :: after ∧
    ∀ x ∈ before, ¬ RegistryRevises x.1

variable {hash_payload : List (String × ArtifactStatus) → String} {fuel : ℕ}

theorem not_revises_registryExchange {x : Exchange RevisionCalls} (hx : ¬ RegistryRevises x.1) :
    ¬ (registryExchange x).1.Revises := by
  obtain ⟨c, answer⟩ := x
  cases c with
  | kernel c => cases c <;> exact hx
  | _ => exact fun h => h

variable {done : List (Exchange RevisionCalls)} {base : List (Exchange ArtifactCalls)}

theorem phaseOf_registryReading (hbase : phaseOf base = .reading) (hdone : ∀ x ∈ done, ¬ RegistryRevises x.1) :
    phaseOf (base ++ done.map registryExchange) = .reading := by
  apply phaseOf_reading hbase
  intro x hx
  obtain ⟨y, hy, rfl⟩ := List.mem_map.mp hx
  exact not_revises_registryExchange (hdone y hy)

theorem phaseOf_registry (hbase : phaseOf base = .reading) (hdone : HasRevised done) :
    phaseOf (base ++ done.map registryExchange) = .updated := by
  obtain ⟨before, a, v, h, f, l, now, after, rfl, hbefore⟩ := hdone
  rw [List.map_append, List.map_cons, List.append_cons, ← List.append_assoc, ← List.append_assoc]
  apply phaseOf_updated
  · rw [phaseOf_snoc, phaseOf_registryReading hbase hbefore]
    rfl
  · intro x hx
    obtain ⟨y, -, rfl⟩ := List.mem_map.mp hx
    exact ⟨y.1, rfl⟩

variable {c : RevisionCall}

theorem owes_registry (hbase : phaseOf base = .reading) (hc : RegistryOwes artifact_id done c) :
    Owes artifact_id (base ++ done.map registryExchange) (.revision c) := by
  cases c with
  | kernel c =>
    cases c with
    | revise => exact ⟨hc.1, phaseOf_registryReading hbase hc.2⟩
    | _ => trivial
  | _ => trivial

theorem HasRevised.append {more : List (Exchange RevisionCalls)} (h : HasRevised done) :
    HasRevised (done ++ more) := by
  obtain ⟨before, a, v, hash, f, l, now, after, rfl, hbefore⟩ := h
  exact ⟨before, a, v, hash, f, l, now, after ++ more, by simp, hbefore⟩

theorem registryOwes_of_not (hc : ¬ RegistryRevises c) : RegistryOwes a done c := by
  cases c with
  | kernel c => cases c <;> first | trivial | exact absurd trivial hc
  | _ => trivial

theorem obeys_of_not_revises {α : Type} {p : Agency.Staling.RevisionProgram α}
    (hp : p.Only fun c => ¬ RegistryRevises c) (h : HasRevised done) :
    p.Obeys (RegistryOwes artifact_id) (fun _ done' => HasRevised done') done := by
  refine (hp.obeys fun _ _ hc => registryOwes_of_not hc).mono fun _ done' hdone => ?_
  obtain ⟨t, rfl, -⟩ := hdone
  exact h.append

theorem only_lift_propagate (a : String) :
    (Agency.Staling.lift (Agency.propagate_artifact_change hash_payload fuel a)).Only fun c => ¬ RegistryRevises c := by
  refine (spares_propagate a).handle fun c hc => only_perform ?_
  cases c with
  | revise => exact hc.elim
  | _ => exact fun h => h

theorem only_settle (approvals : List Approvals.Approval) (updated : Artifact) (a ref impacted : String) :
    (Agency.Staling.settle approvals updated a ref impacted).Only fun c => ¬ RegistryRevises c := by
  refine Only.bind (only_perform fun h => h) fun found => ?_
  cases found with
  | none => trivial
  | some found =>
    dsimp only
    split
    · trivial
    · refine Only.bind ?_ fun _ => only_perform fun h => h
      unfold Agency.Staling.staleIfGiven
      split
      · exact only_perform fun h => h
      · trivial

theorem only_settleEach (approvals : List Approvals.Approval) (updated : Artifact) (a ref : String)
    (impacted : List String) :
    (Agency.Staling.settleEach approvals updated a ref impacted).Only fun c => ¬ RegistryRevises c := by
  induction impacted with
  | nil => trivial
  | cons i impacted ih => exact (only_settle ..).bind fun _ => ih

theorem only_settleImpacted (updated : Artifact) (a ref : String) (impacted : List String) :
    (Agency.Staling.settleImpacted updated a ref impacted).Only fun c => ¬ RegistryRevises c :=
  Only.bind (only_perform fun h => h) fun approvals => only_settleEach approvals updated a ref impacted

/-- **A revision in the registry** that succeeds has updated the head of its artifact once. -/
theorem registry_obeys (r : Agency.Revision) (hr : r.artifact_id = artifact_id) :
    (Agency.Staling.record_artifact_revision hash_payload fuel r).Obeys (RegistryOwes artifact_id)
      (fun _ done => HasRevised done) [] := by
  refine obeys_ask trivial fun found => ?_
  cases found with
  | none => trivial
  | some source =>
    dsimp only
    split
    · trivial
    · refine obeys_ask trivial fun now => ?_
      have hnone : ∀ x ∈ [] ++ [⟨.kernel (.get_artifact r.artifact_id), .ok (some source)⟩] ++
          [(⟨.kernel .now, .ok now⟩ : Exchange RevisionCalls)], ¬ RegistryRevises x.1 := by
        simp [RegistryRevises]
      refine obeys_ask ⟨hr, hnone⟩ fun _ => ?_
      -- what follows updates no head
      refine obeys_of_not_revises ?_ ⟨_, _, _, _, _, _, _, [], rfl, hnone⟩
      refine Only.bind (only_perform fun h => h) fun updated => ?_
      cases updated with
      | none => trivial
      | some updated =>
        refine (only_lift_propagate r.artifact_id).bind fun affected => ?_
        refine (only_settleImpacted ..).bind fun _ => ?_
        exact Only.bind (only_perform fun h => h) fun _ => trivial

/-- What a revision does before it comes to the registry. -/
def ArtifactCall.Prepares (artifact_id : String) : ArtifactCall → Prop
  | .get_artifact a => a = artifact_id
  | .store_text .. => True
  | _ => False

theorem owes_of_prepares {c : ArtifactCall} (hc : c.Prepares artifact_id) : Owes artifact_id past c := by
  cases c with
  | get_artifact a => exact hc
  | store_text => trivial
  | _ => exact hc.elim

theorem not_revises_of_prepares {c : ArtifactCall} (hc : c.Prepares artifact_id) : ¬ c.Revises := by
  cases c with
  | revision => exact hc.elim
  | _ => exact fun h => h

theorem prepares_scoped_artifact (project_id : String) :
    (_scoped_artifact artifact_id project_id).Only (ArtifactCall.Prepares artifact_id) := by
  refine Only.bind (only_perform rfl) fun found => ?_
  cases found with
  | none => trivial
  | some record =>
    dsimp only
    split <;> trivial

theorem prepares_revisedContent (r : ProjectRevision) (tenant_id : String) :
    (revisedContent r tenant_id).Only (ArtifactCall.Prepares artifact_id) := by
  unfold revisedContent
  split
  · exact Only.bind (only_perform trivial) fun _ => trivial
  · trivial

theorem obeys_prepares {α : Type} {p : ArtifactProgram α} (hp : p.Only (ArtifactCall.Prepares artifact_id))
    (hpast : phaseOf past = .reading) : p.Obeys (Owes artifact_id) (fun _ past' => phaseOf past' = .reading) past := by
  refine (hp.obeys fun _ _ hc => owes_of_prepares hc).mono fun _ past' hpast' => ?_
  obtain ⟨t, rfl, ht⟩ := hpast'
  exact phaseOf_reading hpast fun x hx => not_revises_of_prepares (ht x hx)

/-- **A revision makes each write in the phase that is due.** -/
theorem revise_obeys (r : ProjectRevision) (hr : r.artifact_id = artifact_id) :
    (revise_project_artifact hash_payload fuel r).Obeys (Owes artifact_id) (fun _ _ => True) [] := by
  subst hr
  refine Obeys.bind (obeys_prepares (prepares_scoped_artifact _) rfl) fun record past hscoped => ?_
  refine Obeys.bind (obeys_prepares (prepares_revisedContent ..) hscoped) fun content past hcontent => ?_
  have hregistry : (withKernel (Agency.Staling.record_artifact_revision hash_payload fuel
      (registryRevision r content.1 content.2))).Obeys (Owes r.artifact_id)
      (fun _ past' => ∃ done, past' = past ++ done.map registryExchange ∧ HasRevised done)
      (past ++ [].map registryExchange) :=
    (registry_obeys _ rfl).inside (fun _ _ => rfl) fun done c hc => owes_registry hcontent hc
  rw [List.map_nil, List.append_nil] at hregistry
  refine Obeys.bind hregistry fun revision past hpast => ?_
  obtain ⟨done, rfl, hdone⟩ := hpast
  have hupdated := phaseOf_registry hcontent hdone
  refine obeys_ask ⟨rfl, hupdated⟩ fun _ => obeys_ask rfl fun found => ?_
  cases found with
  | none => trivial
  | some updated =>
    exact obeys_ask ⟨_, phaseOf_reread hupdated⟩ fun _ => trivial

end Projects
