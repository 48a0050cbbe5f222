import MissionControl.Content.Jobs
import MissionControl.Projects.Refusal

/-! # An edit that fails

An edit of an item revises the item's artifact first, and the item after that, by a compare-and-set of its own. Where it
is refused before the item is written it has changed nothing (`of_raise`). Where the item's compare-and-set is lost the
artifact has been revised already, with what a revision does to its dependents and their approvals
(`failed_revision_iff`). -/

namespace Content

open Canonical (Sha256)
open Interleaving
open Projects (given)
open Relational (Table)

/-! ## Refusals -/

/-- A stale version, an illegal state, or a lost compare-and-set. -/
def Refused : ContentError → Prop
  | .project (.stale _) | .transition _ => True
  | _ => False

/-- An item that is written by its version has the version, or has no artifact that would have been written before. -/
def CasHolds (x : OwnCall OpsCalls OpsState OpsOutcome) : Prop :=
  match x.call with
  | .revise_item item_id item _ _ => given item.artifact_id = none ∨ x.world.HasVersion item_id item
  | _ => True

/-- The calls before the item is written. -/
def BeforeWrite : OpsCall → Prop
  | .get_content_item _ | .item_body _ | .artifact _ => True
  | _ => False

/-- Those of them that only read. -/
def ReadsItem : OpsCall → Prop
  | .get_content_item _ | .item_body _ | .artifact (.get_artifact _) => True
  | _ => False

theorem casHolds_of_before {l : List (OwnCall OpsCalls OpsState OpsOutcome)} (h : ∀ x ∈ l, BeforeWrite x.call) :
    ∀ x ∈ l, CasHolds x := by
  intro x hx
  have hbefore := h x hx
  obtain ⟨w, c, o⟩ := x
  cases c with
  | revise_item => exact hbefore.elim
  | _ => trivial

section

variable [Sha256] [IsoTime]

variable {o : OpsOutcome}

theorem after_readsItem {c : OpsCall} {w : OpsState} (hc : ReadsItem c) : opsExec.after c o w = w := by
  cases hexec : opsExec c o w with
  | error e => exact Exec.after_of_error hexec
  | ok x =>
    rw [Exec.after_of_ok hexec]
    have hrun := run_of_exec hexec
    cases c with
    | get_content_item | item_body =>
      cases hrun
      rfl
    | artifact c =>
      cases c with
      | get_artifact artifact_id =>
        rw [show opsExec (.artifact (.get_artifact artifact_id)) o w = OpsCall.run o w (.artifact (.get_artifact artifact_id))
          from rfl] at hexec
        cases hexec
        show { w with office := Projects.artifactExec.after _ o.artifact w.office } = w
        rw [Projects.after_artifactReads (c := .get_artifact artifact_id) trivial]
      | _ => exact hc.elim
    | _ => exact hc.elim

theorem watches_item {α : Type} {p : Ops α} (hp : p.Only ReadsItem) : Watches opsExec p :=
  watches_of_only hp fun _ _ _ => after_readsItem

omit [Sha256] [IsoTime] in
theorem only_get_artifact (artifact_id : String) :
    (withArtifacts (Projects.perform (.get_artifact artifact_id))).Only ReadsItem := by
  refine (Program.only_perform (R := fun c => c = Projects.ArtifactCall.get_artifact artifact_id) rfl).inside ?_
  rintro c rfl
  trivial

omit [Sha256] [IsoTime] in
theorem projectStale_of_refused (e : Projects.ProjectError) (h : Refused (.project e)) : Projects.ProjectStale e := by
  cases e with
  | stale => trivial
  | _ => exact h.elim

variable [Json] (hash_payload : List (String × Agency.ArtifactStatus) → String) (fuel : ℕ)

theorem refuses_reviseArtifact (r : ReviseRequest) (item : ContentItem) (body : ContentBody) :
    Refuses opsExec Refused (reviseArtifact hash_payload fuel r item body) := by
  unfold reviseArtifact
  split
  · exact refuses_ret ()
  · refine Watches.bind_refuses (watches_item (only_get_artifact _)) fun record => ?_
    cases record with
    | none => exact refuses_raise _
    | some record =>
      have hrevision (edit : Projects.ProjectRevision) : Refuses opsExec Refused
          (withArtifacts (Projects.revise_project_artifact hash_payload fuel edit)) :=
        (Projects.revise_project_artifact_refuses hash_payload fuel edit).inside artifactCalls_carries projectStale_of_refused
      exact (hrevision _).bind_spares fun _ => spares_ret ()

variable {r : ReviseRequest} {body : ContentBody} {item : ContentItem}

theorem marks_reviseArtifact (h : given item.artifact_id ≠ none) :
    Marks opsExec (reviseArtifact hash_payload fuel r item body) := by
  unfold reviseArtifact
  split
  · rename_i hnone
    exact absurd hnone h
  · refine marks_bind fun record => ?_
    cases record with
    | none => exact marks_raise _
    | some record =>
      exact ((Projects.revise_project_artifact_marks hash_payload fuel _).inside artifactCalls_carries).bind

omit [Sha256] [IsoTime] in
theorem only_reviseBefore (r : ReviseRequest) (item : ContentItem) (body : ContentBody) :
    (reviseArtifact hash_payload fuel r item body).Only BeforeWrite := by
  have hparts {α : Type} (p : Projects.ArtifactProgram α) : (withArtifacts p).Only BeforeWrite :=
    p.only_any.inside fun _ _ => trivial
  unfold reviseArtifact
  split
  · trivial
  · refine (hparts _).bind fun record => ?_
    cases record with
    | none => trivial
    | some record => exact (hparts _).bind fun _ => trivial

/-- What an edit does once it has checked the item. -/
def applyEdit (r : ReviseRequest) (item : ContentItem) : Ops (Option ContentItem) := do
  let before ← perform (.item_body r.item_id)
  reviseArtifact hash_payload fuel r item (before.patched r.body_patch)
  perform (.revise_item r.item_id item (before.patched r.body_patch) (revisedState item.state))
  perform (.get_content_item r.item_id)

variable {l : List (OwnCall OpsCalls OpsState OpsOutcome)} {e : ContentError}

theorem of_checked (h : Amid opsExec (revise_content_item hash_payload fuel r) l (.raise e)) :
    (Untouched opsExec l ∧ ∀ x ∈ l, BeforeWrite x.call) ∨
      ∃ item l₁ l₂, l = l₁ ++ l₂ ∧ Untouched opsExec l₁ ∧ (∀ x ∈ l₁, BeforeWrite x.call) ∧
        Amid opsExec (applyEdit hash_payload fuel r item) l₂ (.raise e) := by
  have hscoped : (_scoped_item r.item_id r.project_id).Only ReadsItem := only_scoped_item trivial
  have hbefore : (_scoped_item r.item_id r.project_id).Only BeforeWrite := only_scoped_item trivial
  rcases Amid.of_bind h with h | ⟨item, l₁, l₂, rfl, h₁, h₂⟩
  · exact .inl ⟨watches_item hscoped _ _ h, h.only hbefore⟩
  · have huntouched := watches_item hscoped _ _ h₁
    have hcalls := h₁.only hbefore
    dsimp only at h₂
    split at h₂
    · obtain ⟨rfl, -⟩ := h₂.of_raise
      rw [List.append_nil]
      exact .inl ⟨huntouched, hcalls⟩
    · split at h₂
      · obtain ⟨rfl, -⟩ := h₂.of_raise
        rw [List.append_nil]
        exact .inl ⟨huntouched, hcalls⟩
      · exact .inr ⟨item, l₁, l₂, rfl, huntouched, hcalls, h₂⟩

variable {item_id : String}

omit [Json] in
theorem of_refused {new_state : ContentState} {w : OpsState}
    (h : opsExec.answer (.revise_item item_id item body new_state) o w = .error e) (he : Refused e) :
    ¬ w.HasVersion item_id item ∧ opsExec.after (.revise_item item_id item body new_state) o w = w := by
  cases hexec : opsExec (.revise_item item_id item body new_state) o w with
  | ok x =>
    unfold Exec.answer at h
    rw [hexec] at h
    cases h
  | error e' =>
    refine ⟨fun hversion => ?_, Exec.after_of_error hexec⟩
    unfold Exec.answer at h
    rw [hexec] at h
    cases h
    simp only [opsExec] at hexec
    split at hexec
    · cases hexec
      exact he
    · simp only [OpsCall.run, OpsState.revise_item, if_pos hversion] at hexec
      cases hexec

omit [Json] in
theorem not_refused_read {w : OpsState} (h : opsExec.answer (.get_content_item item_id) o w = .error e) :
    ¬ Refused e := by
  unfold Exec.answer at h
  simp only [opsExec] at h
  split at h
  · cases h
    exact id
  · cases h

theorem untouched_reviseArtifact {u : Unit}
    (h : Amid opsExec (reviseArtifact hash_payload fuel r item body) l (.ret u)) :
    Untouched opsExec l ↔ given item.artifact_id = none := by
  constructor
  · intro huntouched
    by_contra hgiven
    exact marks_reviseArtifact hash_payload fuel hgiven l u h huntouched
  · intro hnone
    unfold reviseArtifact at h
    rw [hnone] at h
    rw [h.of_ret.1]
    exact untouched_nil

theorem of_applied (h : Amid opsExec (applyEdit hash_payload fuel r item) l (.raise e)) (he : Refused e) :
    (Untouched opsExec l ∧ ∀ x ∈ l, BeforeWrite x.call) ∨
      ∃ l₁ w o body, l = l₁ ++ [⟨w, .revise_item r.item_id item body (revisedState item.state), o⟩] ∧
        (∀ x ∈ l₁, BeforeWrite x.call) ∧ ¬ w.HasVersion r.item_id item ∧
        opsExec.after (.revise_item r.item_id item body (revisedState item.state)) o w = w ∧
        (Untouched opsExec l₁ ↔ given item.artifact_id = none) := by
  have hread : (perform (.item_body r.item_id)).Only ReadsItem := Program.only_perform trivial
  have hbefore : (perform (.item_body r.item_id)).Only BeforeWrite := Program.only_perform trivial
  rcases Amid.of_bind h with h | ⟨before, l₁, l', rfl, h₁, h'⟩
  · exact .inl ⟨watches_item hread _ _ h, h.only hbefore⟩
  have huntouched := watches_item hread _ _ h₁
  have hcalls := h₁.only hbefore
  rcases Amid.of_bind h' with h' | ⟨_, l₂, l'', rfl, h₂, h''⟩
  · refine .inl ⟨untouched_append.mpr ⟨huntouched, ?_⟩, ?_⟩
    · exact refuses_reviseArtifact hash_payload fuel r item _ _ _ h' he
    · exact List.forall_mem_append.mpr ⟨hcalls, h'.only (only_reviseBefore hash_payload fuel r item _)⟩
  rcases Amid.of_bind h'' with h'' | ⟨_, l₃, l₄, rfl, -, h₄⟩
  · -- the item's own compare-and-set
    obtain ⟨w, o, rfl, hanswer⟩ := h''.of_perform
    obtain ⟨hlost, hafter⟩ := of_refused hanswer he
    refine .inr ⟨l₁ ++ l₂, w, o, _, (List.append_assoc ..).symm, ?_, hlost, hafter, ?_⟩
    · exact List.forall_mem_append.mpr ⟨hcalls, h₂.only (only_reviseBefore hash_payload fuel r item _)⟩
    · rw [untouched_append, untouched_reviseArtifact hash_payload fuel h₂]
      exact and_iff_right huntouched
  · -- the item is read again, which fails for no such reason
    obtain ⟨w, o, -, hanswer⟩ := h₄.of_perform
    exact absurd he (not_refused_read hanswer)

/-- **A refused edit** has changed nothing exactly where the item's compare-and-set was not lost after a revision. -/
theorem untouched_iff_casHolds (h : Amid opsExec (revise_content_item hash_payload fuel r) l (.raise e))
    (he : Refused e) : Untouched opsExec l ↔ ∀ x ∈ l, CasHolds x := by
  rcases of_checked hash_payload fuel h with ⟨huntouched, hcalls⟩ | ⟨item, l₁, l', rfl, huntouched, hcalls, h'⟩
  · exact iff_of_true huntouched (casHolds_of_before hcalls)
  rw [untouched_append, List.forall_mem_append, and_iff_right huntouched, and_iff_right (casHolds_of_before hcalls)]
  rcases of_applied hash_payload fuel h' he with ⟨huntouched, hcalls⟩ | ⟨l₂, w, o, body, rfl, hcalls, hlost, hafter, hiff⟩
  · exact iff_of_true huntouched (casHolds_of_before hcalls)
  · rw [untouched_append, List.forall_mem_append, and_iff_right (casHolds_of_before hcalls), List.forall_mem_singleton, hiff]
    have hlast : Untouched opsExec [⟨w, .revise_item r.item_id item body (revisedState item.state), o⟩] := by
      intro x hx
      rw [List.mem_singleton.mp hx]
      exact hafter
    rw [and_iff_left hlast]
    exact (or_iff_left hlost).symm

variable {w : OpsState} {steps : List (OpsStage × Action OpsCalls OpsState OpsOutcome)} {p : Pool OpsCalls OpsState}

/-- **A failed edit.** In every run of the operations, an edit that is refused has changed nothing, if and only if each
    item it wrote by the version still had that version, or has no artifact. -/
theorem failed_revision_iff (run : Run (operations hash_payload fuel) w steps p) {i : ℕ} {r : ReviseRequest}
    {e : ContentError} (hstart : (started steps)[i]? = some ((Operation.revise r).program hash_payload fuel))
    (hend : p.workers[i]? = some (.raise e)) (he : Refused e) :
    Untouched opsExec (ownCalls i steps) ↔ ∀ x ∈ ownCalls i steps, CasHolds x := by
  have hamid := run.amid.2.2 i _ _ hstart hend
  exact untouched_iff_casHolds hash_payload fuel hamid.of_void he

end

/-! ## Two edits -/

attribute [local instance] Canonical.mixHash morningTime plainJson

/-- An item in production, with its artifact. -/
def draftItem : ItemRow where
  item := { readyItem with state := .IN_PRODUCTION, artifact_id := some "art-p-brief" }
  body := {}

def itemWithArtifact : OpsState := { stocked [draftItem] [] with office := Projects.afterCreate }

def editBy (actor : String) : ReviseRequest where
  project_id := "p"
  item_id := "cnt-1"
  actor
  expected_version := 1
  body_patch := Table.empty.put ("text", .str actor)

/-- An item is read to be edited, edited by another, and then edited. -/
def editedTwice : List (Operation ⊕ ℕ × OpsOutcome) :=
  .inl (.revise (editBy "a")) :: turns 0 1 ++ .inl (.revise (editBy "b")) :: turns 1 40 ++ turns 0 40

/-- The worker has been refused. -/
def refused (p : Pool OpsCalls OpsState) (i : ℕ) : Bool :=
  match p.workers[i]? with
  | some (.raise (.project (.stale _))) => true
  | _ => false

theorem of_refusedStale {p : Pool OpsCalls OpsState} {i : ℕ} (h : refused p i = true) :
    ∃ e, p.workers[i]? = some (.raise e) ∧ Refused e := by
  unfold refused at h
  split at h
  · rename_i text hworker
    exact ⟨_, hworker, trivial⟩
  · cases h

theorem started_editedTwice : (started (plays itemWithArtifact editedTwice).1)[0]? =
    some ((Operation.revise (editBy "a")).program (fun _ => "h") 9) := by
  have hstarted : started (plays itemWithArtifact editedTwice).1 = (editedTwice.map line).filterMap Move.program :=
    started_play _ _
  rw [hstarted]
  rfl

/-- **An edit that loses leaves its artifact revised.** -/
theorem failed_revision_leaves_trace : ∃ w steps p i r e, Run (operations (fun _ => "h") 9) w steps p ∧
    (started steps)[i]? = some ((Operation.revise r).program (fun _ => "h") 9) ∧ p.workers[i]? = some (.raise e) ∧
      Refused e ∧ ¬ Untouched opsExec (ownCalls i steps) := by
  obtain ⟨e, hworker, hrefused⟩ := of_refusedStale (p := (plays itemWithArtifact editedTwice).2) (i := 0) (by decide +kernel)
  refine ⟨_, _, _, 0, _, e, run_plays itemWithArtifact editedTwice, started_editedTwice, hworker, hrefused, fun h => ?_⟩
  have hwrites : (ownCalls 0 (plays itemWithArtifact editedTwice).1).all (fun x =>
      (x.after opsExec).office.versions.rows.length = x.world.office.versions.rows.length) = false := by decide +kernel
  have hnone := List.all_eq_true.mpr fun x hx => decide_eq_true (congrArg (·.office.versions.rows.length) (h x hx))
  exact Bool.noConfusion (hwrites.symm.trans hnone)

/-- The edit that lost. -/
theorem failed_revision_iff_twice : ∃ e, (plays itemWithArtifact editedTwice).2.workers[0]? = some (.raise e) ∧
    (Untouched opsExec (ownCalls 0 (plays itemWithArtifact editedTwice).1) ↔
      ∀ x ∈ ownCalls 0 (plays itemWithArtifact editedTwice).1, CasHolds x) := by
  obtain ⟨e, hworker, hrefused⟩ := of_refusedStale (p := (plays itemWithArtifact editedTwice).2) (i := 0) (by decide +kernel)
  exact ⟨e, hworker, failed_revision_iff (fun _ => "h") 9 (run_plays itemWithArtifact editedTwice) started_editedTwice hworker
    hrefused⟩

end Content
