import MissionControl.Agency.Propagation
import MissionControl.Relational.Acyclic

/-! # Adding dependencies side by side

A dependency is refused when it would close a cycle in the graph as the search reads
it. The search and the insert are separate statements: what is stored between them
the search has not seen. -/

namespace Agency

open Interleaving
open Relation (ReflTransGen)
open Relational (Acyclic addEdge acyclic_addEdge acyclic_congr)

/-- The artifact `a` depends on `u`. -/
def Upstream (s : KernelState) (a u : String) : Prop :=
  ∃ x ∈ s.dependencies, x.artifact_id = a ∧ x.depends_on_artifact_id = u

variable {s s' : KernelState}

/-! ## The cycle search -/

variable {artifact_id start : String} {queue visited : List String}

/-! ## The graph after a call -/

theorem upstream_insert {d : Dependency} (h : s.insertDependency d = .ok s') (a u : String) :
    Upstream s' a u ↔ addEdge (Upstream s) d.artifact_id d.depends_on_artifact_id a u := by
  unfold KernelState.insertDependency at h
  split at h
  · rename_i hnew
    split at h
    · cases h
    · cases h
      unfold Upstream addEdge
      constructor
      · rintro ⟨x, hx, rfl, rfl⟩
        rcases (Relational.Table.mem_insert (h := hnew)).mp hx with hx | rfl
        · exact .inl ⟨x, hx, rfl, rfl⟩
        · exact .inr ⟨rfl, rfl⟩
      · rintro (⟨x, hx, rfl, rfl⟩ | ⟨rfl, rfl⟩)
        · refine ⟨x, ?_, rfl, rfl⟩
          exact (Relational.Table.mem_insert (h := hnew)).mpr (.inl hx)
        · refine ⟨d, ?_, rfl, rfl⟩
          exact (Relational.Table.mem_insert (h := hnew)).mpr (.inr rfl)
  · cases h

theorem setStatuses_dependencies (affected : List (String × ArtifactStatus)) (now : Instant)
    (engagement_id : String) (s : KernelState) :
    (affected.foldl (KernelState.setStatus · now engagement_id) s).dependencies = s.dependencies := by
  induction affected generalizing s with
  | nil => rfl
  | cons x affected ih => exact ih _

/-- Only an insert that goes through changes the graph. -/
theorem dependencies_after {c : Call} (o : Outcome) (s : KernelState) :
    ((exec.after c o s).dependencies = s.dependencies ∧ ∀ d, c = .insert_dependency d → ¬ (exec c o s).isOk) ∨
      ∃ d, c = .insert_dependency d ∧ (exec (.insert_dependency d) o s).isOk ∧
        s.insertDependency d = .ok (exec.after c o s) := by
  cases hexec : exec c o s with
  | error e =>
    rw [Exec.after_of_error hexec]
    exact .inl ⟨rfl, fun _ _ h => by cases h⟩
  | ok x =>
    obtain ⟨r, s'⟩ := x
    rw [Exec.after_of_ok hexec]
    have hrun : c.run o.now s = .ok (r, s') := by
      unfold exec at hexec
      split at hexec
      · cases hexec
      · exact hexec
    cases c with
    | insert_dependency d =>
      refine .inr ⟨d, rfl, by rw [hexec]; rfl, ?_⟩
      simp only [Call.run] at hrun
      cases hinsert : s.insertDependency d with
      | error e =>
        rw [hinsert] at hrun
        cases hrun
      | ok s₁ =>
        rw [hinsert] at hrun
        cases hrun
        rfl
    | set_statuses affected now engagement_id =>
      cases hrun
      exact .inl ⟨setStatuses_dependencies affected now engagement_id s, by simp⟩
    | revise =>
      refine .inl ⟨?_, by simp⟩
      simp only [Call.run, KernelState.revise] at hrun
      split at hrun
      · split at hrun
        · cases hrun
          rfl
        · cases hrun
      · cases hrun
    | _ =>
      cases hrun
      exact .inl ⟨rfl, by simp⟩

/-! ## One call alone -/

theorem acyclic_of_dependencies (h : s'.dependencies = s.dependencies) :
    Acyclic (Upstream s') ↔ Acyclic (Upstream s) := by
  refine acyclic_congr fun a u => ?_
  unfold Upstream
  rw [h]

/-! ## Calls side by side -/

/-- **Adding dependencies**: any number of `add_artifact_dependency` calls at once,
    while artifacts come and change. -/
def adding : System KernelCalls KernelState Outcome where
  exec := exec
  Starts := fun p => ∃ fuel artifact_id depends_on_artifact_id relationship,
    p = add_artifact_dependency fuel artifact_id depends_on_artifact_id relationship
  Env := fun s s' => s'.dependencies = s.dependencies

/-- What the search of a call found still holds when its insert goes through: the
    artifact is not upstream of the one it is to depend on. -/
def StillOpen (m : Stage KernelCalls KernelState) : Action KernelCalls KernelState Outcome → Prop
  | .call _ (.insert_dependency d) o => (exec (.insert_dependency d) o m.world).isOk →
    ¬ ReflTransGen (Upstream m.world) d.depends_on_artifact_id d.artifact_id
  | _ => True

theorem acyclic_step {p p' : Pool KernelCalls KernelState}
    {a : Action KernelCalls KernelState Outcome} (step : Step adding p a p')
    (h : Acyclic (Upstream p.stage.world)) : Acyclic (Upstream p'.stage.world) ↔ StillOpen p.stage a := by
  cases step with
  | start hp => exact iff_of_true h trivial
  | env hw => exact iff_of_true ((acyclic_of_dependencies hw).mpr h) trivial
  | @call i c next o hi =>
    show Acyclic (Upstream (exec.after c o p.stage.world)) ↔ _
    rcases dependencies_after o p.stage.world (c := c) with ⟨hsame, hfailed⟩ | ⟨d, rfl, hok, hinsert⟩
    · refine iff_of_true ((acyclic_of_dependencies hsame).mpr h) ?_
      cases c with
      | insert_dependency d => exact fun hok => absurd hok (hfailed d rfl)
      | _ => trivial
    · rw [acyclic_congr (upstream_insert hinsert), acyclic_addEdge h]
      exact ⟨fun hopen _ => hopen, fun hopen => hopen hok⟩

def artifact (artifact_id : String) : Artifact :=
  ⟨artifact_id, "e", "t", "p", 1, .draft, none, none, none, 0⟩

/-- Two artifacts, and no dependency. -/
def twoArtifacts : KernelState where
  artifacts := (Relational.Table.empty.put (artifact "a")).put (artifact "b")
  dependencies := .empty

def adds (artifact_id depends_on_artifact_id : String) : Move KernelCalls KernelState Outcome :=
  .start (add_artifact_dependency 10 artifact_id depends_on_artifact_id (some .hard))

/-- Worker `i` makes its next call. -/
def works (i : ℕ) : Move KernelCalls KernelState Outcome := .call i ⟨0, false⟩

/-- Both calls search, and then both insert. -/
def crossing : List (Move KernelCalls KernelState Outcome) :=
  [adds "a" "b", adds "b" "a"] ++ List.replicate 4 (works 0) ++ List.replicate 4 (works 1) ++
    [works 0, works 1]

/-- One call alone. -/
def oneAdd : List (Move KernelCalls KernelState Outcome) :=
  adds "a" "b" :: List.replicate 6 (works 0)

theorem adds_allowed (artifact_id depends_on_artifact_id : String) :
    (adds artifact_id depends_on_artifact_id).Allowed adding :=
  ⟨10, artifact_id, depends_on_artifact_id, some .hard, rfl⟩

theorem crossing_allowed : ∀ x ∈ crossing, x.Allowed adding := by
  intro x hx
  simp only [crossing, List.mem_append, List.mem_cons, List.not_mem_nil, or_false, List.mem_replicate] at hx
  rcases hx with (((rfl | rfl) | ⟨-, rfl⟩) | ⟨-, rfl⟩) | rfl | rfl
  · exact adds_allowed "a" "b"
  · exact adds_allowed "b" "a"
  · trivial
  · trivial
  · trivial
  · trivial

theorem oneAdd_allowed : ∀ x ∈ oneAdd, x.Allowed adding := by
  intro x hx
  simp only [oneAdd, List.mem_cons, List.mem_replicate] at hx
  rcases hx with rfl | ⟨-, rfl⟩
  · exact adds_allowed "a" "b"
  · trivial

theorem acyclic_of_empty (h : s.dependencies.rows = []) : Acyclic (Upstream s) := by
  have hnone : ∀ a u, ¬ Upstream s a u := by
    rintro a u ⟨x, hx, -⟩
    rw [← Relational.Table.mem_rows, h] at hx
    cases hx
  intro a ha
  obtain ⟨u, hu, -⟩ := Relation.TransGen.head'_iff.mp ha
  exact hnone a u hu

end Agency
