import MissionControl.Agency.Artifacts
import MissionControl.Interleaving.Alone

/-! # What a propagation finds

The search reaches a dependent with the severity of a path: `invalidated` along hard
dependencies only, `review_required` otherwise, and it keeps the stronger one. What
it finds is exact, in every graph. -/

namespace Agency

open Interleaving
open Relation (TransGen)

/-! ## Paths -/

/-- `d` depends on `u`. -/
def DependsOn (s : KernelState) (u d : String) : Prop :=
  ∃ x ∈ s.dependencies, x.depends_on_artifact_id = u ∧ x.artifact_id = d

/-- `d` depends on `u`, hard. -/
def HardDependsOn (s : KernelState) (u d : String) : Prop :=
  ∃ x ∈ s.dependencies, x.depends_on_artifact_id = u ∧ x.artifact_id = d ∧ x.relationship = .hard

/-- A path of dependencies leads from `u` to `d`. -/
abbrev Reaches (s : KernelState) : String → String → Prop := TransGen (DependsOn s)

/-- A path of hard dependencies leads from `u` to `d`. -/
abbrev HardReaches (s : KernelState) : String → String → Prop := TransGen (HardDependsOn s)

variable {s : KernelState} {source : String}

variable {d u : String}

theorem HardDependsOn.dependsOn (h : HardDependsOn s u d) : DependsOn s u d := by
  obtain ⟨x, hx, hu, hd, -⟩ := h
  exact ⟨x, hx, hu, hd⟩

theorem HardReaches.reaches (h : HardReaches s u d) : Reaches s u d :=
  TransGen.mono (fun _ _ => HardDependsOn.dependsOn) _ _ h

theorem mem_dependents {row : String × Relationship} : row ∈ s.dependents u ↔ ∃ x ∈ s.dependencies,
      x.depends_on_artifact_id = u ∧ x.artifact_id = row.1 ∧ x.relationship = row.2 := by
  unfold KernelState.dependents
  rw [List.mem_insertionSort, List.mem_map]
  constructor
  · rintro ⟨x, hx, rfl⟩
    obtain ⟨hx, hu⟩ := List.mem_filter.mp hx
    exact ⟨x, hx, of_decide_eq_true hu, rfl, rfl⟩
  · rintro ⟨x, hx, hu, hd, hr⟩
    exact ⟨x, List.mem_filter.mpr ⟨hx, decide_eq_true hu⟩, Prod.ext hd hr⟩

theorem hardDependsOn_iff : HardDependsOn s u d ↔ (d, .hard) ∈ s.dependents u := by
  rw [mem_dependents]
  rfl

theorem dependsOn_iff : DependsOn s u d ↔ ∃ rel, (d, rel) ∈ s.dependents u := by
  constructor
  · rintro ⟨x, hx, hu, hd⟩
    exact ⟨x.relationship, mem_dependents.mpr ⟨x, hx, hu, hd, rfl⟩⟩
  · rintro ⟨rel, hrow⟩
    obtain ⟨x, hx, hu, hd, -⟩ := mem_dependents.mp hrow
    exact ⟨x, hx, hu, hd⟩

/-! ## The search -/

variable {st : ArtifactStatus}

theorem Severities.get_put {severity : Severities} {d' : String} :
    Severities.get (severity.put (d, st)) d' = if d = d' then some st else severity.get d' := by
  unfold Severities.get
  rw [Relational.Table.find?_put]
  split <;> rfl

/-- A path gives `d` this severity. -/
def Justified (s : KernelState) (source d : String) (st : ArtifactStatus) : Prop :=
  st = .invalidated ∧ HardReaches s source d ∨ st = .review_required ∧ Reaches s source d

/-- The severity of `d` is at least `st`. -/
def Covers (severity : Severities) (d : String) (st : ArtifactStatus) : Prop :=
  severity.get d = some .invalidated ∨ severity.get d = some st

/-- The search before a round. What is in the queue or was visited was reached by a
    path; what was found is justified, and is in the queue or was visited. -/
structure Search (s : KernelState) (source : String) (visited : List (String × ArtifactStatus))
    (severity : Severities) (queue : List (String × ArtifactStatus)) : Prop where
  start : (source, .invalidated) ∈ visited ∨ (source, .invalidated) ∈ queue
  reached : ∀ x, x ∈ visited ∨ x ∈ queue → x = (source, .invalidated) ∨ Justified s source x.1 x.2
  found : ∀ d st, severity.get d = some st → Justified s source d st
  pending : ∀ d st, severity.get d = some st → (d, st) ∈ visited ∨ (d, st) ∈ queue

/-- The dependents of what was visited are covered. -/
def Expanded (s : KernelState) (visited : List (String × ArtifactStatus)) (severity : Severities) :
    Prop :=
  ∀ x ∈ visited, ∀ row ∈ s.dependents x.1, Covers severity row.1 (nextSeverity x.2 row.2)

variable {visited queue : List (String × ArtifactStatus)} {severity : Severities}
  {current : String × ArtifactStatus} {row : String × Relationship}

theorem Search.init : Search s source [] .empty [(source, .invalidated)] where
  start := .inr (List.mem_singleton.mpr rfl)
  reached := by
    rintro x (hx | hx)
    · cases hx
    · exact .inl (List.mem_singleton.mp hx)
  found := by
    intro d st h
    cases h
  pending := by
    intro d st h
    cases h

theorem justified_next (hcurrent : current = (source, .invalidated) ∨
    Justified s source current.1 current.2) (hrow : row ∈ s.dependents current.1) :
    Justified s source row.1 (nextSeverity current.2 row.2) := by
  have hedge : DependsOn s current.1 row.1 := dependsOn_iff.mpr ⟨row.2, hrow⟩
  have hreaches : Reaches s source row.1 := by
    rcases hcurrent with rfl | ⟨-, hhard⟩ | ⟨-, hreach⟩
    · exact .single hedge
    · exact hhard.reaches.tail hedge
    · exact hreach.tail hedge
  unfold nextSeverity
  split
  · rename_i hnext
    have hhard : HardDependsOn s current.1 row.1 := by
      rw [hardDependsOn_iff, ← hnext.2]
      exact hrow
    rcases hcurrent with rfl | ⟨-, hpath⟩ | ⟨hst, -⟩
    · exact .inl ⟨rfl, .single hhard⟩
    · exact .inl ⟨rfl, hpath.tail hhard⟩
    · rw [hst] at hnext
      cases hnext.1
  · exact .inr ⟨rfl, hreaches⟩

theorem Search.put (h : Search s source visited severity queue) (hst : Justified s source d st) :
    Search s source visited (severity.put (d, st)) (queue ++ [(d, st)]) where
  start := h.start.imp_right (List.mem_append_left _)
  reached := by
    rintro x (hx | hx)
    · exact h.reached x (.inl hx)
    · rcases List.mem_append.mp hx with hx | hx
      · exact h.reached x (.inr hx)
      · obtain rfl := List.mem_singleton.mp hx
        exact .inr hst
  found := by
    intro d' st' hget
    rw [Severities.get_put] at hget
    split at hget
    · rename_i hd
      subst hd
      cases hget
      exact hst
    · exact h.found d' st' hget
  pending := by
    intro d' st' hget
    rw [Severities.get_put] at hget
    split at hget
    · rename_i hd
      subst hd
      cases hget
      exact .inr (List.mem_append_right _ (List.mem_singleton.mpr rfl))
    · exact (h.pending d' st' hget).imp_right (List.mem_append_left _)

theorem Covers.put {d' : String} {st' : ArtifactStatus} (h : Covers severity d st)
    (hst' : d' = d → st' = .invalidated ∨ st' = st) : Covers (severity.put (d', st')) d st := by
  unfold Covers
  rw [Severities.get_put]
  split
  · rename_i hd
    exact (hst' hd).imp (congrArg some) (congrArg some)
  · exact h

/-- **One row of the inner loop.** -/
theorem Search.visitRow (h : Search s source visited severity queue)
    (hrow : Justified s source row.1 (nextSeverity current.2 row.2)) :
    Search s source visited (Agency.visitRow current.2 (severity, queue) row).1
        (Agency.visitRow current.2 (severity, queue) row).2 ∧
      Covers (Agency.visitRow current.2 (severity, queue) row).1 row.1
        (nextSeverity current.2 row.2) ∧
      ∀ d st, Covers severity d st → Covers (Agency.visitRow current.2 (severity, queue) row).1 d st := by
  have hnew : ∀ {st}, Covers (severity.put (row.1, st)) row.1 st := by
    intro st
    refine .inr ?_
    rw [Severities.get_put, if_pos rfl]
  unfold Agency.visitRow
  dsimp only
  split
  · rename_i hnone
    refine ⟨h.put hrow, hnew, fun d st hcovers => hcovers.put fun hd => ?_⟩
    subst hd
    rcases hcovers with hget | hget <;> rw [hnone] at hget <;> cases hget
  · rename_i prior hprior
    split
    · rename_i hkeep
      refine ⟨h, ?_, fun _ _ => id⟩
      unfold Covers
      rw [hprior]
      exact hkeep.imp (congrArg some) (congrArg some)
    · rename_i hkeep
      split
      · rename_i hupgrade
        rw [hupgrade.2] at hrow
        refine ⟨h.put hrow, .inl ?_, fun d st hcovers => hcovers.put fun _ => .inl rfl⟩
        rw [Severities.get_put, if_pos rfl]
      · rename_i hupgrade
        -- a severity is `invalidated` or `review_required`, so this is no case
        rw [not_or] at hkeep
        rcases h.found _ _ hprior with ⟨hst, -⟩ | ⟨hst, -⟩
        · exact absurd hst hkeep.1
        · rcases hrow with ⟨hnext, -⟩ | ⟨hnext, -⟩
          · exact absurd ⟨hst, hnext⟩ hupgrade
          · exact absurd (hst.trans hnext.symm) hkeep.2

theorem Search.visitRows {rows : List (String × Relationship)} (h : Search s source visited severity queue)
    (hrows : ∀ row ∈ rows, Justified s source row.1 (nextSeverity current.2 row.2)) :
    Search s source visited (rows.foldl (Agency.visitRow current.2) (severity, queue)).1
        (rows.foldl (Agency.visitRow current.2) (severity, queue)).2 ∧
      (∀ row ∈ rows, Covers (rows.foldl (Agency.visitRow current.2) (severity, queue)).1 row.1
        (nextSeverity current.2 row.2)) ∧ ∀ d st, Covers severity d st →
        Covers (rows.foldl (Agency.visitRow current.2) (severity, queue)).1 d st := by
  induction rows generalizing severity queue with
  | nil => exact ⟨h, by simp, fun _ _ => id⟩
  | cons row rows ih =>
    rw [List.forall_mem_cons] at hrows
    obtain ⟨hsearch, hcovers, hmono⟩ := h.visitRow hrows.1
    obtain ⟨hsearch', hcovers', hmono'⟩ := ih hsearch hrows.2
    rw [List.foldl_cons]
    refine ⟨hsearch', ?_, fun d st hd => hmono' d st (hmono d st hd)⟩
    rw [List.forall_mem_cons]
    exact ⟨hmono' _ _ hcovers, hcovers'⟩

theorem Search.skip (h : Search s source visited severity (current :: queue))
    (hvisited : current ∈ visited) : Search s source visited severity queue := by
  have hdrop : ∀ x, x ∈ visited ∨ x ∈ current :: queue → x ∈ visited ∨ x ∈ queue := by
    rintro x (hx | hx)
    · exact .inl hx
    · rcases List.mem_cons.mp hx with rfl | hx
      · exact .inl hvisited
      · exact .inr hx
  exact
    { start := hdrop _ h.start
      reached := fun x hx => h.reached x (hx.imp_right (List.mem_cons_of_mem _))
      found := h.found
      pending := fun d st hget => hdrop _ (h.pending d st hget) }

theorem Search.visit (h : Search s source visited severity (current :: queue)) :
    Search s source (current :: visited) severity queue := by
  have hmove : ∀ x, x ∈ visited ∨ x ∈ current :: queue → x ∈ current :: visited ∨ x ∈ queue := by
    rintro x (hx | hx)
    · exact .inl (List.mem_cons_of_mem _ hx)
    · rcases List.mem_cons.mp hx with rfl | hx
      · exact .inl List.mem_cons_self
      · exact .inr hx
  refine
    { start := hmove _ h.start
      reached := fun x hx => h.reached x ?_
      found := h.found
      pending := fun d st hget => hmove _ (h.pending d st hget) }
  rcases hx with hx | hx
  · rcases List.mem_cons.mp hx with rfl | hx
    · exact .inr List.mem_cons_self
    · exact .inl hx
  · exact .inr (List.mem_cons_of_mem _ hx)

/-- **The severities are exact**: `invalidated` along hard paths, `review_required`
    along the others. -/
def Exact (s : KernelState) (source : String) (severity : Severities) : Prop :=
  ∀ d, (severity.get d = some .invalidated ↔ HardReaches s source d) ∧
    (severity.get d = some .review_required ↔ Reaches s source d ∧ ¬ HardReaches s source d) ∧
    ∀ st, severity.get d = some st → st = .invalidated ∨ st = .review_required

theorem Search.exact (h : Search s source visited severity [])
    (hexpanded : Expanded s visited severity) : Exact s source severity := by
  have hvisited : ∀ {d st}, severity.get d = some st → (d, st) ∈ visited := by
    intro d st hget
    exact (h.pending d st hget).resolve_right (by simp)
  have hstart : (source, .invalidated) ∈ visited := h.start.resolve_right (by simp)
  have hhard : ∀ {d}, HardReaches s source d → severity.get d = some .invalidated := by
    intro d hd
    induction hd with
    | single hedge =>
      have hcovers := hexpanded _ hstart _ (hardDependsOn_iff.mp hedge)
      exact hcovers.elim id id
    | tail _ hedge ih =>
      have hcovers := hexpanded _ (hvisited ih) _ (hardDependsOn_iff.mp hedge)
      exact hcovers.elim id id
  have hany : ∀ {d}, Reaches s source d → ∃ st, severity.get d = some st := by
    intro d hd
    induction hd with
    | single hedge =>
      obtain ⟨rel, hrow⟩ := dependsOn_iff.mp hedge
      exact (hexpanded _ hstart _ hrow).elim (⟨_, ·⟩) (⟨_, ·⟩)
    | tail _ hedge ih =>
      obtain ⟨st, hst⟩ := ih
      obtain ⟨rel, hrow⟩ := dependsOn_iff.mp hedge
      exact (hexpanded _ (hvisited hst) _ hrow).elim (⟨_, ·⟩) (⟨_, ·⟩)
  refine fun d => ⟨⟨fun hget => ?_, hhard⟩, ⟨fun hget => ⟨?_, fun hd => ?_⟩, fun hd => ?_⟩,
    fun st hget => (h.found d st hget).imp And.left And.left⟩
  · exact (h.found d _ hget).elim And.right fun hst => by cases hst.1
  · exact (h.found d _ hget).elim (fun hst => by cases hst.1) And.right
  · rw [hhard hd] at hget
    cases hget
  · obtain ⟨st, hst⟩ := hany hd.1
    rcases h.found d st hst with ⟨-, hpath⟩ | ⟨rfl, -⟩
    · exact absurd hpath hd.2
    · exact hst

/-! ## The loop -/

/-- The calls that write neither artifacts nor dependencies. -/
def Call.Reads : Call → Prop
  | .insert_dependency _ => False
  | .set_statuses _ _ _ => False
  | .revise _ _ _ _ _ _ => False
  | _ => True

variable {c : Call}

theorem Call.Reads.run (hc : c.Reads) (now : Instant) (s : KernelState) : ∃ r, c.run now s = .ok (r, s) := by
  cases c with
  | insert_dependency d => cases hc
  | set_statuses affected now engagement_id => cases hc
  | revise => cases hc
  | now => exact ⟨now, rfl⟩
  | get_artifact id => exact ⟨s.artifacts.find? id, rfl⟩
  | get_dependency id id' => exact ⟨s.dependencies.find? (id, id'), rfl⟩
  | upstream id => exact ⟨s.upstream id, rfl⟩
  | dependents id => exact ⟨s.dependents id, rfl⟩
  | record_trust_policy id => exact ⟨(), rfl⟩
  | settle_impacted ids ref => exact ⟨(), rfl⟩

theorem Call.Reads.quiet (hc : c.Reads) : Quiet exec (ask c) := by
  refine Quiet.perform fun o s => ?_
  unfold Exec.after
  split
  · rename_i r s' heq
    unfold exec at heq
    split at heq
    · cases heq
    · obtain ⟨r', hr'⟩ := hc.run o.now s
      rw [hr'] at heq
      cases heq
      rfl
  · rfl

theorem of_ask {s s' : KernelState} {r : c.Resp} (h : Alone exec (ask c) s (.ok r) s') :
    ∃ now, c.run now s = .ok (r, s') := by
  obtain ⟨o, hanswer, rfl⟩ := h.of_perform
  have hexec := Exec.of_answer hanswer.symm
  refine ⟨o.now, ?_⟩
  unfold exec at hexec
  split at hexec
  · cases hexec
  · rename_i hfault
    rw [hexec]
    congr 2

theorem quiet_dependents (id : String) : Quiet exec (ask (.dependents id)) :=
  Call.Reads.quiet (c := .dependents id) trivial

theorem propagateFrom_exact {fuel : ℕ} {found : Severities} {s' : KernelState}
    (hsearch : Search s source visited severity queue) (hexpanded : Expanded s visited severity)
    (h : Alone exec (propagateFrom fuel queue visited severity) s (.ok found) s') : Exact s source found := by
  induction fuel generalizing queue visited severity with
  | zero => cases h.of_raise.1
  | succ fuel ih =>
    cases queue with
    | nil =>
      cases h.of_ret.1
      exact hsearch.exact hexpanded
    | cons current queue =>
      unfold propagateFrom at h
      split at h
      · rename_i hvisited
        exact ih (hsearch.skip hvisited) hexpanded h
      · rcases (quiet_dependents current.1).of_bind h with ⟨e, he, -⟩ | ⟨rows, hread, hrest⟩
        · cases he
        obtain ⟨now, hrows⟩ := of_ask hread
        cases hrows
        have hjustified : ∀ row ∈ s.dependents current.1,
            Justified s source row.1 (nextSeverity current.2 row.2) := fun row hrow =>
          justified_next (hsearch.reached current (.inr List.mem_cons_self)) hrow
        obtain ⟨hsearch', hcovers, hmono⟩ := hsearch.visit.visitRows hjustified
        refine ih hsearch' ?_ hrest
        intro x hx row hrow
        rcases List.mem_cons.mp hx with rfl | hx
        · exact hcovers row hrow
        · exact hmono _ _ (hexpanded x hx row hrow)

theorem quiet_propagateFrom (fuel : ℕ) (queue visited : List (String × ArtifactStatus))
    (severity : Severities) : Quiet exec (propagateFrom fuel queue visited severity) := by
  induction fuel generalizing queue visited severity with
  | zero => exact Quiet.raise _
  | succ fuel ih =>
    cases queue with
    | nil => exact Quiet.ret _
    | cons current queue =>
      unfold propagateFrom
      split
      · exact ih _ _ _
      · exact (quiet_dependents current.1).bind fun rows => ih _ _ _

theorem only_propagateFrom (fuel : ℕ) (queue visited : List (String × ArtifactStatus))
    (severity : Severities) : (propagateFrom fuel queue visited severity).Only Call.Reads := by
  induction fuel generalizing queue visited severity with
  | zero => trivial
  | succ fuel ih =>
    cases queue with
    | nil => trivial
    | cons current queue =>
      unfold propagateFrom
      split
      · exact ih _ _ _
      · exact Program.Only.bind (Program.only_perform trivial) fun rows =>
          ih _ _ _

end Agency
