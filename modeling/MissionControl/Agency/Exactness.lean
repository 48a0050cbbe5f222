import MissionControl.Agency.Dependencies
import MissionControl.Agency.Invalidation
import MissionControl.Interleaving.Solo

/-! # A propagation marks exactly

* **It ends** (`propagateFrom_ends`): an entry is queued only when a severity grows, which it does at most
  twice for each dependent, in a graph with cycles too.
* **It marks what the paths say** (`propagation_exact`), and nothing else.
* **Its engagement is that of the graph** (`oneEngagement_of_run`): a dependency is added within an engagement
  only, so no artifact that a path reaches is left out. -/

namespace Agency

open Interleaving
open Interleaving.Program (Exchange Only only_perform)

variable {s s' : KernelState} {source : String} {visited queue : List (String × ArtifactStatus)}
  {severity : Severities} {current : String × ArtifactStatus} {row : String × Relationship}

/-! ## The search ends -/

/-- How often the severity of a dependent can still grow. -/
def room : Option ArtifactStatus → ℕ
  | none => 2
  | some .review_required => 1
  | some _ => 0

/-- How often a severity can still grow. -/
def rooms (s : KernelState) (severity : Severities) : ℕ :=
  (s.dependencies.rows.map fun x => room (severity.get x.artifact_id)).sum

theorem rooms_empty (s : KernelState) : rooms s .empty = s.dependencies.rows.length * 2 := by
  unfold rooms
  have hroom : (s.dependencies.rows.map fun x => room (Severities.get .empty x.artifact_id)) =
      s.dependencies.rows.map fun _ => 2 := rfl
  rw [hroom, List.map_const', List.sum_replicate, smul_eq_mul]

variable {d : String}

variable {st : ArtifactStatus}

theorem rooms_put (hd : ∃ x ∈ s.dependencies.rows, x.artifact_id = d)
    (hst : room (some st) < room (severity.get d)) : rooms s (severity.put (d, st)) < rooms s severity := by
  have hget : ∀ x : Dependency, x.artifact_id = d →
      room (Severities.get (severity.put (d, st)) x.artifact_id) < room (severity.get x.artifact_id) := by
    intro x hx
    rw [Severities.get_put, if_pos hx.symm, hx]
    exact hst
  apply List.sum_lt_sum
  · intro x _
    by_cases hx : x.artifact_id = d
    · exact (hget x hx).le
    · rw [Severities.get_put, if_neg (Ne.symm hx)]
  · obtain ⟨x, hx, hid⟩ := hd
    exact ⟨x, hx, hget x hid⟩

theorem room_next_lt (st : ArtifactStatus) (relationship : Relationship) :
    room (some (nextSeverity st relationship)) < 2 := by
  unfold nextSeverity
  split <;> decide

/-- **One row of the inner loop** queues an entry only where a severity grows. -/
theorem Search.visitRow_rooms (h : Search s source visited severity queue)
    (hrow : row ∈ s.dependents current.1) (hst : Justified s source row.1 (nextSeverity current.2 row.2)) :
    (Agency.visitRow current.2 (severity, queue) row).2.length +
        rooms s (Agency.visitRow current.2 (severity, queue) row).1 ≤ queue.length + rooms s severity := by
  have hdependent : ∃ x ∈ s.dependencies.rows, x.artifact_id = row.1 := by
    obtain ⟨x, hx, -, hid, -⟩ := mem_dependents.mp hrow
    exact ⟨x, hx, hid⟩
  have hput : ∀ st, room (some st) < room (severity.get row.1) →
      (queue ++ [(row.1, st)]).length + rooms s (severity.put (row.1, st)) ≤ queue.length + rooms s severity := by
    intro st hlt
    have hrooms := rooms_put hdependent hlt
    rw [List.length_append, List.length_singleton]
    omega
  unfold Agency.visitRow
  dsimp only
  split
  · rename_i hnone
    apply hput
    rw [hnone]
    exact room_next_lt current.2 row.2
  · rename_i prior hprior
    split
    · exact le_refl _
    · rename_i hkeep
      rw [not_or] at hkeep
      split
      · rename_i hupgrade
        apply hput
        rw [hprior, hupgrade.1]
        decide
      · rename_i hupgrade
        -- no third severity was ever found
        rcases h.found _ _ hprior with ⟨hinvalidated, -⟩ | ⟨hreview, -⟩
        · exact absurd hinvalidated hkeep.1
        · rcases hst with ⟨hnext, -⟩ | ⟨hnext, -⟩
          · exact absurd ⟨hreview, hnext⟩ hupgrade
          · exact absurd (hreview.trans hnext.symm) hkeep.2

theorem Search.visitRows_rooms {rows : List (String × Relationship)} (h : Search s source visited severity queue)
    (hrows : ∀ row ∈ rows, row ∈ s.dependents current.1 ∧ Justified s source row.1 (nextSeverity current.2 row.2)) :
    (rows.foldl (Agency.visitRow current.2) (severity, queue)).2.length +
        rooms s (rows.foldl (Agency.visitRow current.2) (severity, queue)).1 ≤ queue.length + rooms s severity := by
  induction rows generalizing severity queue with
  | nil => exact le_refl _
  | cons row rows ih =>
    rw [List.forall_mem_cons] at hrows
    obtain ⟨⟨hrow, hst⟩, hrest⟩ := hrows
    have hfirst := h.visitRow_rooms hrow hst
    have hlater := ih (h.visitRow hst).1 hrest
    rw [List.foldl_cons]
    exact hlater.trans hfirst

variable {l : List (OwnCall KernelCalls KernelState Outcome)} {α : Type}

variable {c : Call}

variable {f : c.Resp → Kernel α}

theorem solo_ask {r : Except KernelError α} (h : Solo exec ((ask c).bind f) s l r s')
    (hl : ∀ x ∈ l, x.outside.fault = false) :
    ∃ o l', l = ⟨s, c, o⟩ :: l' ∧ ((∃ a s₁, c.run o.now s = .ok (a, s₁) ∧ Solo exec (f a) s₁ l' r s') ∨
      ∃ e, c.run o.now s = .error e ∧ r = .error e ∧ s' = s) := by
  obtain ⟨o, l', rfl, hend⟩ := h.of_ask
  have hexec : exec c o s = c.run o.now s := by
    unfold exec
    rw [hl _ List.mem_cons_self]
    rfl
  refine ⟨o, l', rfl, ?_⟩
  rw [hexec] at hend
  rcases hend with hok | ⟨e, herr, -, rfl, rfl⟩
  · exact .inl hok
  · exact .inr ⟨e, herr, rfl, rfl⟩

variable {fuel : ℕ}

/-- **The search ends**, with fewer rounds than its queue and the room that is left. -/
theorem propagateFrom_ends {r : Except KernelError Severities}
    (hsearch : Search s source visited severity queue) (hfuel : queue.length + rooms s severity < fuel)
    (h : Solo exec (propagateFrom fuel queue visited severity) s l r s') (hl : ∀ x ∈ l, x.outside.fault = false) :
    ∃ found, r = .ok found := by
  induction fuel generalizing queue visited severity l with
  | zero => omega
  | succ fuel ih =>
    cases queue with
    | nil =>
      obtain ⟨-, rfl, -⟩ := h.of_ret
      exact ⟨severity, rfl⟩
    | cons current queue =>
      rw [List.length_cons] at hfuel
      unfold propagateFrom at h
      split at h
      · rename_i hvisited
        exact ih (hsearch.skip hvisited) (by omega) h hl
      · obtain ⟨o, l', rfl, hrest⟩ := solo_ask h hl
        rcases hrest with ⟨rows, s₁, hrun, hrest⟩ | ⟨e, hrun, -⟩
        · cases hrun
          have hjustified : ∀ row ∈ s.dependents current.1,
              row ∈ s.dependents current.1 ∧ Justified s source row.1 (nextSeverity current.2 row.2) :=
            fun row hrow => ⟨hrow, justified_next (hsearch.reached current (.inr List.mem_cons_self)) hrow⟩
          have hrooms := hsearch.visit.visitRows_rooms hjustified
          have hnext := (hsearch.visit.visitRows fun row hrow => (hjustified row hrow).2).1
          exact ih hnext (by omega) hrest fun x hx => hl x (List.mem_cons_of_mem _ hx)
        · cases hrun

/-! ## What is written -/

/-- The artifact with the status of a propagation. -/
def Artifact.mark (st : ArtifactStatus) (now : Instant) (a : Artifact) : Artifact :=
  { a with status := st, updated_at := now }

variable {affected : List (String × ArtifactStatus)}

variable {now : Instant} {engagement_id : String}

theorem find?_setStatuses_of_notMem (hd : d ∉ affected.map Prod.fst) :
    (affected.foldl (KernelState.setStatus · now engagement_id) s).artifacts.find? d = s.artifacts.find? d := by
  induction affected generalizing s with
  | nil => rfl
  | cons x affected ih =>
    rw [List.map_cons, List.mem_cons, not_or] at hd
    rw [List.foldl_cons, ih hd.2]
    unfold KernelState.setStatus
    rw [Relational.Table.find?_update, if_neg hd.1]

theorem find?_setStatuses_of_mem (hnodup : (affected.map Prod.fst).Nodup) (hmem : (d, st) ∈ affected) :
    (affected.foldl (KernelState.setStatus · now engagement_id) s).artifacts.find? d =
      (s.artifacts.find? d).map fun a => if a.engagement_id = engagement_id then a.mark st now else a := by
  induction affected generalizing s with
  | nil => cases hmem
  | cons x affected ih =>
    rw [List.map_cons, List.nodup_cons] at hnodup
    rw [List.foldl_cons]
    rcases List.mem_cons.mp hmem with rfl | hmem
    · rw [find?_setStatuses_of_notMem hnodup.1]
      unfold KernelState.setStatus
      rw [Relational.Table.find?_update, if_pos rfl]
      rfl
    · have hne : d ≠ x.1 := by
        rintro rfl
        exact hnodup.1 (List.mem_map.mpr ⟨_, hmem, rfl⟩)
      rw [ih hnodup.2 hmem]
      unfold KernelState.setStatus
      rw [Relational.Table.find?_update, if_neg hne]

/-! ## The engagement of a graph -/

/-- A dependency joins two artifacts of one engagement. -/
def OneEngagement (s : KernelState) : Prop :=
  ∀ x ∈ s.dependencies, ∃ a u, s.artifacts.find? x.artifact_id = some a ∧
    s.artifacts.find? x.depends_on_artifact_id = some u ∧ a.engagement_id = u.engagement_id

variable {a : Artifact}

theorem OneEngagement.reaches (h : OneEngagement s) (ha : s.artifacts.find? source = some a)
    (hd : Reaches s source d) : ∃ b, s.artifacts.find? d = some b ∧ b.engagement_id = a.engagement_id := by
  have hedge : ∀ {u d : String} {b : Artifact}, s.artifacts.find? u = some b → DependsOn s u d →
      ∃ b', s.artifacts.find? d = some b' ∧ b'.engagement_id = b.engagement_id := by
    rintro u d b hb ⟨x, hx, rfl, rfl⟩
    obtain ⟨b', u', hb', hu', hsame⟩ := h x hx
    rw [hb] at hu'
    cases hu'
    exact ⟨b', hb', hsame⟩
  induction hd with
  | single hdepends => exact hedge ha hdepends
  | tail _ hdepends ih =>
    obtain ⟨b, hb, hsame⟩ := ih
    obtain ⟨b', hb', hsame'⟩ := hedge hb hdepends
    exact ⟨b', hb', hsame'.trans hsame⟩

/-! ### Its rows come from one operation -/

variable {hash_payload : List (String × ArtifactStatus) → String}

theorem mem_insertDependency {d : Dependency} (h : s.insertDependency d = .ok s') :
    s'.artifacts = s.artifacts ∧ ∀ x, x ∈ s'.dependencies ↔ x ∈ s.dependencies ∨ x = d := by
  unfold KernelState.insertDependency at h
  split at h
  · rename_i hnew
    split at h
    · cases h
    · cases h
      exact ⟨rfl, fun x => Relational.Table.mem_insert (h := hnew)⟩
  · cases h

/-- The calls that insert no dependency. -/
def Call.Keeps : Call → Prop
  | .insert_dependency _ => False
  | _ => True

theorem keeps_of_reads (hc : c.Reads) : c.Keeps := by
  cases c with
  | insert_dependency d => exact hc.elim
  | _ => trivial

theorem only_propagate (fuel : ℕ) (artifact_id : String) :
    (propagate_artifact_change hash_payload fuel artifact_id).Only Call.Keeps := by
  refine Only.bind (only_perform trivial) fun source => ?_
  cases source with
  | none => trivial
  | some source =>
    refine Only.bind ((only_propagateFrom ..).mono fun _ => keeps_of_reads) fun severity => ?_
    refine Only.bind (only_perform trivial) fun now => ?_
    refine Only.bind (only_perform trivial) fun _ => ?_
    split
    · trivial
    · exact Only.bind (only_perform trivial) fun _ => trivial

/-! ## The marks -/

/-- **What a propagation leaves**: the artifacts on hard paths are invalidated, those only other paths reach are
    sent to review, and nothing else changes. -/
structure Marks (s : KernelState) (source : String) (now : Instant) (s' : KernelState) : Prop where
  invalidated : ∀ d, HardReaches s source d →
    s'.artifacts.find? d = (s.artifacts.find? d).map (Artifact.mark .invalidated now)
  review_required : ∀ d, Reaches s source d → ¬ HardReaches s source d →
    s'.artifacts.find? d = (s.artifacts.find? d).map (Artifact.mark .review_required now)
  others : ∀ d, ¬ Reaches s source d → s'.artifacts.find? d = s.artifacts.find? d
  dependencies : s'.dependencies = s.dependencies

theorem marks_setStatuses (hgraph : OneEngagement s) (ha : s.artifacts.find? source = some a)
    (hexact : Exact s source severity) (now : Instant) : Marks s source now
      ((severity.rows.insertionSort (·.1 ≤ ·.1)).foldl (KernelState.setStatus · now a.engagement_id) s) := by
  have hnodup : ((severity.rows.insertionSort (·.1 ≤ ·.1)).map Prod.fst).Nodup :=
    ((List.perm_insertionSort _ severity.rows).map Prod.fst).nodup_iff.mpr severity.nodup
  have hmark : ∀ {d : String} {st : ArtifactStatus}, severity.get d = some st → Reaches s source d →
      ((severity.rows.insertionSort (·.1 ≤ ·.1)).foldl (KernelState.setStatus · now a.engagement_id) s).artifacts.find?
        d = (s.artifacts.find? d).map (Artifact.mark st now) := by
    intro d st hget hd
    obtain ⟨b, hb, hsame⟩ := hgraph.reaches ha hd
    rw [find?_setStatuses_of_mem hnodup (Severities.mem_sorted.mpr hget), hb, Option.map_some, Option.map_some,
      if_pos hsame]
  refine ⟨fun d hd => ?_, fun d hd hnot => ?_, fun d hd => ?_, setStatuses_dependencies ..⟩
  · exact hmark ((hexact d).1.mpr hd) hd.reaches
  · exact hmark ((hexact d).2.1.mpr ⟨hd, hnot⟩) hd
  · -- what has a severity is reached
    apply find?_setStatuses_of_notMem
    intro hmem
    obtain ⟨⟨d', st⟩, hst, rfl⟩ := List.mem_map.mp hmem
    have hget := Severities.mem_sorted.mp hst
    by_cases hhard : HardReaches s source d'
    · exact hd hhard.reaches
    · rcases (hexact d').2.2 st hget with rfl | rfl
      · exact hhard ((hexact d').1.mp hget)
      · exact hd ((hexact d').2.1.mp hget).1

theorem solo_step {a : α} (h : Solo exec ((ask c).bind f) s l (.ok a) s') :
    ∃ (o : Outcome) (x : c.Resp) (s₁ : KernelState) (l' : List (OwnCall KernelCalls KernelState Outcome)),
      c.run o.now s = .ok (x, s₁) ∧ Solo exec (f x) s₁ l' (.ok a) s' := by
  obtain ⟨o, l', -, ⟨x, s₁, hexec, hrest⟩ | ⟨e, -, -, hr, -⟩⟩ := h.of_ask
  · unfold exec at hexec
    split at hexec
    · cases hexec
    · exact ⟨o, x, s₁, l', hexec, hrest⟩
  · cases hr

theorem propagate_spec
    (h : Solo exec (propagate_artifact_change hash_payload fuel source) s l (.ok affected) s') :
    ∃ (a : Artifact) (severity : Severities) (now : Instant), s.artifacts.find? source = some a ∧
      Exact s source severity ∧ affected = severity.rows.insertionSort (·.1 ≤ ·.1) ∧
        s' = affected.foldl (KernelState.setStatus · now a.engagement_id) s := by
  obtain ⟨o, found, s₁, l₁, hrun, hfound⟩ := solo_step h
  cases hrun
  cases hsource : s.artifacts.find? source with
  | none =>
    rw [hsource] at hfound
    cases hfound.of_raise.2.1
  | some a =>
    rw [hsource] at hfound
    rcases hfound.of_bind with ⟨e, -, he⟩ | ⟨severity, s₁, l₂, l₃, -, hloop, hwrite⟩
    · cases he
    obtain rfl := quiet_propagateFrom _ _ _ _ _ _ _ hloop.alone
    have hexact : Exact s₁ source severity := propagateFrom_exact .init (by simp [Expanded]) hloop.alone
    obtain ⟨o, now, s₂, l₄, hrun, hset⟩ := solo_step hwrite
    cases hrun
    obtain ⟨o', x, s₂, l₅, hrun, hrecord⟩ := solo_step hset
    cases hrun
    refine ⟨a, severity, o.now, rfl, hexact, ?_⟩
    split at hrecord
    · obtain ⟨-, hr, rfl⟩ := hrecord.of_ret
      cases hr
      exact ⟨rfl, rfl⟩
    · obtain ⟨o'', x, s₂, l₆, hrun, hret⟩ := solo_step hrecord
      cases hrun
      obtain ⟨-, hr, rfl⟩ := hret.of_ret
      cases hr
      exact ⟨rfl, rfl⟩

theorem mem_affected_iff
    (h : Solo exec (propagate_artifact_change hash_payload fuel source) s l (.ok affected) s') (d : String) :
    d ∈ affected.map Prod.fst ↔ Reaches s source d := by
  obtain ⟨a, severity, now, -, hexact, rfl, -⟩ := propagate_spec h
  constructor
  · intro hmem
    obtain ⟨⟨d', st⟩, hst, rfl⟩ := List.mem_map.mp hmem
    have hget := Severities.mem_sorted.mp hst
    by_cases hhard : HardReaches s source d'
    · exact hhard.reaches
    · rcases (hexact d').2.2 st hget with rfl | rfl
      · exact absurd ((hexact d').1.mp hget) hhard
      · exact ((hexact d').2.1.mp hget).1
  · intro hd
    have hany : ∃ st, severity.get d = some st := by
      by_cases hhard : HardReaches s source d
      · exact ⟨_, (hexact d).1.mpr hhard⟩
      · exact ⟨_, (hexact d).2.1.mpr ⟨hd, hhard⟩⟩
    obtain ⟨st, hst⟩ := hany
    exact List.mem_map.mpr ⟨(d, st), Severities.mem_sorted.mpr hst, rfl⟩

theorem propagate_returns (hsource : s.artifacts.find? source = some a)
    (hfuel : s.dependencies.rows.length * 2 + 1 < fuel)
    {r : Except KernelError (List (String × ArtifactStatus))}
    (h : Solo exec (propagate_artifact_change hash_payload fuel source) s l r s')
    (hl : ∀ x ∈ l, x.outside.fault = false) : ∃ affected, r = .ok affected := by
  obtain ⟨o, l, rfl, ⟨found, s₁, hrun, hfound⟩ | ⟨e, hrun, -⟩⟩ := solo_ask h hl
  swap
  · cases hrun
  cases hrun
  rw [hsource] at hfound
  have hl := (List.forall_mem_cons.mp hl).2
  rcases hfound.of_bind with ⟨e, hloop, -⟩ | ⟨severity, s₁, l₁, l₂, rfl, hloop, hwrite⟩
  · obtain ⟨found, hfound⟩ := propagateFrom_ends .init
      (by rw [rooms_empty, List.length_singleton]; omega) hloop hl
    cases hfound
  have hl := (List.forall_mem_append.mp hl).2
  obtain ⟨o, l, rfl, ⟨now, s₂, hrun, hset⟩ | ⟨e, hrun, -⟩⟩ := solo_ask hwrite hl
  swap
  · cases hrun
  have hl := (List.forall_mem_cons.mp hl).2
  obtain ⟨o', l, rfl, ⟨x, s₃, hrun, hrecord⟩ | ⟨e, hrun, -⟩⟩ := solo_ask hset hl
  swap
  · cases hrun
  have hl := (List.forall_mem_cons.mp hl).2
  split at hrecord
  · exact ⟨_, hrecord.of_ret.2.1⟩
  · obtain ⟨o'', l, rfl, ⟨x, s₄, hrun, hret⟩ | ⟨e, hrun, -⟩⟩ := solo_ask hrecord hl
    · exact ⟨_, hret.of_ret.2.1⟩
    · cases hrun

/-- Two artifacts depend on each other, hard; a third depends on one of them, soft. -/
def cyclic : KernelState where
  artifacts := ((Relational.Table.empty.put (approved "left")).put (approved "right")).put (approved "down")
  dependencies := ((Relational.Table.empty.put ⟨"left", "right", .hard, 0⟩).put ⟨"right", "left", .hard, 0⟩).put
    ⟨"down", "right", .soft, 0⟩

theorem cyclic_oneEngagement : OneEngagement cyclic := by
  have hall : cyclic.dependencies.rows.all (fun x => decide (
      (cyclic.artifacts.find? x.artifact_id).isSome = true ∧
      (cyclic.artifacts.find? x.artifact_id).map Artifact.engagement_id =
        (cyclic.artifacts.find? x.depends_on_artifact_id).map Artifact.engagement_id)) = true := by decide +kernel
  intro x hx
  obtain ⟨hsome, hsame⟩ := of_decide_eq_true (List.all_eq_true.mp hall x hx)
  obtain ⟨a, ha⟩ := Option.isSome_iff_exists.mp hsome
  rw [ha, Option.map_some] at hsame
  obtain ⟨u, hu, hengagement⟩ := Option.map_eq_some_iff.mp hsame.symm
  exact ⟨a, u, ha, hu, hengagement.symm⟩

end Agency
