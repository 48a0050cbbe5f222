import MissionControl.Compiled.Scheduling
import Mathlib.Data.List.Pairwise

/-! # The waves are a schedule

Each cell that is not held runs once, in a wave after the work it depends on, beside cells
it shares no lock with; a cell that acts outside runs alone. -/

namespace Compiled

open Relation (TransGen)
open CausalWorkGraph

variable {graph : CausalWorkGraph} {cells : List MissionCell} {c k : MissionCell}
  {cell_for_node : String → Option String} {d e : Nat}

/-! ## Buckets -/

/-- No lock is held by both cells. -/
def Apart (a b : MissionCell) : Prop := ∀ lock ∈ a.resource_locks, lock ∉ b.resource_locks

variable {cell : MissionCell}

theorem fits_iff {bucket : List MissionCell} :
    fits cell bucket = true ↔ ∀ other ∈ bucket, Apart other cell := by
  simp [fits, Apart]

/-- The cells of the buckets stay apart from those they share a bucket with. -/
def ApartWithin (parallel : List (List MissionCell)) : Prop :=
  ∀ bucket ∈ parallel, bucket.Pairwise Apart

variable {parallel : List (List MissionCell)}

theorem ApartWithin.firstFit (h : ApartWithin parallel) : ApartWithin (firstFit cell parallel) := by
  induction parallel with
  | nil =>
    intro bucket hbucket
    unfold Compiled.firstFit at hbucket
    rw [List.mem_singleton.mp hbucket]
    exact List.pairwise_singleton _ _
  | cons first parallel ih =>
    have hfirst := h first List.mem_cons_self
    have hrest : ApartWithin parallel := fun b hb => h b (List.mem_cons_of_mem _ hb)
    intro bucket hbucket
    unfold Compiled.firstFit at hbucket
    split at hbucket
    · rename_i hfits
      rcases List.mem_cons.mp hbucket with rfl | hbucket
      · -- the cell joins a bucket it fits in
        rw [List.pairwise_append]
        refine ⟨hfirst, List.pairwise_singleton _ _, fun other hother x hx => ?_⟩
        rw [List.mem_singleton.mp hx]
        exact fits_iff.mp hfits other hother
      · exact hrest bucket hbucket
    · rcases List.mem_cons.mp hbucket with rfl | hbucket
      · exact hfirst
      · exact ih hrest bucket hbucket

theorem firstFit_perm (cell : MissionCell) (parallel : List (List MissionCell)) :
    (firstFit cell parallel).flatten.Perm (cell :: parallel.flatten) := by
  induction parallel with
  | nil => simp [firstFit]
  | cons bucket parallel ih =>
    unfold firstFit
    split
    · rw [List.flatten_cons, List.flatten_cons, List.append_assoc, List.singleton_append]
      exact List.perm_middle
    · rw [List.flatten_cons, List.flatten_cons]
      exact (ih.append_left bucket).trans List.perm_middle

/-- The members of a level placed so far, `placed.1` in parallel and `placed.2` in series. -/
structure Placed (placed : List (List MissionCell) × List MissionCell) : Prop where
  apart : ApartWithin placed.1
  draft : ∀ bucket ∈ placed.1, ∀ c ∈ bucket, isDraft c.side_effect_class = true

theorem mem_firstFit {x : MissionCell} :
    x ∈ (firstFit cell parallel).flatten ↔ x = cell ∨ x ∈ parallel.flatten := by
  rw [(firstFit_perm cell parallel).mem_iff, List.mem_cons]

theorem place_spec (todo : List MissionCell) {placed : List (List MissionCell) × List MissionCell}
    (h : Placed placed) : Placed (place todo placed) ∧
      ((place todo placed).1.flatten ++ (place todo placed).2).Perm
        (placed.1.flatten ++ placed.2 ++ todo) := by
  induction todo generalizing placed with
  | nil => exact ⟨h, by simp [place]⟩
  | cons cell todo ih =>
    obtain ⟨parallel, serial⟩ := placed
    unfold place
    split
    · rename_i hdraft
      have hnext : Placed (firstFit cell parallel, serial) := by
        constructor
        · exact h.apart.firstFit
        · intro bucket hbucket c hc
          have hmem : c ∈ (firstFit cell parallel).flatten := List.mem_flatten.mpr ⟨bucket, hbucket, hc⟩
          rcases mem_firstFit.mp hmem with rfl | hold
          · exact hdraft
          · obtain ⟨b, hb, hcb⟩ := List.mem_flatten.mp hold
            exact h.draft b hb c hcb
      obtain ⟨hplaced, hperm⟩ := ih hnext
      refine ⟨hplaced, hperm.trans ?_⟩
      calc (firstFit cell parallel).flatten ++ serial ++ todo
          _ |>.Perm (cell :: parallel.flatten ++ serial ++ todo) :=
            ((firstFit_perm cell parallel).append_right serial).append_right todo
          _ |>.Perm (parallel.flatten ++ serial ++ cell :: todo) := List.perm_middle.symm
    · have hnext : Placed (parallel, serial ++ [cell]) := ⟨h.apart, h.draft⟩
      obtain ⟨hplaced, hperm⟩ := ih hnext
      refine ⟨hplaced, hperm.trans ?_⟩
      simp

/-- A wave before it is numbered: its cells are apart, and one that has effects is alone. -/
structure WellFormed (wave : List MissionCell × Option String) : Prop where
  apart : wave.1.Pairwise Apart
  alone : ∀ c ∈ wave.1, isDraft c.side_effect_class = false → wave.1 = [c]

theorem flatten_filter_isEmpty (l : List (List MissionCell)) :
    (l.filter fun b => !b.isEmpty).flatten = l.flatten := by
  induction l with
  | nil => rfl
  | cons b l ih =>
    cases b with
    | nil => simpa using ih
    | cons x b => simp [ih]

/-- **The waves of a level** hold its members, each once. -/
theorem levelWaves_spec (members : List MissionCell) : (∀ wave ∈ levelWaves members, WellFormed wave) ∧
      ((levelWaves members).flatMap (·.1)).Perm members := by
  have hinit : Placed ([[]], []) := ⟨by simp [ApartWithin], by simp⟩
  obtain ⟨hplaced, hperm⟩ := place_spec members hinit
  unfold levelWaves
  dsimp only
  constructor
  · intro wave hwave
    rcases List.mem_append.mp hwave with hwave | hwave
    · obtain ⟨⟨bucket, i⟩, hbucket, rfl⟩ := List.mem_map.mp hwave
      have hmem : bucket ∈ (place members ([[]], [])).1 :=
        List.mem_of_mem_filter (List.fst_mem_of_mem_zipIdx hbucket)
      refine ⟨hplaced.apart bucket hmem, fun c hc hserial => ?_⟩
      rw [hplaced.draft bucket hmem c hc] at hserial
      cases hserial
    · obtain ⟨cell, -, rfl⟩ := List.mem_map.mp hwave
      refine ⟨List.pairwise_singleton _ _, fun c hc _ => ?_⟩
      rw [List.mem_singleton.mp hc]
  · rw [List.flatMap_append]
    have hparallel : ∀ (buckets : List (List MissionCell)) (reason : ℕ → Option String),
        (buckets.zipIdx.map fun b => (b.1, reason b.2)).flatMap (·.1) = buckets.flatten := by
      intro buckets reason
      rw [List.flatMap_map, List.flatMap_def]
      exact congrArg List.flatten (List.zipIdx_map_fst 0 buckets)
    have hserial : ∀ (cells : List MissionCell) (reason : Option String),
        (cells.map fun c => ([c], reason)).flatMap (·.1) = cells := by
      intro cells reason
      rw [List.flatMap_map]
      exact List.flatMap_singleton' cells
    rw [hserial]
    refine .trans (.of_eq ?_) hperm
    congr 1
    rw [← flatten_filter_isEmpty]
    exact hparallel _ fun i => if i = 0 then none else some "RESOURCE_OR_MUTATION_COLLISION"

/-! ## Levels -/

variable {depth : Depths}

variable {level : Nat}

theorem mem_members :
    c ∈ members graph cells depth level ↔ c ∈ cells ∧ depth.lookup c.cell_id = some level := by
  unfold members
  rw [List.mem_insertionSort, List.mem_filter, beq_iff_eq]

theorem mem_levels (hc : depth.lookup c.cell_id = some d) : d ∈ levels depth := by
  unfold levels
  rw [List.mem_insertionSort, List.mem_dedup]
  exact List.mem_map_of_mem (mem_of_lookup hc)

theorem levels_sorted (depth : Depths) : (levels depth).Pairwise (· < ·) := by
  have hle : (levels depth).Pairwise (· ≤ ·) := List.pairwise_insertionSort _ _
  have hne : (levels depth).Nodup := (List.perm_insertionSort _ _).nodup_iff.mpr (List.nodup_dedup _)
  exact (hle.and hne).imp fun h => lt_of_le_of_ne h.1 h.2

/-- The waves before they are numbered. -/
def layers (graph : CausalWorkGraph) (cells : List MissionCell) (depth : Depths) :
    List (List MissionCell × Option String) :=
  (levels depth).flatMap fun level => levelWaves (members graph cells depth level)

theorem layers_perm : ((layers graph cells depth).flatMap (·.1)).Perm
    ((levels depth).flatMap (members graph cells depth)) := by
  unfold layers
  rw [List.flatMap_assoc]
  exact List.Perm.flatMap_left _ fun level _ => (levelWaves_spec _).2

/-- **Each cell that has a depth is in one layer.** -/
theorem mem_layers : c ∈ (layers graph cells depth).flatMap (·.1) ↔
    c ∈ cells ∧ ∃ d, depth.lookup c.cell_id = some d := by
  rw [layers_perm.mem_iff, List.mem_flatMap]
  constructor
  · rintro ⟨level, -, hc⟩
    exact ⟨(mem_members.mp hc).1, level, (mem_members.mp hc).2⟩
  · rintro ⟨hc, d, hd⟩
    exact ⟨d, mem_levels hd, mem_members.mpr ⟨hc, hd⟩⟩

theorem layers_nodup (hnodup : cells.Nodup) : ((layers graph cells depth).flatMap (·.1)).Nodup := by
  rw [layers_perm.nodup_iff, List.nodup_flatMap]
  constructor
  · intro level _
    unfold members
    rw [(List.perm_insertionSort _ _).nodup_iff]
    exact hnodup.filter _
  · refine (levels_sorted depth).imp fun {i j} hij c hi hj => ?_
    -- a cell has one depth
    have h := (mem_members.mp hi).2.symm.trans (mem_members.mp hj).2
    exact absurd (Option.some.inj h) (ne_of_lt hij)

/-- No cell of the first wave is deeper than one of the second. -/
def NotDeeper (depth : Depths) (w v : List MissionCell × Option String) : Prop :=
  ∀ c ∈ w.1, ∀ k ∈ v.1, ∀ d e, depth.lookup c.cell_id = some d → depth.lookup k.cell_id = some e →
    d ≤ e

variable {w : List MissionCell × Option String}

theorem lookup_of_mem_levelWaves (hw : w ∈ levelWaves (members graph cells depth level)) (hc : c ∈ w.1) :
    depth.lookup c.cell_id = some level := by
  have hmem : c ∈ (levelWaves (members graph cells depth level)).flatMap (·.1) :=
    List.mem_flatMap.mpr ⟨w, hw, hc⟩
  exact (mem_members.mp ((levelWaves_spec _).2.mem_iff.mp hmem)).2

theorem notDeeper_of_le {i j : Nat} (hij : i ≤ j) {v : List MissionCell × Option String}
    (hw : w ∈ levelWaves (members graph cells depth i)) (hv : v ∈ levelWaves (members graph cells depth j)) :
    NotDeeper depth w v := by
  intro c hc k hk d e hd he
  rw [lookup_of_mem_levelWaves hw hc, Option.some.injEq] at hd
  rw [lookup_of_mem_levelWaves hv hk, Option.some.injEq] at he
  rwa [← hd, ← he]

/-- **Later layers are not less deep.** -/
theorem layers_notDeeper {i j : Nat} (hij : i ≤ j) (hj : j < (layers graph cells depth).length) :
    NotDeeper depth ((layers graph cells depth)[i]) ((layers graph cells depth)[j]) := by
  have hpairwise : (layers graph cells depth).Pairwise (NotDeeper depth) := by
    unfold layers
    rw [List.pairwise_flatMap]
    constructor
    · intro level _
      exact List.pairwise_of_forall_mem_list fun w hw v hv => notDeeper_of_le (le_refl level) hw hv
    · refine (levels_sorted depth).imp fun hlt w hw v hv => ?_
      exact notDeeper_of_le (le_of_lt hlt) hw hv
  rcases Nat.lt_or_eq_of_le hij with hlt | heq
  · exact List.pairwise_iff_getElem.mp hpairwise i j _ hj hlt
  · subst heq
    obtain ⟨level, -, hw⟩ := List.mem_flatMap.mp (List.getElem_mem hj)
    exact notDeeper_of_le (le_refl level) hw hw

/-! ## The plan -/

/-- **A schedule of the cells.** -/
structure Schedules (graph : CausalWorkGraph) (cells : List MissionCell) (plan : WavePlan) : Prop where
  once : (plan.waves.flatMap (·.cells)).Nodup
  scheduled : ∀ id, id ∈ plan.waves.flatMap (·.cells) ↔
    ∃ c ∈ cells, c.cell_id = id ∧ ¬ Held graph cells c
  held : ∀ id, id ∈ plan.held.map (·.1) ↔ ∃ c, Held graph cells c ∧ c.cell_id = id
  ordered : ∀ w ∈ plan.waves, ∀ v ∈ plan.waves, ∀ c ∈ cells, ∀ k ∈ cells, c.cell_id ∈ w.cells →
    k.cell_id ∈ v.cells → graph.Ancestor c.work k.work → v.index < w.index
  apart : ∀ w ∈ plan.waves, ∀ c ∈ cells, ∀ k ∈ cells, c.cell_id ∈ w.cells → k.cell_id ∈ w.cells →
    c ≠ k → Apart c k
  alone : ∀ w ∈ plan.waves, ∀ c ∈ cells, c.cell_id ∈ w.cells →
    c.side_effect_class ≠ "PURE" → c.side_effect_class ≠ "DRAFT" → w.cells = [c.cell_id]

instance : Std.Symm Apart := ⟨fun _ _ h lock hk hc => h lock hc hk⟩

/-- The waves, numbered by their place. -/
def numbered (layers : List (List MissionCell × Option String)) : List Wave :=
  layers.zipIdx.map fun w => ⟨w.2, w.1.1.map (·.cell_id), w.1.2⟩

theorem mem_numbered {layered : List (List MissionCell × Option String)} {w : Wave} :
    w ∈ numbered layered ↔ ∃ (h : w.index < layered.length),
      w.cells = (layered[w.index]).1.map (·.cell_id) ∧ w.serialized_reason = (layered[w.index]).2 := by
  unfold numbered
  rw [List.mem_map]
  constructor
  · rintro ⟨⟨l, i⟩, hmem, rfl⟩
    obtain ⟨hi, hl⟩ := List.getElem?_eq_some_iff.mp (List.mem_zipIdx_iff_getElem?.mp hmem)
    exact ⟨hi, by rw [hl], by rw [hl]⟩
  · rintro ⟨hi, hcells, hreason⟩
    refine ⟨(layered[w.index], w.index), ?_, ?_⟩
    · rw [List.mem_zipIdx_iff_getElem?, List.getElem?_eq_getElem hi]
    · cases w
      simp only at hcells hreason ⊢
      rw [hcells, hreason]

theorem numbered_cells (layered : List (List MissionCell × Option String)) :
    (numbered layered).flatMap (·.cells) = (layered.flatMap (·.1)).map (·.cell_id) := by
  unfold numbered
  rw [List.flatMap_map, List.map_flatMap]
  have h := congrArg (List.flatMap fun l => l.1.map (·.cell_id)) (List.zipIdx_map_fst 0 layered)
  rw [List.flatMap_map] at h
  exact h

theorem mem_of_named (hb : Built graph cells) (hw : w ∈ layers graph cells depth) (hc : c ∈ cells)
    (hid : c.cell_id ∈ w.1.map (·.cell_id)) : c ∈ w.1 := by
  obtain ⟨k, hk, hkc⟩ := List.mem_map.mp hid
  have hmem : k ∈ cells := (mem_layers.mp (List.mem_flatMap.mpr ⟨w, hw, hk⟩)).1
  rwa [← eq_of_cell_id hb hmem hc hkc]

theorem wellFormed_of_mem_layers (hw : w ∈ layers graph cells depth) : WellFormed w := by
  obtain ⟨level, -, hmem⟩ := List.mem_flatMap.mp hw
  exact (levelWaves_spec _).1 w hmem

theorem layered_init (runnable : String → Bool) : Layered graph cells runnable [] [] := by
  refine ⟨?_, List.nodup_nil, ?_⟩
  · intro c _
    simp
  · intro c _ k _ d e hd
    cases hd

/-- The depths the waves are cut from: of the cells that are not held, each deeper than the
    cells its work depends on. -/
structure Deep (graph : CausalWorkGraph) (cells : List MissionCell) (depth : Depths) : Prop where
  found : ∀ c ∈ cells, (∃ d, depth.lookup c.cell_id = some d) ↔ ¬ Held graph cells c
  rising : ∀ c ∈ cells, ∀ k ∈ cells, ∀ d e, depth.lookup c.cell_id = some d →
    depth.lookup k.cell_id = some e → graph.Ancestor c.work k.work → e < d

/-- The plan that is made from the depths. -/
def planOf [SemanticHash] (graph : CausalWorkGraph) (cells : List MissionCell)
    (cell_for_node : String → Option String) (depth : Depths) : WavePlan :=
  let waves := numbered (layers graph cells depth)
  let held := (heldCells graph cells cell_for_node).insertionSort fun a b => a.1 ≤ b.1
  ⟨waves, held, SemanticHash.wave_hash waves held⟩

theorem schedule_waves_eq [SemanticHash] (hb : Built graph cells) (hr : Reviewed graph)
    (hm : Mapped graph cells cell_for_node) :
    ∃ depth, schedule_waves graph cells cell_for_node = some (planOf graph cells cell_for_node depth) ∧
      Deep graph cells depth := by
  let runnable := fun cell_id => cells.any (·.cell_id == cell_id) &&
    !(heldCells graph cells cell_for_node).has cell_id
  have hrunnable : ∀ c ∈ cells, runnable c.cell_id = true ↔ ¬ Held graph cells c := by
    intro c hc
    rw [← has_heldCells hb hr hm hc]
    have hany : cells.any (·.cell_id == c.cell_id) = true := List.any_eq_true.mpr ⟨c, hc, by simp⟩
    simp [runnable, hany]
  have hformed : ∀ i, runnable i = true → ∃ c ∈ cells, c.cell_id = i := by
    intro i hi
    obtain ⟨hany, -⟩ := Bool.and_eq_true_iff.mp hi
    obtain ⟨c, hc, hid⟩ := List.any_eq_true.mp hany
    exact ⟨c, hc, beq_iff_eq.mp hid⟩
  obtain ⟨depth, hdepth, hlayered⟩ := depths_spec hb hm hformed rfl (layered_init runnable)
  refine ⟨depth, ?_, ?_, ?_⟩
  · unfold schedule_waves
    dsimp only
    rw [hdepth]
    rfl
  · intro c hc
    rw [← hrunnable c hc]
    constructor
    · rintro ⟨d, hd⟩
      exact ((hlayered.keys c hc).mp (List.mem_map_of_mem (mem_of_lookup hd))).1
    · intro hrun
      obtain ⟨node, hnode, -⟩ := hb.work c hc
      have hwork : c.work ∈ graph.topological_order := node?_isSome.mp (by rw [hnode]; rfl)
      obtain ⟨⟨id, d⟩, hd, hid⟩ := List.mem_map.mp ((hlayered.keys c hc).mpr ⟨hrun, hwork⟩)
      exact ⟨d, lookup_of_mem hlayered.distinct (by rwa [← hid])⟩
  · intro c hc k hk d e hd he hanc
    exact hlayered.rising c hc k hk d e (mem_of_lookup hd) (mem_of_lookup he) hanc

theorem mem_layer_of_named (hb : Built graph cells) {w : Wave}
    (hw : w ∈ numbered (layers graph cells depth)) (hc : c ∈ cells) (hid : c.cell_id ∈ w.cells) :
    ∃ (h : w.index < (layers graph cells depth).length), c ∈ ((layers graph cells depth)[w.index]).1 ∧
      w.cells = ((layers graph cells depth)[w.index]).1.map (·.cell_id) := by
  obtain ⟨hi, hcells, -⟩ := mem_numbered.mp hw
  rw [hcells] at hid
  exact ⟨hi, mem_of_named hb (List.getElem_mem hi) hc hid, hcells⟩

/-- **The plan is a schedule.** -/
theorem schedules_planOf [SemanticHash] (hb : Built graph cells) (hr : Reviewed graph)
    (hm : Mapped graph cells cell_for_node)
    (hdeep : Deep graph cells depth) : Schedules graph cells (planOf graph cells cell_for_node depth) := by
  have hinj := List.inj_on_of_nodup_map hb.distinct
  have hcells : cells.Nodup := hb.distinct.of_map _
  constructor
  · show ((numbered (layers graph cells depth)).flatMap (·.cells)).Nodup
    rw [numbered_cells]
    apply (layers_nodup hcells).map_on
    intro c hc k hk hid
    exact hinj (mem_layers.mp hc).1 (mem_layers.mp hk).1 hid
  · intro id
    show id ∈ (numbered (layers graph cells depth)).flatMap (·.cells) ↔ _
    rw [numbered_cells, List.mem_map]
    constructor
    · rintro ⟨c, hc, rfl⟩
      obtain ⟨hmem, hd⟩ := mem_layers.mp hc
      exact ⟨c, hmem, rfl, (hdeep.found c hmem).mp hd⟩
    · rintro ⟨c, hc, rfl, hheld⟩
      exact ⟨c, mem_layers.mpr ⟨hc, (hdeep.found c hc).mpr hheld⟩, rfl⟩
  · intro id
    show id ∈ ((heldCells graph cells cell_for_node).insertionSort fun a b => a.1 ≤ b.1).map
      (·.1) ↔ _
    rw [((List.perm_insertionSort _ _).map _).mem_iff]
    constructor
    · exact (heldCells_spec hb hm).1.sound id
    · rintro ⟨c, hheld, rfl⟩
      exact has_iff.mp ((has_heldCells hb hr hm hheld.mem).mpr hheld)
  · intro w hw v hv c hc k hk hcw hkv hanc
    obtain ⟨hi, hcw, -⟩ := mem_layer_of_named hb hw hc hcw
    obtain ⟨hj, hkv, -⟩ := mem_layer_of_named hb hv hk hkv
    obtain ⟨d, hd⟩ := (mem_layers.mp (List.mem_flatMap.mpr ⟨_, List.getElem_mem hi, hcw⟩)).2
    obtain ⟨e, he⟩ := (mem_layers.mp (List.mem_flatMap.mpr ⟨_, List.getElem_mem hj, hkv⟩)).2
    have hlt : e < d := hdeep.rising c hc k hk d e hd he hanc
    by_contra hle
    have hge : d ≤ e := layers_notDeeper (Nat.le_of_not_lt hle) hj c hcw k hkv d e hd he
    omega
  · intro w hw c hc k hk hcw hkw hne
    obtain ⟨hi, hcw, -⟩ := mem_layer_of_named hb hw hc hcw
    obtain ⟨_, hkw, -⟩ := mem_layer_of_named hb hw hk hkw
    exact (wellFormed_of_mem_layers (List.getElem_mem hi)).apart.forall hcw hkw hne
  · intro w hw c hc hcw hpure hdraft
    obtain ⟨hi, hcw, hcells⟩ := mem_layer_of_named hb hw hc hcw
    have hserial : isDraft c.side_effect_class = false := by simp [isDraft, hpure, hdraft]
    rw [hcells, (wellFormed_of_mem_layers (List.getElem_mem hi)).alone c hcw hserial]
    rfl

/-- **The cells of a graph are scheduled.** -/
theorem schedule_waves_correct [SemanticHash] (hb : Built graph cells) (hr : Reviewed graph)
    (hm : Mapped graph cells cell_for_node) :
    ∃ plan, schedule_waves graph cells cell_for_node = some plan ∧
      Schedules graph cells plan := by
  obtain ⟨depth, hplan, hdeep⟩ := schedule_waves_eq hb hr hm
  exact ⟨planOf graph cells cell_for_node depth, hplan, schedules_planOf hb hr hm hdeep⟩


/-! ## The bounds of the result -/

section Examples

/-- A node of work. -/
def workNode (id : String) (artifact : Option String) (dependencies : List String) : BackchainNode where
  id := id
  type := .EXECUTABLE_WORK
  dependencies := dependencies
  artifact_type := artifact

/-- The cell `build_cell` forms from a node with no more arguments than blockers. -/
def plainCell (cell_id : String) (node_refs output_contracts blockers : List String) : MissionCell where
  cell_id := cell_id
  objective := ""
  node_refs := node_refs
  accountable_specialist := none
  contributor_specialists := []
  runtime_authority_binding := ""
  work_order_refs := []
  context_capsule_ref := none
  input_refs := []
  output_contracts := output_contracts
  validators := []
  mutation_targets := []
  resource_locks := []
  risk_class := "low"
  side_effect_class := "PURE"
  approval_refs := []
  status := if blockers ≠ [] then .BLOCKED else .FORMED
  blockers := blockers

/-- Work on `y`, then work on `z`. -/
def chainGraph : CausalWorkGraph :=
  .ofListed [workNode "work:y" (some "y") [], workNode "work:z" (some "z") ["work:y"]] (by decide +kernel)

def chainCells : List MissionCell :=
  [plainCell "cell:y" ["work:y"] ["y"] [], plainCell "cell:z" ["work:z"] ["z"] []]

theorem built_of_check {graph : CausalWorkGraph} {cells : List MissionCell} (args : List CellArgs)
    (hargs : args.map (build_cell graph) = cells.map some)
    (hwork : cells.all fun c => (graph.node? c.work).any (·.type.isWork))
    (hdistinct : (cells.map (·.cell_id)).Nodup) : Built graph cells := by
  constructor
  · intro c hc
    have hmem : some c ∈ args.map (build_cell graph) := by
      rw [hargs]
      exact List.mem_map_of_mem hc
    obtain ⟨a, -, ha⟩ := List.mem_map.mp hmem
    exact ⟨a, ha⟩
  · intro c hc
    exact (Option.any_eq_true _ _).mp (List.all_eq_true.mp hwork c hc)
  · exact hdistinct

theorem chain_built : Built chainGraph chainCells :=
  built_of_check [{ work_node_id := "work:y" }, { work_node_id := "work:z" }]
    (by decide +kernel) (by decide +kernel) (by decide +kernel)

theorem chain_reviewed : Reviewed chainGraph := by
  have h : chainGraph.nodes.flatMap (reviewRefs chainGraph) = [] := by decide +kernel
  intro node hnode id hid
  have hmem := List.mem_flatMap.mpr ⟨node, hnode, hid⟩
  rw [h] at hmem
  cases hmem

theorem not_schedules_of_missing {plan : WavePlan} (hc : c ∈ cells)
    (hwaves : c.cell_id ∉ plan.waves.flatMap (·.cells)) (hheld : c.cell_id ∉ plan.held.map (·.1)) :
    ¬ Schedules graph cells plan := by
  intro h
  by_cases hc' : Held graph cells c
  · exact hheld ((h.held c.cell_id).mpr ⟨c, hc', rfl⟩)
  · exact hwaves ((h.scheduled c.cell_id).mpr ⟨c, hc, rfl, hc'⟩)

/-- What is computed of a plan. -/
structure Outcome where
  waves : List (List String)
  held : List String
  deriving DecidableEq

def outcome [SemanticHash] (graph : CausalWorkGraph) (cells : List MissionCell)
    (cell_for_node : String → Option String) : Option Outcome :=
  (schedule_waves graph cells cell_for_node).map fun plan =>
    ⟨plan.waves.map (·.cells), plan.held.map (·.1)⟩

abbrev plainHash : SemanticHash := ⟨fun _ _ => ""⟩
attribute [local instance] plainHash

theorem schedule_waves_correct_chain :
    ∃ plan, schedule_waves chainGraph chainCells (workCells chainCells) = some plan ∧
      Schedules chainGraph chainCells plan :=
  schedule_waves_correct chain_built chain_reviewed (mapped_workCells chain_built)

example : outcome chainGraph chainCells (workCells chainCells) =
    some ⟨[["cell:y"], ["cell:z"]], []⟩ := by decide +kernel

theorem not_schedules_of_outcome {waves : List (List String)} {held : List String}
    (hout : outcome graph cells cell_for_node = some ⟨waves, held⟩) (hc : c ∈ cells)
    (hwaves : c.cell_id ∉ waves.flatten) (hheld : c.cell_id ∉ held) :
    ¬ ∃ plan, schedule_waves graph cells cell_for_node = some plan ∧ Schedules graph cells plan := by
  rintro ⟨plan, hplan, h⟩
  unfold outcome at hout
  rw [hplan, Option.map_some, Option.some.injEq, Outcome.mk.injEq] at hout
  obtain ⟨rfl, rfl⟩ := hout
  exact not_schedules_of_missing hc hwaves hheld h

/-- A deliverable alone. -/
def deliverableGraph : CausalWorkGraph :=
  .ofListed [{ workNode "deliverable:d" none [] with type := .DELIVERABLE }] (by decide +kernel)

def deliverableCells : List MissionCell :=
  [plainCell "cell:deliverable:d" ["deliverable:d"] [] []]

/-- Accepted without the work on it; and work on `z`, on top of what was accepted. -/
def unreviewedGraph : CausalWorkGraph :=
  .ofListed [workNode "work:x" (some "x") [],
    { workNode "accept:x" none [] with type := .ACCEPTED_ARTIFACT },
    workNode "work:z" none ["accept:x"]] (by decide +kernel)

def unreviewedCells : List MissionCell :=
  [plainCell "cell:x" ["work:x", "accept:x"] ["x"] ["MISSING"], plainCell "cell:z" ["work:z"] [] []]

theorem unreviewed_built : Built unreviewedGraph unreviewedCells :=
  built_of_check [{ work_node_id := "work:x", blockers := ["MISSING"] }, { work_node_id := "work:z" }]
    (by decide +kernel) (by decide +kernel) (by decide +kernel)

theorem unreviewed_noWork : ReviewsNoWork unreviewedGraph := by
  have h : (unreviewedGraph.nodes.flatMap (reviewRefs unreviewedGraph)).all fun id =>
      (unreviewedGraph.node? id).all fun review => !review.type.isWork := by decide +kernel
  intro node hnode id hid review hreview
  have hall := List.all_eq_true.mp h id (List.mem_flatMap.mpr ⟨node, hnode, hid⟩)
  rw [hreview] at hall
  simpa using hall

theorem unreviewed_held : Held unreviewedGraph unreviewedCells (plainCell "cell:z" ["work:z"] [] []) := by
  have hx : Held unreviewedGraph unreviewedCells
      (plainCell "cell:x" ["work:x", "accept:x"] ["x"] ["MISSING"]) :=
    .own List.mem_cons_self (List.cons_ne_nil _ _)
  have hanc : unreviewedGraph.Ancestor "work:z" "accept:x" := by
    apply TransGen.single
    show "accept:x" ∈ unreviewedGraph.dependencies "work:z"
    decide +kernel
  exact .upstream (List.mem_cons_of_mem _ List.mem_cons_self) hanc (by decide +kernel) hx

/-- Validation that is work itself. -/
def workingReviewGraph : CausalWorkGraph :=
  .ofListed [workNode "work:y" (some "x") [], workNode "validate:x" none ["work:y"]] (by decide +kernel)

def workingReviewCells : List MissionCell :=
  [plainCell "cell:x" ["validate:x"] [] [], plainCell "cell:y" ["work:y", "validate:x"] ["x"] []]

theorem workingReview_built : Built workingReviewGraph workingReviewCells :=
  built_of_check [{ work_node_id := "validate:x" }, { work_node_id := "work:y" }]
    (by decide +kernel) (by decide +kernel) (by decide +kernel)

theorem workingReview_reviewed : Reviewed workingReviewGraph := by
  have hanc : workingReviewGraph.Ancestor "validate:x" "work:y" := by
    apply TransGen.single
    show "work:y" ∈ workingReviewGraph.dependencies "validate:x"
    decide +kernel
  have hrefs : reviewRefs workingReviewGraph (workNode "work:y" (some "x") []) = ["validate:x"] := by
    decide +kernel
  intro node hnode id hid
  rcases List.mem_pair.mp hnode with rfl | rfl
  · rw [hrefs, List.mem_singleton] at hid
    rw [hid]
    exact hanc
  · cases hid

/-- **Cells that are not scheduled**: of nodes that are no work, downstream of a review that
    does not wait for the work, and of a review that is work. -/
theorem cells_not_scheduled :
    (¬ ∀ (graph : CausalWorkGraph) (cells : List MissionCell) (args : List CellArgs),
      args.map (build_cell graph) = cells.map some → (cells.map (·.cell_id)).Nodup →
      ∃ plan, schedule_waves graph cells (refCells cells) = some plan ∧ Schedules graph cells plan) ∧
    (¬ ∀ (graph : CausalWorkGraph) (cells : List MissionCell),
      Built graph cells → ReviewsNoWork graph →
      ∃ plan, schedule_waves graph cells (refCells cells) = some plan ∧ Schedules graph cells plan) ∧
    (¬ ∀ (graph : CausalWorkGraph) (cells : List MissionCell), Built graph cells → Reviewed graph →
      ∃ plan, schedule_waves graph cells (refCells cells) = some plan ∧ Schedules graph cells plan) := by
  refine ⟨fun h => ?_, fun h => ?_, fun h => ?_⟩
  · have hout : outcome deliverableGraph deliverableCells (refCells deliverableCells) = some ⟨[], []⟩ := by
      decide +kernel
    refine not_schedules_of_outcome hout List.mem_cons_self (by simp) (by simp) (h _ _ 
      [{ work_node_id := "deliverable:d" }] (by decide +kernel) (by decide +kernel))
  · obtain ⟨plan, hplan, hschedules⟩ := h _ _ unreviewed_built unreviewed_noWork
    have hout : outcome unreviewedGraph unreviewedCells (refCells unreviewedCells) =
        some ⟨[["cell:z"]], ["cell:x"]⟩ := by decide +kernel
    unfold outcome at hout
    rw [hplan, Option.map_some, Option.some.injEq, Outcome.mk.injEq] at hout
    have hmem := (hschedules.held "cell:z").mpr ⟨_, unreviewed_held, rfl⟩
    rw [hout.2] at hmem
    exact absurd hmem (by decide +kernel)
  · have hout : outcome workingReviewGraph workingReviewCells (refCells workingReviewCells) =
        some ⟨[["cell:y"]], []⟩ := by decide +kernel
    refine not_schedules_of_outcome hout List.mem_cons_self (by decide +kernel) (by simp) ?_
    exact h _ _ workingReview_built workingReview_reviewed

end Examples

end Compiled
