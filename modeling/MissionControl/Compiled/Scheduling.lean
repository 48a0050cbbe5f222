import MissionControl.Compiled.Cells

/-! # What the waves keep

The held cells are the least set closed under the reasons to hold a cell, and the waves
are a schedule of the others: each runs once, after the work it depends on, beside cells
it shares no lock with. -/

namespace Compiled

open Python

open CausalWorkGraph

variable {graph : CausalWorkGraph} {cells : List MissionCell} {c k : MissionCell}
  {cell_for_node : String → Option String}

/-! ## Held cells -/

/-- **The cells that are to be held**, as a least set: those with blockers of their own,
    and those with an ancestor that is undecided, blocked, or of a held cell. -/
inductive Held (graph : CausalWorkGraph) (cells : List MissionCell) : MissionCell → Prop
  | own {c : MissionCell} (hc : c ∈ cells) (hb : c.blockers ≠ []) : Held graph cells c
  | undecided {c : MissionCell} {a : String} {node : BackchainNode} (hc : c ∈ cells)
      (ha : graph.Ancestor c.work a) (hn : graph.node? a = some node)
      (htype : node.type = .MATERIAL_DECISION) (hstatus : node.status = .AWAITING_HUMAN) :
      Held graph cells c
  | blocked {c : MissionCell} {a : String} {node : BackchainNode} (hc : c ∈ cells)
      (ha : graph.Ancestor c.work a) (hn : graph.node? a = some node)
      (hstatus : node.status = .BLOCKED) : Held graph cells c
  | upstream {c k : MissionCell} {a : String} (hc : c ∈ cells) (ha : graph.Ancestor c.work a)
      (hk : a ∈ k.node_refs) (held : Held graph cells k) : Held graph cells c

theorem Held.mem (h : Held graph cells c) : c ∈ cells := by
  cases h with
  | own hc _ => exact hc
  | undecided hc _ _ _ _ => exact hc
  | blocked hc _ _ _ => exact hc
  | upstream hc _ _ _ => exact hc

variable {held : HeldCells}

variable {cell_id : String}

theorem has_iff : held.has cell_id = true ↔ cell_id ∈ held.map (·.1) := by
  simp [HeldCells.has]

/-- A reason to hold a cell, for each kind of ancestor. -/
theorem mem_gates {cell : MissionCell} : gates graph cell_for_node held cell ≠ [] ↔
      ∃ a node, graph.Ancestor cell.work a ∧ graph.node? a = some node ∧
        ((node.type = .MATERIAL_DECISION ∧ node.status = .AWAITING_HUMAN) ∨ node.status = .BLOCKED ∨
          (node.type.isWork = true ∧ ∃ u, cell_for_node a = some u ∧ held.has u = true)) := by
  unfold gates
  rw [Ne, sortedSet_eq_nil, List.filterMap_eq_nil_iff]
  push Not
  constructor
  · rintro ⟨a, ha, hreason⟩
    unfold gateReason at hreason
    split at hreason
    · exact absurd rfl hreason
    · rename_i node hnode
      refine ⟨a, node, mem_ancestors.mp ha, hnode, ?_⟩
      split at hreason
      · rename_i hdecision
        exact .inl hdecision
      · split at hreason
        · rename_i hblocked
          exact .inr (.inl hblocked)
        · split at hreason
          · rename_i hwork
            split at hreason
            · rename_i u hu
              split at hreason
              · rename_i hheld
                exact .inr (.inr ⟨hwork, u, hu, hheld⟩)
              · exact absurd rfl hreason
            · exact absurd rfl hreason
          · exact absurd rfl hreason
  · rintro ⟨a, node, ha, hnode, hreason⟩
    refine ⟨a, mem_ancestors.mpr ha, ?_⟩
    unfold gateReason
    rw [hnode]
    dsimp only
    split
    · exact Option.some_ne_none _
    · rename_i hdecision
      split
      · exact Option.some_ne_none _
      · rename_i hblocked
        obtain ⟨hwork, u, hu, hheld⟩ := (hreason.resolve_left hdecision).resolve_left hblocked
        rw [if_pos hwork, hu]
        dsimp only
        rw [if_pos hheld]
        exact Option.some_ne_none _

/-- Only cells that are to be held are, each once. -/
structure Justified (graph : CausalWorkGraph) (cells : List MissionCell) (held : HeldCells) : Prop where
  sound : ∀ id ∈ held.map (·.1), ∃ c, Held graph cells c ∧ c.cell_id = id
  distinct : (held.map (·.1)).Nodup

theorem Justified.snoc (h : Justified graph cells held) (hc : Held graph cells c)
    (hnew : held.has c.cell_id = false) (reasons : List String) :
    Justified graph cells (held ++ [(c.cell_id, reasons)]) := by
  rw [← Bool.not_eq_true, has_iff] at hnew
  constructor
  · intro id hid
    rw [List.map_append, List.mem_append] at hid
    rcases hid with hid | hid
    · exact h.sound id hid
    · rw [List.map_singleton, List.mem_singleton] at hid
      exact ⟨c, hc, hid.symm⟩
  · rw [List.map_append, List.nodup_append]
    refine ⟨h.distinct, List.nodup_singleton _, ?_⟩
    rintro a ha b hb rfl
    rw [List.map_singleton, List.mem_singleton] at hb
    rw [hb] at ha
    exact hnew ha

theorem held_of_gates (hb : Built graph cells) (hm : Mapped graph cells cell_for_node)
    (h : Justified graph cells held) (hc : c ∈ cells) (hgates : gates graph cell_for_node held c ≠ []) :
    Held graph cells c := by
  obtain ⟨a, node, ha, hnode, ⟨htype, hstatus⟩ | hstatus | ⟨hwork, u, hu, hheld⟩⟩ := mem_gates.mp hgates
  · exact .undecided hc ha hnode htype hstatus
  · exact .blocked hc ha hnode hstatus
  · obtain ⟨k, hk, rfl⟩ := h.sound u (has_iff.mp hheld)
    have href : a ∈ k.node_refs := by
      rw [hm.only k hk.mem a node hnode hwork hu]
      exact work_mem_node_refs hb hk.mem
    exact .upstream hc ha href hk

variable {todo : List MissionCell}

/-- **One pass** only adds cells that are to be held; if it adds none, no cell outside has a
    reason to be held. -/
theorem holdPass_spec (hb : Built graph cells) (hm : Mapped graph cells cell_for_node) (htodo : todo ⊆ cells)
    (h : Justified graph cells held) : Justified graph cells (holdPass graph cell_for_node todo held) ∧
    ∃ added, holdPass graph cell_for_node todo held = held ++ added ∧
      (added = [] → ∀ c ∈ todo, held.has c.cell_id = true ∨ gates graph cell_for_node held c = []) := by
  induction todo generalizing held with
  | nil => exact ⟨h, [], by simp [holdPass], by simp⟩
  | cons c todo ih =>
    have hrest : todo ⊆ cells := fun x hx => htodo (List.mem_cons_of_mem c hx)
    unfold holdPass
    split
    · rename_i hhas
      obtain ⟨hj, added, heq, hall⟩ := ih hrest h
      refine ⟨hj, added, heq, fun hadded x hx => ?_⟩
      rcases List.mem_cons.mp hx with rfl | hx
      · exact .inl hhas
      · exact hall hadded x hx
    · rename_i hhas
      split
      · rename_i hgates
        obtain ⟨hj, added, heq, hall⟩ := ih hrest h
        refine ⟨hj, added, heq, fun hadded x hx => ?_⟩
        rcases List.mem_cons.mp hx with rfl | hx
        · exact .inr hgates
        · exact hall hadded x hx
      · rename_i reasons hne
        have hc := held_of_gates hb hm h (htodo List.mem_cons_self) hne
        obtain ⟨hj, added, heq, -⟩ := ih hrest (h.snoc hc (by simpa using hhas) _)
        refine ⟨hj, _ :: added, by rw [heq, List.append_assoc, List.singleton_append], ?_⟩
        intro hnil
        cases hnil

/-- **The loop** ends with a set that no pass adds to. -/
theorem holdLoop_spec (hb : Built graph cells) (hm : Mapped graph cells cell_for_node) (fuel : ℕ)
    (htodo : todo ⊆ cells) (h : Justified graph cells held) (hfuel : cells.length < fuel + held.length) :
    ∃ final, holdLoop graph cell_for_node todo fuel held = final ∧
      Justified graph cells final ∧ held.map (·.1) ⊆ final.map (·.1) ∧
      ∀ c ∈ todo, final.has c.cell_id = true ∨ gates graph cell_for_node final c = [] := by
  have bounded : ∀ {l : HeldCells}, Justified graph cells l → l.length ≤ cells.length := by
    intro l hl
    have hsub : l.map (·.1) ⊆ cells.map (·.cell_id) := by
      intro id hid
      obtain ⟨k, hk, rfl⟩ := hl.sound id hid
      exact List.mem_map_of_mem hk.mem
    have := (hl.distinct.subperm hsub).length_le
    simpa using this
  induction fuel generalizing held with
  | zero =>
    have := bounded h
    omega
  | succ fuel ih =>
    obtain ⟨hj, added, heq, hall⟩ := holdPass_spec hb hm htodo h
    unfold holdLoop
    dsimp only
    split
    · rename_i hlen
      have hadded : added = [] := by
        rw [heq, List.length_append] at hlen
        exact List.length_eq_zero_iff.mp (by omega)
      rw [hadded, List.append_nil] at heq
      refine ⟨held, heq, h, fun _ hid => hid, ?_⟩
      exact hall hadded
    · rename_i hlen
      have hgrow : cells.length < fuel + (holdPass graph cell_for_node todo held).length := by
        rw [heq, List.length_append] at hlen ⊢
        omega
      obtain ⟨final, hfinal, hjf, hsub, hgates⟩ := ih hj hgrow
      refine ⟨final, hfinal, hjf, fun id hid => hsub ?_, hgates⟩
      rw [heq, List.map_append]
      exact List.mem_append_left _ hid

theorem mem_byId : c ∈ byId cells ↔ c ∈ cells := List.mem_insertionSort _

theorem heldCells_spec (hb : Built graph cells) (hm : Mapped graph cells cell_for_node) :
    Justified graph cells (heldCells graph cells cell_for_node) ∧ (∀ c ∈ cells, c.blockers ≠ [] →
        (heldCells graph cells cell_for_node).has c.cell_id = true) ∧
      ∀ c ∈ cells, (heldCells graph cells cell_for_node).has c.cell_id = true ∨
        gates graph cell_for_node (heldCells graph cells cell_for_node) c = [] := by
  have hids : ((cells.filter fun c => c.blockers ≠ []).map fun c => (c.cell_id, c.blockers)).map (·.1) =
      (cells.filter fun c => c.blockers ≠ []).map (·.cell_id) := by
    rw [List.map_map]
    rfl
  have hinit : Justified graph cells
      ((cells.filter fun c => c.blockers ≠ []).map fun c => (c.cell_id, c.blockers)) := by
    constructor
    · intro id hid
      rw [hids] at hid
      obtain ⟨c, hc, rfl⟩ := List.mem_map.mp hid
      obtain ⟨hc, hblockers⟩ := List.mem_filter.mp hc
      exact ⟨c, .own hc (by simpa using hblockers), rfl⟩
    · rw [hids]
      exact hb.distinct.sublist (List.filter_sublist.map _)
  have htodo : byId cells ⊆ cells := fun c hc => mem_byId.mp hc
  obtain ⟨final, hfinal, hj, hsub, hgates⟩ := holdLoop_spec hb hm (cells.length + 1) htodo hinit (by omega)
  have hheld : heldCells graph cells cell_for_node = final := hfinal
  rw [hheld]
  refine ⟨hj, fun c hc hblockers => ?_, fun c hc => hgates c (mem_byId.mpr hc)⟩
  apply has_iff.mpr
  apply hsub
  rw [hids]
  exact List.mem_map_of_mem (List.mem_filter.mpr ⟨hc, by simpa using hblockers⟩)

/-- **The held cells are the least set.** -/
theorem has_heldCells (hb : Built graph cells) (hr : Reviewed graph)
    (hm : Mapped graph cells cell_for_node) (hc : c ∈ cells) :
    (heldCells graph cells cell_for_node).has c.cell_id = true ↔ Held graph cells c := by
  obtain ⟨hj, hown, hgates⟩ := heldCells_spec hb hm
  constructor
  · intro hhas
    obtain ⟨k, hk, hid⟩ := hj.sound _ (has_iff.mp hhas)
    rwa [← eq_of_cell_id hb hk.mem hc hid]
  · intro hheld
    induction hheld with
    | own hc hblockers => exact hown _ hc hblockers
    | @undecided c a node hc ha hn htype hstatus =>
      apply (hgates c hc).resolve_right
      exact mem_gates.mpr ⟨a, node, ha, hn, .inl ⟨htype, hstatus⟩⟩
    | @blocked c a node hc ha hn hstatus =>
      apply (hgates c hc).resolve_right
      exact mem_gates.mpr ⟨a, node, ha, hn, .inr (.inl hstatus)⟩
    | @upstream c k a hc ha hk held ih =>
      -- the ancestor may only review the held work; then the work is an ancestor as well
      have hwork : graph.Ancestor c.work k.work := by
        obtain ⟨node, hmem, hnode, rfl | hreview⟩ := mem_node_refs hb held.mem hk
        · exact ha
        · rw [← hnode]
          exact ha.trans (hr node hmem a hreview)
      obtain ⟨node, hnode, hiswork⟩ := hb.work k held.mem
      apply (hgates c hc).resolve_right
      exact mem_gates.mpr ⟨k.work, node, hwork, hnode, .inr (.inr ⟨hiswork, k.cell_id,
        hm.own k held.mem, ih held.mem⟩)⟩

/-! ## Depths -/

variable {runnable : String → Bool}

variable {id : String}

theorem workCell_eq_some (hb : Built graph cells) (hm : Mapped graph cells cell_for_node)
    (hcells : ∀ i, runnable i = true → ∃ c ∈ cells, c.cell_id = i) :
    workCell graph cell_for_node runnable id = some cell_id ↔
      ∃ c ∈ cells, c.cell_id = cell_id ∧ c.work = id ∧ runnable cell_id = true := by
  constructor
  · intro h
    unfold workCell at h
    split at h
    · rename_i cid node hcell hnode
      split at h
      · rename_i hcond
        cases h
        obtain ⟨hrun, hwork⟩ := Bool.and_eq_true_iff.mp hcond
        obtain ⟨k, hk, rfl⟩ := hcells cell_id hrun
        exact ⟨k, hk, rfl, (hm.only k hk id node hnode hwork hcell).symm, hrun⟩
      · cases h
    · cases h
  · rintro ⟨c, hc, rfl, rfl, hrun⟩
    obtain ⟨node, hnode, hwork⟩ := hb.work c hc
    unfold workCell
    rw [hm.own c hc, hnode]
    dsimp only
    rw [if_pos (by rw [hrun, hwork]; rfl)]

/-- The depths after the nodes `done`: one for each runnable cell whose work is among them,
    and a greater one for a cell whose work depends on another's. -/
structure Layered (graph : CausalWorkGraph) (cells : List MissionCell) (runnable : String → Bool)
    (done : List String) (depth : Depths) : Prop where
  keys : ∀ c ∈ cells, c.cell_id ∈ depth.map (·.1) ↔ runnable c.cell_id = true ∧ c.work ∈ done
  distinct : (depth.map (·.1)).Nodup
  rising : ∀ c ∈ cells, ∀ k ∈ cells, ∀ d e, (c.cell_id, d) ∈ depth → (k.cell_id, e) ∈ depth →
    graph.Ancestor c.work k.work → e < d

variable {depth : Depths}

theorem lookup_of_mem (h : (depth.map (·.1)).Nodup) {d : Nat} (hd : (id, d) ∈ depth) : depth.lookup id = some d := by
  obtain ⟨l₁, l₂, rfl⟩ := List.append_of_mem hd
  rw [List.lookup_eq_some_iff]
  refine ⟨l₁, l₂, rfl, fun p hp => ?_⟩
  rw [List.map_append, List.map_cons, List.nodup_append] at h
  rw [bne_iff_ne]
  exact (h.2.2 p.1 (List.mem_map_of_mem hp) id List.mem_cons_self).symm

theorem mem_of_lookup {d : Nat} (h : depth.lookup id = some d) : (id, d) ∈ depth := by
  obtain ⟨l₁, l₂, rfl, -⟩ := List.lookup_eq_some_iff.mp h
  exact List.mem_append_right _ List.mem_cons_self

theorem le_foldr_max {l : List Nat} {n : Nat} (h : n ∈ l) : n ≤ l.foldr max 0 := by
  induction l with
  | nil => cases h
  | cons m l ih =>
    rcases List.mem_cons.mp h with rfl | h
    · exact le_max_left _ _
    · exact (ih h).trans (le_max_right _ _)

theorem mapM_lookup (hnodup : (depth.map (·.1)).Nodup) {ids : List String}
    (h : ∀ id ∈ ids, id ∈ depth.map (·.1)) : ∃ below, ids.mapM (fun id => depth.lookup id) = some below ∧
      ∀ id ∈ ids, ∃ d ∈ below, depth.lookup id = some d := by
  induction ids with
  | nil => exact ⟨[], rfl, by simp⟩
  | cons id ids ih =>
    obtain ⟨below, hbelow, hall⟩ := ih fun x hx => h x (List.mem_cons_of_mem _ hx)
    obtain ⟨⟨id', d⟩, hmem, hid⟩ := List.mem_map.mp (h id List.mem_cons_self)
    have hd : depth.lookup id = some d := lookup_of_mem hnodup (by rwa [← hid])
    refine ⟨d :: below, ?_, ?_⟩
    · rw [List.mapM_cons, hd, hbelow]
      rfl
    · intro x hx
      rcases List.mem_cons.mp hx with rfl | hx
      · exact ⟨d, List.mem_cons_self, hd⟩
      · obtain ⟨e, he, hlookup⟩ := hall x hx
        exact ⟨e, List.mem_cons_of_mem _ he, hlookup⟩

/-- **The depths of all runnable cells are found.** -/
theorem depths_spec (hb : Built graph cells) (hm : Mapped graph cells cell_for_node)
    (hcells : ∀ i, runnable i = true → ∃ c ∈ cells, c.cell_id = i) {done order : List String}
    (horder : graph.topological_order = done ++ order) (h : Layered graph cells runnable done depth) :
    ∃ final, depths graph cell_for_node runnable order depth = some final ∧
      Layered graph cells runnable graph.topological_order final := by
  induction order generalizing done depth with
  | nil =>
    rw [List.append_nil] at horder
    rw [horder]
    exact ⟨depth, rfl, h⟩
  | cons id order ih =>
    have hnext : graph.topological_order = (done ++ [id]) ++ order := by
      rw [horder, List.append_assoc, List.singleton_append]
    have hfresh : id ∉ done := by
      have hnodup := graph.order_nodup
      rw [horder, List.nodup_append] at hnodup
      exact fun hid => hnodup.2.2 id hid id List.mem_cons_self rfl
    unfold depths
    cases hcell : workCell graph cell_for_node runnable id with
    | none =>
      refine ih hnext ⟨fun c hc => ?_, h.distinct, h.rising⟩
      rw [h.keys c hc]
      refine and_congr_right fun hrun => ?_
      rw [List.mem_append, List.mem_singleton]
      refine ⟨.inl, fun hmem => hmem.resolve_right ?_⟩
      rintro rfl
      rw [(workCell_eq_some hb hm hcells).mpr ⟨c, hc, rfl, rfl, hrun⟩] at hcell
      cases hcell
    | some cell_id =>
      obtain ⟨c, hc, rfl, rfl, hrun⟩ := (workCell_eq_some hb hm hcells).mp hcell
      -- the cells upstream have been met: their work comes before
      have hup : ∀ u ∈ upstream graph cell_for_node runnable c.work c.cell_id, u ∈ depth.map (·.1) := by
        intro u hu
        obtain ⟨a, ha, hfilter⟩ := List.mem_filterMap.mp hu
        obtain ⟨hwork, -⟩ := Option.filter_eq_some_iff.mp hfilter
        obtain ⟨k, hk, rfl, rfl, hkrun⟩ := (workCell_eq_some hb hm hcells).mp hwork
        exact (h.keys k hk).mpr ⟨hkrun, (mem_ancestors.mp ha).before horder⟩
      obtain ⟨below, hbelow, hlookup⟩ := mapM_lookup h.distinct hup
      have hnew : c.cell_id ∉ depth.map (·.1) := fun hmem => hfresh ((h.keys c hc).mp hmem).2
      dsimp only
      rw [hbelow]
      have hput : depth.put c.cell_id ((below.map (· + 1)).foldr max 0) =
          depth ++ [(c.cell_id, (below.map (· + 1)).foldr max 0)] := by
        unfold Depths.put
        rw [if_neg]
        simpa using hnew
      show ∃ final, depths graph _ runnable order (depth.put c.cell_id _) = some final ∧ _
      rw [hput]
      refine ih hnext ⟨fun k hk => ?_, ?_, ?_⟩
      · rw [List.map_append, List.mem_append, h.keys k hk, List.mem_append, List.map_singleton,
          List.mem_singleton, List.mem_singleton]
        constructor
        · rintro (⟨hkrun, hmem⟩ | hid)
          · exact ⟨hkrun, .inl hmem⟩
          · cases eq_of_cell_id hb hk hc hid
            exact ⟨hrun, .inr rfl⟩
        · rintro ⟨hkrun, hmem | hwork⟩
          · exact .inl ⟨hkrun, hmem⟩
          · cases eq_of_work hb hk hc hwork
            exact .inr rfl
      · rw [List.map_append, List.nodup_append]
        refine ⟨h.distinct, List.nodup_singleton _, ?_⟩
        rintro a ha b hb' rfl
        rw [List.map_singleton, List.mem_singleton] at hb'
        rw [hb'] at ha
        exact hnew ha
      · intro x hx k hk d e hd he hanc
        rw [List.mem_append, List.mem_singleton, Prod.mk.injEq] at hd he
        rcases hd with hd | ⟨hxc, rfl⟩
        · rcases he with he | ⟨hkc, -⟩
          · exact h.rising x hx k hk d e hd he hanc
          · -- the new cell's work comes after the work of the others
            have hkeq := eq_of_cell_id hb hk hc hkc
            rw [hkeq] at hanc
            have hxdone := ((h.keys x hx).mp (List.mem_map_of_mem hd)).2
            obtain ⟨l₁, l₂, hl⟩ := List.append_of_mem hxdone
            have hsplit : graph.topological_order = l₁ ++ x.work :: (l₂ ++ c.work :: order) := by
              rw [horder, hl]
              simp
            have hbefore := hanc.before hsplit
            exact absurd (by rw [hl]; exact List.mem_append_left _ hbefore) hfresh
        · have hxeq := eq_of_cell_id hb hx hc hxc
          rw [hxeq] at hanc
          rcases he with he | ⟨hkc, -⟩
          · have hkrun := ((h.keys k hk).mp (List.mem_map_of_mem he)).1
            have hku : k.cell_id ∈ upstream graph cell_for_node runnable c.work c.cell_id := by
              refine List.mem_filterMap.mpr ⟨k.work, mem_ancestors.mpr hanc, ?_⟩
              rw [(workCell_eq_some hb hm hcells).mpr ⟨k, hk, rfl, rfl, hkrun⟩, Option.filter_some, if_pos]
              rw [bne_iff_ne]
              intro hid
              rw [eq_of_cell_id hb hk hc hid] at hanc
              exact CausalWorkGraph.acyclic _ hanc
            obtain ⟨e', he', hlookup'⟩ := hlookup _ hku
            rw [lookup_of_mem h.distinct he, Option.some.injEq] at hlookup'
            subst hlookup'
            exact Nat.lt_of_succ_le (le_foldr_max (List.mem_map_of_mem he'))
          · rw [eq_of_cell_id hb hk hc hkc] at hanc
            exact absurd hanc (CausalWorkGraph.acyclic _)

end Compiled
