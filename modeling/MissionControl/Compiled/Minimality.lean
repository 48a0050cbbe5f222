import MissionControl.Compiled.Deliverables

/-! # The compiled graph

What is kept of an expansion are the nodes the deliverables lead to. The graph is closed under dependencies, its leaves are
resolved, and work is in it exactly for the artifacts some deliverable needs (`compile_backchain_minimal`). -/

namespace Compiled

open Python (sorted mem_sortedSet)
open Relation (ReflTransGen TransGen)
open Relational

variable [Fingerprint] {given : Given} {deliverables specs : List DeliverableSpec} {spec s : DeliverableSpec} {b : Builder}
  {x a : ArtifactType} {result : Backchain}

/-! ## What is kept -/

theorem finalize_id (raw : BackchainNode) : (_finalize raw).id = raw.id := rfl

theorem finalize_ids : (b.nodes.map _finalize).map (·.id) = b.ids := by
  rw [List.map_map]
  rfl

omit [Fingerprint] in
theorem mem_sortedSpecs : spec ∈ sortedSpecs deliverables ↔ spec ∈ deliverables := List.mem_insertionSort _

theorem compile_backchain_ok (h : compile_backchain deliverables given = .ok result) :
    ((sortedSpecs deliverables).map (·.id)).Nodup ∧ ∃ b, BuiltFor given (sortedSpecs deliverables) b ∧
      result.roots = (sortedSpecs deliverables).map rootId ∧
      result.graph.nodes = keptNodes (b.nodes.map _finalize) ((sortedSpecs deliverables).map rootId) := by
  unfold compile_backchain at h
  dsimp only at h
  split at h
  · cases h
  · split at h
    · cases h
    · rename_i hids
      rw [not_not] at hids
      obtain ⟨b, hexpand, hbuilt⟩ := expand_spec given hids
      rw [hexpand] at h
      dsimp only at h
      split at h
      · cases h
      · rename_i graph hgraph
        obtain rfl := Except.ok.inj h
        refine ⟨hids, b, hbuilt, rfl, ?_⟩
        unfold _topological at hgraph
        split at hgraph
        · cases hgraph
        · obtain rfl := Option.some.inj hgraph
          rfl

/-- The nodes the roots lead to. -/
def Lives (b : Builder) (roots : List String) (id : String) : Prop :=
  ∃ root ∈ roots, ReflTransGen b.DependsOn root id

variable {id d : String}

theorem mem_dependenciesIn (hids : b.ids.Nodup) :
    d ∈ dependenciesIn (b.nodes.map _finalize) id ↔ b.DependsOn id d := by
  have hfinal : ((b.nodes.map _finalize).map (·.id)).Nodup := by rwa [finalize_ids]
  constructor
  · intro hd
    unfold dependenciesIn at hd
    cases hlookup : lookup (b.nodes.map _finalize) id with
    | none =>
      rw [hlookup] at hd
      cases hd
    | some node =>
      rw [hlookup] at hd
      obtain ⟨hmem, rfl⟩ := node_mem_of_lookup hlookup
      obtain ⟨raw, hraw, rfl⟩ := List.mem_map.mp hmem
      exact ⟨raw, hraw, rfl, mem_sortedSet.mp hd⟩
  · rintro ⟨raw, hraw, rfl, hd⟩
    unfold dependenciesIn
    rw [← finalize_id raw, lookup_node_of_mem hfinal (List.mem_map_of_mem hraw)]
    exact mem_sortedSet.mpr hd

variable {roots : List String} {node : BackchainNode}

theorem mem_keptNodes (hids : b.ids.Nodup) (hroots : ∀ root ∈ roots, root ∈ b.ids)
    (hclosed : ∀ n ∈ b.nodes, ∀ d ∈ n.hard_dependencies, d ∈ b.ids) :
    node ∈ keptNodes (b.nodes.map _finalize) roots ↔ ∃ raw ∈ b.nodes, node = _finalize raw ∧ Lives b roots raw.id := by
  have hfinal : ((b.nodes.map _finalize).map (·.id)).Nodup := by rwa [finalize_ids]
  have hlives : ∀ id, (id ∈ b.ids ∧ ∃ root ∈ roots, ReflTransGen
      (Edge ((b.nodes.map _finalize).map (·.id)) (dependenciesIn (b.nodes.map _finalize))) root id) ↔ Lives b roots id := by
    have hedge : ∀ u v, Edge ((b.nodes.map _finalize).map (·.id)) (dependenciesIn (b.nodes.map _finalize)) u v ↔
        b.DependsOn u v := by
      intro u v
      unfold Edge
      rw [mem_dependenciesIn hids, finalize_ids]
      exact and_iff_right_of_imp fun ⟨n, hn, hid, _⟩ => Builder.mem_ids.mpr ⟨n, hn, hid⟩
    intro id
    constructor
    · rintro ⟨-, root, hroot, hpath⟩
      exact ⟨root, hroot, ReflTransGen.mono (fun u v huv => (hedge u v).mp huv) _ _ hpath⟩
    · rintro ⟨root, hroot, hpath⟩
      refine ⟨?_, root, hroot, ReflTransGen.mono (fun u v huv => (hedge u v).mpr huv) _ _ hpath⟩
      rcases ReflTransGen.cases_tail hpath with rfl | ⟨u, -, n, hn, -, hd⟩
      · exact hroots _ hroot
      · exact hclosed n hn _ hd
  unfold keptNodes
  rw [mem_nodesOf hfinal, mem_sortedSet, mem_reachable_iff hfinal, List.mem_map]
  constructor
  · rintro ⟨⟨raw, hraw, rfl⟩, hin, hpath⟩
    exact ⟨raw, hraw, rfl, (hlives _).mp ⟨by rwa [finalize_ids] at hin, hpath⟩⟩
  · rintro ⟨raw, hraw, rfl, hlive⟩
    obtain ⟨hin, hpath⟩ := (hlives _).mpr hlive
    exact ⟨⟨raw, hraw, rfl⟩, by rwa [finalize_ids], hpath⟩

omit [Fingerprint] in
theorem Lives.dependsOn (h : Lives b roots id) (hd : b.DependsOn id d) : Lives b roots d := by
  obtain ⟨root, hroot, hpath⟩ := h
  exact ⟨root, hroot, hpath.tail hd⟩

omit [Fingerprint] in
theorem BuiltFor.lives (h : BuiltFor given specs b) (hs : s ∈ specs) (hneeds : Needs given s x) :
    Lives b (specs.map rootId) ("accept:" ++ x.value) ∧ Chain given b x := by
  have hchain : ∀ y, Needs given s y → Chain given b y := fun y hy =>
    (h.sound.chain y ((h.accepts y).mpr ⟨s, hs, hy⟩)).2
  obtain ⟨a, ha, hdemands⟩ := hneeds
  refine ⟨?_, hchain x ⟨a, ha, hdemands⟩⟩
  have hroot : Lives b (specs.map rootId) (rootId s) := ⟨rootId s, List.mem_map_of_mem hs, .refl⟩
  have hinput : ∀ c : ArtifactType, given.existing_artifacts.lookup c.value = none →
      inputId given c = "accept:" ++ c.value := by
    intro c hc
    unfold inputId
    rw [hc]
  induction hdemands with
  | self hmissing =>
    rw [← hinput a hmissing]
    cases haction : s.external_action with
    | none => exact hroot.dependsOn ((h.rooted s hs).made a ha haction)
    | some action =>
      obtain ⟨hacts, hmade, -⟩ := (h.rooted s hs).acts action haction
      exact (hroot.dependsOn hacts).dependsOn (hmade a ha)
  | @input y c hy hc hmissing ih =>
    have hy' := hchain y ⟨a, ha, hy⟩
    rw [← hinput c hmissing]
    exact ((ih.dependsOn hy'.validated).dependsOn hy'.worked).dependsOn (hy'.inputs c hc)

/-! ## The graph -/

/-- The four ways a leaf may be resolved. -/
def terminal : List Resolution := [.VALID_EXISTING_REF, .EXECUTABLE_WORK, .HUMAN_DECISION, .EXPLICIT_BLOCKER]

/-- There is a node of work for an artifact. -/
def HasWork (graph : CausalWorkGraph) (x : ArtifactType) : Prop :=
  ∃ node ∈ graph.nodes, node.type = .EXECUTABLE_WORK ∧ node.artifact_type = some x.value

/-- A graph with everything the deliverables need, and no work for anything else. -/
structure SoundMinimal (graph : CausalWorkGraph) (needed : ArtifactType → Prop) : Prop where
  /-- Every dependency is a node. -/
  closed : ∀ node ∈ graph.nodes, ∀ d ∈ node.dependencies, ∃ other ∈ graph.nodes, other.id = d
  /-- The topological order lists every node once. -/
  listed : graph.topological_order.Nodup ∧ ∀ id, id ∈ graph.topological_order ↔ ∃ node ∈ graph.nodes, node.id = id
  /-- It lists every node after its dependencies. -/
  ordered : ∀ before id after, graph.topological_order = before ++ id :: after →
    ∀ node ∈ graph.nodes, node.id = id → ∀ d ∈ node.dependencies, d ∈ before
  /-- Every leaf is resolved. -/
  leaves : ∀ node ∈ graph.nodes, node.dependencies = [] → node.resolution ∈ terminal
  /-- There is work exactly for what is needed. -/
  minimal : ∀ x, HasWork graph x ↔ needed x

theorem mem_compiled (h : BuiltFor given specs b) :
    node ∈ keptNodes (b.nodes.map _finalize) (specs.map rootId) ↔
      ∃ raw ∈ b.nodes, node = _finalize raw ∧ Lives b (specs.map rootId) raw.id := by
  apply mem_keptNodes h.sound.distinct _ h.sound.closed
  intro root hroot
  obtain ⟨s, hs, rfl⟩ := List.mem_map.mp hroot
  exact (h.rooted s hs).there

variable {graph : CausalWorkGraph}

theorem work_iff (h : BuiltFor given specs b)
    (hnodes : graph.nodes = keptNodes (b.nodes.map _finalize) (specs.map rootId)) :
    HasWork graph x ↔ ∃ s ∈ specs, Needs given s x := by
  unfold HasWork
  rw [hnodes]
  constructor
  · rintro ⟨node, hnode, htype, hartifact⟩
    obtain ⟨raw, hraw, rfl, -⟩ := (mem_compiled h).mp hnode
    obtain ⟨y, hid, hy⟩ := (h.known raw hraw).work htype
    have hxy : y = x := ArtifactType.value_inj (Option.some.inj (hy.symm.trans hartifact))
    rw [← h.accepts, ← hxy]
    exact h.sound.produced y (.inl (Builder.mem_ids.mpr ⟨raw, hraw, hid⟩))
  · rintro ⟨s, hs, hneeds⟩
    obtain ⟨hlives, hchain⟩ := h.lives hs hneeds
    obtain ⟨raw, hraw, hid, htype, hartifact⟩ := hchain.work
    refine ⟨_finalize raw, (mem_compiled h).mpr ⟨raw, hraw, rfl, ?_⟩, htype, hartifact⟩
    rw [hid]
    exact (hlives.dependsOn hchain.validated).dependsOn hchain.worked

theorem soundMinimal_of_built (h : BuiltFor given specs b)
    (hnodes : graph.nodes = keptNodes (b.nodes.map _finalize) (specs.map rootId)) :
    SoundMinimal graph fun x => ∃ s ∈ specs, Needs given s x where
  closed node hnode d hd := by
    rw [hnodes] at hnode ⊢
    obtain ⟨raw, hraw, rfl, hlives⟩ := (mem_compiled h).mp hnode
    have hdep : d ∈ raw.hard_dependencies := mem_sortedSet.mp hd
    obtain ⟨other, hother, rfl⟩ := Builder.mem_ids.mp (h.sound.closed raw hraw d hdep)
    exact ⟨_finalize other, (mem_compiled h).mpr ⟨other, hother, rfl, hlives.dependsOn ⟨raw, hraw, rfl, hdep⟩⟩, rfl⟩
  listed := ⟨graph.order_nodup, fun id => by rw [graph.mem_order, List.mem_map]⟩
  ordered before id after hsplit node hnode hid d hd := by
    apply graph.ordered before id after node hsplit _ d hd
    rw [← hid]
    exact lookup_node_of_mem graph.ids_nodup hnode
  leaves node hnode hnone := by
    rw [hnodes] at hnode
    obtain ⟨raw, hraw, rfl, -⟩ := (mem_compiled h).mp hnode
    have hleaf := (h.known raw hraw).leaf (Python.sortedSet_eq_nil.mp hnone)
    show raw.resolution ∈ terminal
    cases hresolution : raw.resolution with
    | DERIVED => exact absurd hresolution hleaf
    | VALID_EXISTING_REF => decide
    | EXECUTABLE_WORK => decide
    | HUMAN_DECISION => decide
    | EXPLICIT_BLOCKER => decide
  minimal x := work_iff h hnodes

/-! ## It returns -/

omit [Fingerprint] in
theorem Builder.Layered.before (h : b.Layered) (hids : b.ids.Nodup) (hd : b.DependsOn id d) :
    b.ids.idxOf d < b.ids.idxOf id := by
  obtain ⟨n, hn, rfl, hdep⟩ := hd
  obtain ⟨before, after, hsplit⟩ := List.append_of_mem hn
  have hlist : b.ids = before.map (·.id) ++ n.id :: after.map (·.id) := by
    unfold Builder.ids
    rw [hsplit, List.map_append, List.map_cons]
  have hbefore := h before n after hsplit d hdep
  have hnew : n.id ∉ before.map (·.id) := by
    rw [hlist, List.nodup_append] at hids
    exact fun hin => hids.2.2 _ hin _ List.mem_cons_self rfl
  rw [hlist, List.idxOf_append_of_mem hbefore, List.idxOf_append_of_notMem hnew, List.idxOf_cons_self]
  exact List.idxOf_lt_length_of_mem hbefore

theorem dependsOn_of_compiled (h : BuiltFor given specs b)
    (hd : d ∈ dependenciesIn (keptNodes (b.nodes.map _finalize) (specs.map rootId)) id) : b.DependsOn id d := by
  unfold dependenciesIn at hd
  cases hlookup : lookup (keptNodes (b.nodes.map _finalize) (specs.map rootId)) id with
  | none =>
    rw [hlookup] at hd
    cases hd
  | some node =>
    rw [hlookup] at hd
    obtain ⟨hmem, rfl⟩ := node_mem_of_lookup hlookup
    obtain ⟨raw, hraw, rfl, -⟩ := (mem_compiled h).mp hmem
    exact ⟨raw, hraw, rfl, mem_sortedSet.mp hd⟩

theorem compiled_sorts (h : BuiltFor given specs b) (hdeps : ∀ node ∈ keptNodes (b.nodes.map _finalize) (specs.map rootId),
    node.dependencies.Nodup) :
    (topological sorted ((keptNodes (b.nodes.map _finalize) (specs.map rootId)).map (·.id))
      (dependenciesIn (keptNodes (b.nodes.map _finalize) (specs.map rootId)))).isSome := by
  have hdependencies : ∀ id ∈ (keptNodes (b.nodes.map _finalize) (specs.map rootId)).map (·.id),
      (dependenciesIn (keptNodes (b.nodes.map _finalize) (specs.map rootId)) id).Nodup := by
    intro id hid
    obtain ⟨node, hnode, rfl⟩ := List.mem_map.mp hid
    unfold dependenciesIn
    rw [lookup_node_of_mem keptNodes_ids hnode]
    exact hdeps node hnode
  apply topological_isSome sorted_perm_self keptNodes_ids hdependencies
  · intro id hid d hd
    obtain ⟨node, hnode, rfl⟩ := List.mem_map.mp hid
    obtain ⟨raw, hraw, rfl, hlives⟩ := (mem_compiled h).mp hnode
    have hdep := dependsOn_of_compiled h hd
    obtain ⟨m, hm, hmid, hmd⟩ := hdep
    obtain ⟨other, hother, rfl⟩ := Builder.mem_ids.mp (h.sound.closed m hm d hmd)
    exact List.mem_map.mpr ⟨_finalize other,
      (mem_compiled h).mpr ⟨other, hother, rfl, hlives.dependsOn ⟨m, hm, hmid, hmd⟩⟩, rfl⟩
  · -- along a path of dependencies the position in the builder goes down
    intro id hpath
    have hdown : ∀ u v, TransGen (fun a d => a ∈ (keptNodes (b.nodes.map _finalize) (specs.map rootId)).map (·.id) ∧
        d ∈ dependenciesIn (keptNodes (b.nodes.map _finalize) (specs.map rootId)) a) u v →
        b.ids.idxOf v < b.ids.idxOf u := by
      intro u v huv
      induction huv with
      | single hstep => exact h.sound.layered.before h.sound.distinct (dependsOn_of_compiled h hstep.2)
      | tail _ hstep ih => exact (h.sound.layered.before h.sound.distinct (dependsOn_of_compiled h hstep.2)).trans ih
    exact lt_irrefl _ (hdown id id hpath)

/-- **A compilation returns** whenever there are deliverables and no two have one identifier. -/
theorem compile_backchain_returns (hsome : deliverables ≠ []) (hids : (deliverables.map (·.id)).Nodup) :
    ∃ result, compile_backchain deliverables given = .ok result := by
  have hperm : (sortedSpecs deliverables).Perm deliverables := List.perm_insertionSort _ _
  have hsorted : ((sortedSpecs deliverables).map (·.id)).Nodup := (hperm.map _).nodup_iff.mpr hids
  have hne : sortedSpecs deliverables ≠ [] := fun hnil => hsome (List.perm_nil.mp (hnil ▸ hperm.symm))
  obtain ⟨b, hexpand, hbuilt⟩ := expand_spec given hsorted
  unfold compile_backchain
  dsimp only
  rw [if_neg hne, if_neg (not_not.mpr hsorted), hexpand]
  dsimp only
  split
  · rename_i hnone
    unfold _topological at hnone
    split at hnone
    · rename_i hnotop
      have hsorts := compiled_sorts hbuilt fun node hnode => by
        obtain ⟨raw, -, rfl, -⟩ := (mem_compiled hbuilt).mp hnode
        exact sortedSet_nodup _
      rw [hnotop] at hsorts
      cases hsorts
    · cases hnone
  · exact ⟨_, rfl⟩

theorem compile_backchain_duplicate (hids : ¬(deliverables.map (·.id)).Nodup) :
    compile_backchain deliverables given = .error .duplicateIds := by
  have hperm : (sortedSpecs deliverables).Perm deliverables := List.perm_insertionSort _ _
  have hsorted : ¬((sortedSpecs deliverables).map (·.id)).Nodup := fun h => hids ((hperm.map _).nodup_iff.mp h)
  have hne : sortedSpecs deliverables ≠ [] := by
    intro hnil
    rw [hnil] at hsorted
    exact hsorted List.nodup_nil
  unfold compile_backchain
  dsimp only
  rw [if_neg hne, if_pos hsorted]

/-- **What a compilation refuses**: no deliverables, or two of one identifier. What it expands has no cycle. -/
theorem compile_backchain_refuses (deliverables : List DeliverableSpec) (given : Given) :
    (compile_backchain deliverables given = .error .noDeliverables ↔ deliverables = []) ∧
      (compile_backchain deliverables given = .error .duplicateIds ↔ ¬(deliverables.map (·.id)).Nodup) ∧
        compile_backchain deliverables given ≠ .error .cycle := by
  by_cases hsome : deliverables = []
  · subst hsome
    have hnone : compile_backchain [] given = .error .noDeliverables := rfl
    rw [hnone]
    simp
  · by_cases hids : (deliverables.map (·.id)).Nodup
    · obtain ⟨result, hresult⟩ : ∃ result, compile_backchain deliverables given = .ok result :=
        compile_backchain_returns hsome hids
      rw [hresult]
      simp [hsome, hids]
    · rw [compile_backchain_duplicate hids]
      simp [hsome, hids]

/-- **The order of the deliverables does not matter.** -/
theorem compile_backchain_perm {deliverables deliverables' : List DeliverableSpec} (h : deliverables.Perm deliverables')
    (given : Given) : compile_backchain deliverables given = compile_backchain deliverables' given := by
  have hids' : (deliverables.map (·.id)).Nodup ↔ (deliverables'.map (·.id)).Nodup := (h.map _).nodup_iff
  by_cases hids : (deliverables.map (·.id)).Nodup
  · have hsorted : ∀ specs : List DeliverableSpec, (sortedSpecs specs).Pairwise fun a b => a.id ≤ b.id :=
      fun specs => List.pairwise_insertionSort _ specs
    have heq : sortedSpecs deliverables = sortedSpecs deliverables' := by
      refine List.Perm.eq_of_pairwise ?_ (hsorted _) (hsorted _)
        ((List.perm_insertionSort _ _).trans (h.trans (List.perm_insertionSort _ _).symm))
      intro a b ha hb hab hba
      exact List.inj_on_of_nodup_map hids (mem_sortedSpecs.mp ha) (h.mem_iff.mpr (mem_sortedSpecs.mp hb))
        (le_antisymm hab hba)
    unfold compile_backchain
    simp only [heq]
  · rw [compile_backchain_duplicate hids, compile_backchain_duplicate (hids'.not.mp hids)]

/-! ## Sound and minimal -/

/-- **Backchain compilation is sound and minimal**: whenever it returns a graph, the graph is closed and topologically
    ordered, its leaves are resolved, and it has work for an artifact exactly when some deliverable needs the artifact, for
    its output or for the release record of a consequential launch, through inputs none of which exists. -/
theorem compile_backchain_minimal (h : compile_backchain deliverables given = .ok result) :
    SoundMinimal result.graph fun x => ∃ spec ∈ deliverables, Needs given spec x := by
  obtain ⟨-, b, hbuilt, -, hnodes⟩ := compile_backchain_ok h
  have hsound := soundMinimal_of_built hbuilt hnodes
  refine ⟨hsound.closed, hsound.listed, hsound.ordered, hsound.leaves, fun x => ?_⟩
  rw [hsound.minimal]
  simp only [mem_sortedSpecs]

/-- A copy that exists, to be published: the campaign it is released with exists and was reviewed. -/
def launchSpec : DeliverableSpec where
  id := "launch"
  requested_outcome := "Publish the copy"
  output_contract := "copy_variant"
  external_action := some .PUBLISH

def launchGiven : Given where
  existing_artifacts := [("copy_variant", "c1"), ("campaign_package", "c2"), ("qa_report", "c3")]

omit [Fingerprint] in
/-- **A launch needs its release record**, which is no input of the output. -/
theorem launch_works : ∃ result, @compile_backchain plainFingerprint [launchSpec] launchGiven = .ok result ∧
    HasWork result.graph .release_record ∧
      ¬ ∃ a, ArtifactType.of launchSpec.output_contract = some a ∧ Demands launchGiven a .release_record := by
  let _ := plainFingerprint
  obtain ⟨result, hresult⟩ : ∃ result, compile_backchain [launchSpec] launchGiven = .ok result :=
    compile_backchain_returns (by simp) (by simp)
  obtain ⟨-, b, hbuilt, -, hnodes⟩ := compile_backchain_ok hresult
  refine ⟨result, hresult, (work_iff hbuilt hnodes).mpr ⟨launchSpec, mem_sortedSpecs.mpr List.mem_cons_self, ?_⟩, ?_⟩
  · exact ⟨.release_record, by decide, .self (by decide)⟩
  · rintro ⟨a, ha, hdemands⟩
    have houtput : ArtifactType.of launchSpec.output_contract = some .copy_variant := by decide
    obtain rfl := Option.some.inj (houtput.symm.trans ha)
    exact absurd hdemands.root_missing (by decide)

omit [Fingerprint] in
theorem compile_backchain_perm_launch :
    @compile_backchain plainFingerprint [launchSpec, { launchSpec with id := "again" }] launchGiven =
      @compile_backchain plainFingerprint [{ launchSpec with id := "again" }, launchSpec] launchGiven :=
  @compile_backchain_perm plainFingerprint _ _ (.swap ..) launchGiven

omit [Fingerprint] in
/-- The graph of that launch. -/
theorem launch_minimal : ∃ result, @compile_backchain plainFingerprint [launchSpec] launchGiven = .ok result ∧
    SoundMinimal result.graph fun x => ∃ spec ∈ [launchSpec], Needs launchGiven spec x := by
  let _ := plainFingerprint
  obtain ⟨result, hresult⟩ : ∃ result, compile_backchain [launchSpec] launchGiven = .ok result :=
    compile_backchain_returns (by simp) (by simp)
  exact ⟨result, hresult, compile_backchain_minimal hresult⟩

end Compiled
