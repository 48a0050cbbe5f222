import MissionControl.Lineage.Graph
import MissionControl.Relational.Trails

/-! # Impact and provenance

What is downstream of some nodes, each with the dependency path by which it was found, and what is upstream of a node.
Both are breadth-first searches along the impact edges of a view, one against the edges and one along them, so each says
the other's answer (`dual`). The path of an affected node is a path of the view, and none is shorter
(`impact_exact`). -/

namespace Lineage

open Relational
open Python (Dict)
open Relation (ReflTransGen)

/-- Edges whose source is affected when their destination changes. -/
def IMPACT_EDGES : List EdgeKind := [.DERIVED_FROM, .DEPENDS_ON, .IMPLEMENTS, .GENERATED_BY, .TESTED_BY]

structure Affected where
  node_id : String
  kind : String
  label : String
  path : List String

structure Impact where
  changed : List String
  affected : List Affected

namespace Graph

variable {τ : Type} (g : Graph τ)

/-- `sorted(self.edges, key=lambda e: e.edge_id)` -/
def byEdgeId : List (Edge τ) := g.edges.mergeSort fun a b => decide (a.edge_id ≤ b.edge_id)

/-- Where edges of some kinds lead from a node, in the order of the edges. -/
def forwards (kinds : List EdgeKind) (node_id : String) : List (EdgeKind × String) :=
  (g.byEdgeId.filter fun e => e.kind ∈ kinds ∧ e.src_node_id = node_id).map fun e => (e.kind, e.dst_node_id)

/-- Where they come from. -/
def backwards (kinds : List EdgeKind) (node_id : String) : List (EdgeKind × String) :=
  (g.byEdgeId.filter fun e => e.kind ∈ kinds ∧ e.dst_node_id = node_id).map fun e => (e.kind, e.src_node_id)

/-- What was seen, in the order in which it was, less the node itself. -/
def upstream (node_id : String) (kinds : List EdgeKind := IMPACT_EDGES) : List String :=
  (trails (g.forwards kinds) (fun (_ : Unit) _ _ => ()) (g.nodes.length + 2) [node_id]
    (Dict.ofList [(node_id, ())])).keys.filter (· ≠ node_id)

/-- `paths[cur] + [f"<-{e.kind.value}-", e.src_node_id]` -/
def alongEdge (path : List String) (kind : EdgeKind) (src : String) : List String :=
  path ++ ["<-" ++ kind.value ++ "-", src]

/-- The paths found from some nodes of the view. -/
def paths (changed : List String) : Dict String (List String) :=
  trails (g.backwards IMPACT_EDGES) alongEdge (changed.length + g.nodes.length) changed
    (Dict.ofList (changed.map fun c => (c, [c])))

/-- `(len(paths[n]), n)`, in the order of pairs -/
def pathOrder (a b : String × List String) : Bool :=
  decide (a.2.length < b.2.length ∨ a.2.length = b.2.length ∧ a.1 ≤ b.1)

/-- Everything downstream of the changed nodes, with the shortest dependency path to each. -/
def impact (changed : List String) : Impact :=
  let changed := changed.filter fun c => known g.nodes c
  let affected := ((g.paths changed).entries.filter fun entry => entry.1 ∉ changed).mergeSort pathOrder
  { changed := sorted changed
    affected := affected.filterMap fun entry =>
      (g.nodes.find? (·.node_id == entry.1)).map fun n =>
        { node_id := entry.1, kind := n.kind.value, label := n.label, path := entry.2 } }

variable {g} {a b c n : String} {changed : List String} {kinds : List EdgeKind} {kind : EdgeKind}

/-! ## Paths of the view -/

/-- An impact edge of the view. -/
def Depends (g : Graph τ) (kinds : List EdgeKind) (a b : String) : Prop :=
  ∃ e ∈ g.edges, e.kind ∈ kinds ∧ e.src_node_id = a ∧ e.dst_node_id = b

/-- A path of the view from a changed node to one that depends on it, as it is written down. -/
inductive IsPath (g : Graph τ) (changed : List String) : String → List String → Prop
  | changed {c : String} (hc : c ∈ changed) (hvalid : known g.nodes c = true) : IsPath g changed c [c]
  | along {path : List String} {e : Edge τ} (h : IsPath g changed e.dst_node_id path) (he : e ∈ g.edges)
    (hkind : e.kind ∈ IMPACT_EDGES) :
    IsPath g changed e.src_node_id (path ++ ["<-" ++ e.kind.value ++ "-", e.src_node_id])

theorem mem_byEdgeId {e : Edge τ} : e ∈ g.byEdgeId ↔ e ∈ g.edges := List.mem_mergeSort

theorem mem_forwards : (kind, b) ∈ g.forwards kinds a ↔
    ∃ e ∈ g.edges, e.kind = kind ∧ kind ∈ kinds ∧ e.src_node_id = a ∧ e.dst_node_id = b := by
  unfold forwards
  simp only [List.mem_map, List.mem_filter, mem_byEdgeId, decide_eq_true_eq, Prod.mk.injEq]
  constructor
  · rintro ⟨e, ⟨he, hkind, hsrc⟩, rfl, hdst⟩
    exact ⟨e, he, rfl, hkind, hsrc, hdst⟩
  · rintro ⟨e, he, rfl, hkind, hsrc, hdst⟩
    exact ⟨e, ⟨he, hkind, hsrc⟩, rfl, hdst⟩

theorem mem_backwards : (kind, a) ∈ g.backwards kinds b ↔
    ∃ e ∈ g.edges, e.kind = kind ∧ kind ∈ kinds ∧ e.src_node_id = a ∧ e.dst_node_id = b := by
  unfold backwards
  simp only [List.mem_map, List.mem_filter, mem_byEdgeId, decide_eq_true_eq, Prod.mk.injEq]
  constructor
  · rintro ⟨e, ⟨he, hkind, hdst⟩, rfl, hsrc⟩
    exact ⟨e, he, rfl, hkind, hsrc, hdst⟩
  · rintro ⟨e, he, rfl, hkind, hsrc, hdst⟩
    exact ⟨e, ⟨he, hkind, hdst⟩, rfl, hsrc⟩

theorem steps_forwards : Steps (g.forwards kinds) = g.Depends kinds := by
  funext a b
  apply propext
  constructor
  · rintro ⟨kind, hmem⟩
    obtain ⟨e, he, rfl, hkind, hsrc, hdst⟩ := mem_forwards.mp hmem
    exact ⟨e, he, hkind, hsrc, hdst⟩
  · rintro ⟨e, he, hkind, hsrc, hdst⟩
    exact ⟨e.kind, mem_forwards.mpr ⟨e, he, rfl, hkind, hsrc, hdst⟩⟩

theorem steps_backwards : Steps (g.backwards kinds) = Function.swap (g.Depends kinds) := by
  funext b a
  apply propext
  constructor
  · rintro ⟨kind, hmem⟩
    obtain ⟨e, he, rfl, hkind, hsrc, hdst⟩ := mem_backwards.mp hmem
    exact ⟨e, he, hkind, hsrc, hdst⟩
  · rintro ⟨e, he, hkind, hsrc, hdst⟩
    exact ⟨e.kind, mem_backwards.mpr ⟨e, he, rfl, hkind, hsrc, hdst⟩⟩

theorem isTrail_iff {path : List String} :
    IsTrail (g.backwards IMPACT_EDGES) (fun c => [c]) alongEdge (changed.filter fun c => known g.nodes c) n path ↔
      g.IsPath changed n path := by
  constructor
  · intro h
    induction h with
    | start hc =>
      obtain ⟨hc, hvalid⟩ := List.mem_filter.mp hc
      exact .changed hc hvalid
    | step _ hstep ih =>
      obtain ⟨e, he, rfl, hkind, rfl, rfl⟩ := mem_backwards.mp hstep
      exact ih.along he hkind
  · intro h
    induction h with
    | changed hc hvalid => exact .start (List.mem_filter.mpr ⟨hc, hvalid⟩)
    | along _ he hkind ih => exact ih.step (mem_backwards.mpr ⟨_, he, rfl, hkind, rfl, rfl⟩)

/-! ## Both searches are exact -/

theorem known_iff_mem {nodes : List (Node τ)} {id : String} : known nodes id = true ↔ id ∈ nodes.map (·.node_id) := by
  rw [known_iff, List.mem_map]

/-- **What is upstream** of a node is what its edges lead to, itself apart. -/
theorem mem_upstream (h : g.Closed) : c ∈ g.upstream n kinds ↔ c ≠ n ∧ ReflTransGen (g.Depends kinds) n c := by
  have hunit : Measure (fun (_ : String) => ()) (fun _ (_ : EdgeKind) (_ : String) => ()) (fun _ => 0) 0 0 :=
    ⟨fun _ => rfl, fun _ _ _ => rfl⟩
  have hall : ∀ a b y, (b, y) ∈ g.forwards kinds a → y ∈ n :: g.nodes.map (·.node_id) := by
    intro a b y hmem
    obtain ⟨e, he, -, -, -, rfl⟩ := mem_forwards.mp hmem
    exact List.mem_cons_of_mem _ (h e he).2
  have hstarts : [n] ⊆ n :: g.nodes.map (·.node_id) := by simp
  have hrounds : [n].length + (n :: g.nodes.map (·.node_id)).length ≤ g.nodes.length + 2 := by
    simp only [List.length_cons, List.length_nil, List.length_map]
    omega
  have hspec := (trails_spec hunit _ hall hstarts hrounds c).1
  unfold upstream
  rw [List.mem_filter, decide_eq_true_eq, and_comm]
  apply and_congr_right
  intro _
  rw [← steps_forwards]
  refine hspec.trans ?_
  simp

theorem paths_spec (h : g.Closed) (changed : List String) (n : String) :
    (n ∈ (g.paths (changed.filter fun c => known g.nodes c)).keys ↔
      ∃ c ∈ changed, known g.nodes c = true ∧ ReflTransGen (g.Depends IMPACT_EDGES) n c) ∧
    ∀ path, (g.paths (changed.filter fun c => known g.nodes c)).get? n = some path →
      g.IsPath changed n path ∧ ∀ path', g.IsPath changed n path' → path.length ≤ path'.length := by
  have hlength : Measure (fun (c : String) => [c]) alongEdge List.length 1 2 :=
    ⟨fun _ => rfl, fun path kind src => List.length_append⟩
  have hall : ∀ a b y, (b, y) ∈ g.backwards IMPACT_EDGES a → y ∈ g.nodes.map (·.node_id) := by
    intro a b y hmem
    obtain ⟨e, he, -, -, rfl, -⟩ := mem_backwards.mp hmem
    exact (h e he).1
  have hstarts : (changed.filter fun c => known g.nodes c) ⊆ g.nodes.map (·.node_id) := by
    intro c hc
    exact known_iff_mem.mp (List.mem_filter.mp hc).2
  have hrounds : (changed.filter fun c => known g.nodes c).length + (g.nodes.map (·.node_id)).length ≤
      (changed.filter fun c => known g.nodes c).length + g.nodes.length := by rw [List.length_map]
  obtain ⟨hkeys, hpaths⟩ := trails_spec hlength _ hall hstarts hrounds n
  refine ⟨?_, ?_⟩
  · refine hkeys.trans ?_
    rw [steps_backwards]
    simp only [List.mem_filter, and_assoc, Relation.reflTransGen_swap]
  · intro path hpath
    obtain ⟨htrail, hshortest⟩ := hpaths path hpath
    exact ⟨isTrail_iff.mp htrail, fun path' hpath' => hshortest path' (isTrail_iff.mpr hpath')⟩

/-- Impact is exact: it lists each affected node once, with the shortest of its paths. -/
structure Exact (g : Graph τ) (changed : List String) : Prop where
  listed : ∀ n, n ∈ (g.impact changed).affected.map (·.node_id) ↔
    n ∈ g.nodes.map (·.node_id) ∧ n ∉ changed ∧ ∃ c ∈ changed, ReflTransGen (g.Depends IMPACT_EDGES) n c
  once : ((g.impact changed).affected.map (·.node_id)).Nodup
  row : ∀ a ∈ (g.impact changed).affected,
    ∃ m ∈ g.nodes, m.node_id = a.node_id ∧ m.kind.value = a.kind ∧ m.label = a.label
  path : ∀ a ∈ (g.impact changed).affected, g.IsPath changed a.node_id a.path
  shortest : ∀ a ∈ (g.impact changed).affected, ∀ path, g.IsPath changed a.node_id path → a.path.length ≤ path.length

theorem known_of_depends (h : g.Closed) (hpath : ReflTransGen (g.Depends kinds) a b) (hne : a ≠ b) :
    a ∈ g.nodes.map (·.node_id) ∧ b ∈ g.nodes.map (·.node_id) := by
  constructor
  · rcases hpath.cases_head with rfl | ⟨m, ⟨e, he, -, rfl, -⟩, -⟩
    · exact absurd rfl hne
    · exact (h e he).1
  · rcases hpath.cases_tail with rfl | ⟨m, -, ⟨e, he, -, -, rfl⟩⟩
    · exact absurd rfl hne
    · exact (h e he).2

/-- The row of an affected node. -/
def affectedRow (g : Graph τ) (entry : String × List String) : Option Affected :=
  (g.nodes.find? (·.node_id == entry.1)).map fun n =>
    { node_id := entry.1, kind := n.kind.value, label := n.label, path := entry.2 }

theorem mem_affected {a : Affected} : a ∈ (g.impact changed).affected ↔
    ∃ entry ∈ (g.paths (changed.filter fun c => known g.nodes c)).entries,
      entry.1 ∉ changed.filter (fun c => known g.nodes c) ∧ g.affectedRow entry = some a := by
  show a ∈ List.filterMap _ _ ↔ _
  simp only [List.mem_filterMap, List.mem_mergeSort, List.mem_filter, decide_eq_true_eq, and_assoc]
  rfl

theorem affectedRow_eq_some {entry : String × List String} {a : Affected} (h : g.affectedRow entry = some a) :
    a.node_id = entry.1 ∧ a.path = entry.2 ∧
      ∃ m ∈ g.nodes, m.node_id = a.node_id ∧ m.kind.value = a.kind ∧ m.label = a.label := by
  obtain ⟨m, hm, rfl⟩ := Option.map_eq_some_iff.mp h
  exact ⟨rfl, rfl, m, List.mem_of_find?_eq_some hm, by simpa using List.find?_some hm, rfl, rfl⟩

/-- **Impact is exact**, for every view and all changed nodes. -/
theorem impact_exact (h : g.Closed) (changed : List String) : g.Exact changed := by
  have hspec := paths_spec h changed
  have hfound : ∀ a ∈ (g.impact changed).affected,
      (g.paths (changed.filter fun c => known g.nodes c)).get? a.node_id = some a.path := by
    intro a ha
    obtain ⟨⟨id, path⟩, hentry, -, hrow⟩ := mem_affected.mp ha
    obtain ⟨hid, hpath, -⟩ := affectedRow_eq_some hrow
    rw [hid, hpath]
    exact Dict.get?_eq_some.mpr hentry
  constructor
  · intro n
    rw [List.mem_map]
    constructor
    · rintro ⟨a, ha, rfl⟩
      obtain ⟨entry, hentry, hnot, hrow⟩ := mem_affected.mp ha
      obtain ⟨hid, -, m, hm, hmid, -⟩ := affectedRow_eq_some hrow
      have hvalid : known g.nodes a.node_id = true := known_iff.mpr ⟨m, hm, hmid⟩
      obtain ⟨c, hc, -, hpath⟩ := (hspec a.node_id).1.mp (Dict.mem_keys.mpr ⟨_, hfound a ha⟩)
      refine ⟨known_iff_mem.mp hvalid, ?_, c, hc, hpath⟩
      intro hmem
      exact hnot (hid ▸ List.mem_filter.mpr ⟨hmem, hvalid⟩)
    · rintro ⟨hn, hnot, c, hc, hpath⟩
      have hvalid : known g.nodes c = true := by
        apply known_iff_mem.mpr
        apply (known_of_depends h hpath _).2
        rintro rfl
        exact hnot hc
      obtain ⟨path, hget⟩ := Dict.mem_keys.mp ((hspec n).1.mpr ⟨c, hc, hvalid, hpath⟩)
      have hentry : (n, path) ∈ (g.paths (changed.filter fun c => known g.nodes c)).entries := Dict.get?_eq_some.mp hget
      have hsome : (g.nodes.find? (·.node_id == n)).isSome := by
        rw [List.find?_isSome]
        obtain ⟨m, hm, hmid⟩ := List.mem_map.mp hn
        exact ⟨m, hm, by simpa using hmid⟩
      obtain ⟨m, hm⟩ := Option.isSome_iff_exists.mp hsome
      have hrow : g.affectedRow (n, path) = some { node_id := n, kind := m.kind.value, label := m.label, path } := by
        unfold affectedRow
        rw [hm]
        rfl
      refine ⟨_, mem_affected.mpr ⟨(n, path), hentry, ?_, hrow⟩, rfl⟩
      intro hmem
      exact hnot (List.mem_filter.mp hmem).1
  · show (List.map _ (List.filterMap g.affectedRow _)).Nodup
    have hids : ∀ l : List (String × List String), (l.filterMap g.affectedRow).map (·.node_id) =
        (l.map Prod.fst).filterMap fun id => (g.nodes.find? (·.node_id == id)).map fun _ => id := by
      intro l
      rw [List.map_filterMap, List.filterMap_map]
      congr 1
      funext entry
      unfold affectedRow
      rw [Option.map_map]
      rfl
    rw [hids]
    apply List.Nodup.filterMap
    · intro id id' b hb hb'
      obtain ⟨_, -, rfl⟩ := Option.map_eq_some_iff.mp hb
      obtain ⟨_, -, rfl⟩ := Option.map_eq_some_iff.mp hb'
      rfl
    · rw [((List.mergeSort_perm _ _).map _).nodup_iff]
      exact (g.paths (changed.filter fun c => known g.nodes c)).nodup.sublist (List.filter_sublist.map _)
  · intro a ha
    obtain ⟨entry, -, -, hrow⟩ := mem_affected.mp ha
    exact (affectedRow_eq_some hrow).2.2
  · exact fun a ha => ((hspec a.node_id).2 a.path (hfound a ha)).1
  · exact fun a ha => ((hspec a.node_id).2 a.path (hfound a ha)).2

/-- **Impact and provenance are dual.** -/
theorem dual (h : g.Closed) : n ∈ (g.impact [c]).affected.map (·.node_id) ↔ c ∈ g.upstream n := by
  rw [(impact_exact h [c]).listed, mem_upstream h]
  constructor
  · rintro ⟨-, hne, c', hc', hpath⟩
    rw [List.mem_singleton] at hne hc'
    subst hc'
    exact ⟨Ne.symm hne, hpath⟩
  · rintro ⟨hne, hpath⟩
    refine ⟨(known_of_depends h hpath (Ne.symm hne)).1, ?_, c, List.mem_singleton_self c, hpath⟩
    rw [List.mem_singleton]
    exact Ne.symm hne

end Graph

end Lineage
