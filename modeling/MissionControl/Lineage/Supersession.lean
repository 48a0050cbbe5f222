import MissionControl.Lineage.Acyclicity

/-! # What a call does to the nodes

Whatever a call writes, of the nodes it only adds some and closes some that were current, all for one of those it added
(`Rewrites`). So a link always leads to a node written later, of the same brand, and a closed node stays as it is. A
recorded decision closes all current versions of its scope (`record_spec`), any other call closes at most one node. -/

namespace Lineage

open Relational

variable {τ : Type} [LinearOrder τ] {out : Outside τ} {w w' : World τ} {brand_id id target : String}
  {news : List (NodeRow τ)} {closed : List String} {stamp : String → τ} {n m : NodeRow τ}

/-- A node row as it is written. -/
def newNode (out : Outside τ) (w : World τ) (tenant_id brand_id : String) (kind : NodeKind) (label : String)
    (attributes : Attributes) (content_hash actor : String) : NodeRow τ :=
  { node_id := "node-" ++ out.uuid4 w.drawn, tenant_id, brand_id, kind, label, attributes, content_hash
    valid_from := out.now_iso w.reads, valid_to := none, superseded_by := none, created_by := actor
    created_at := out.now_iso w.reads }

/-- The tables with a node row more. -/
def World.withNode (w : World τ) (row : NodeRow τ) : World τ := ⟨w.nodes ++ [row], w.edges, w.reads + 1, w.drawn + 1⟩

variable {label content_hash tenant_id actor : String} {attributes : Attributes} {kind : NodeKind}

omit [LinearOrder τ] in
theorem insert_node_row :
    Ensures (insert_node out tenant_id brand_id kind label attributes content_hash actor) w fun row w' =>
      row = newNode out w tenant_id brand_id kind label attributes content_hash actor ∧
        w.has_node row.node_id = false ∧ w' = w.withNode row := by
  refine Ensures.uuid (Ensures.now (Ensures.get (Ensures.check fun hnew => Ensures.set (Ensures.pure ?_))))
  exact ⟨rfl, by simpa [World.has_node, newNode] using hnew, rfl⟩

variable {src dst : String} {provenance : Attributes}

omit [LinearOrder τ] in
theorem insert_edge_nodes {kind : EdgeKind} :
    Ensures (insert_edge out tenant_id brand_id kind src dst provenance actor) w fun _ w' => w'.nodes = w.nodes := by
  refine insert_edge_ensures.mono ?_
  rintro row w' ⟨-, -, -, -, -, -, rfl⟩
  rfl

omit [LinearOrder τ] in
theorem newNode_id_ne :
    (newNode out w tenant_id brand_id kind label attributes content_hash actor).node_id ≠ "" := by
  intro h
  have hlength := congrArg String.length h
  simp [newNode] at hlength

/-- Nodes closed for another. -/
def closing (closed : List String) (target : String) (stamp : String → τ) (n : NodeRow τ) : NodeRow τ :=
  if n.node_id ∈ closed ∧ n.Current then n.close (stamp n.node_id) (some target) else n

section
omit [LinearOrder τ]

@[simp] theorem closing_node_id : (closing closed target stamp n).node_id = n.node_id := by
  unfold closing
  split <;> rfl

@[simp] theorem closing_brand_id : (closing closed target stamp n).brand_id = n.brand_id := by
  unfold closing
  split <;> rfl

theorem closing_of_not_mem (h : n.node_id ∉ closed) : closing closed target stamp n = n := by
  unfold closing
  rw [if_neg fun hclosed => h hclosed.1]

theorem closing_of_not_current (h : ¬n.Current) : closing closed target stamp n = n := by
  unfold closing
  rw [if_neg fun hclosed => h hclosed.2]

theorem closing_of_mem (h : n.node_id ∈ closed) (hcurrent : n.Current) :
    closing closed target stamp n = n.close (stamp n.node_id) (some target) := by
  unfold closing
  rw [if_pos ⟨h, hcurrent⟩]

theorem closing_single {t : τ} :
    closing [id] target (fun _ => t) n = if n.node_id = id ∧ n.Current then n.close t (some target) else n := by
  unfold closing
  simp only [List.mem_singleton]

end

/-- What a call does to the nodes of a brand: some are added, and some are closed for one of them. -/
structure Rewrites (w w' : World τ) (brand_id : String) (news : List (NodeRow τ)) (closed : List String)
    (target : String) : Prop where
  nodes : ∃ stamp, w'.nodes = (w.nodes ++ news).map (closing closed target stamp)
  fresh : ∀ n ∈ news, w.has_node n.node_id = false
  distinct : (news.map (·.node_id)).Nodup
  opened : ∀ n ∈ news, n.superseded_by = none ∧ n.Current ∧ n.node_id ≠ "" ∧ n.brand_id = brand_id
  closes : ∀ id ∈ closed, ∃ n ∈ w.nodes, n.node_id = id ∧ n.brand_id = brand_id ∧ n.Current
  target : closed ≠ [] → target ∈ news.map (·.node_id)

section
omit [LinearOrder τ]

theorem map_closing_nil (nodes : List (NodeRow τ)) : nodes.map (closing [] target stamp) = nodes := by
  conv_rhs => rw [← List.map_id nodes]
  apply List.map_congr_left
  intro n _
  exact closing_of_not_mem List.not_mem_nil

theorem Rewrites.same (out : Outside τ) (brand_id : String) (h : w'.nodes = w.nodes) :
    Rewrites w w' brand_id [] [] "" where
  nodes := ⟨fun _ => out.now_iso 0, by rw [map_closing_nil, List.append_nil, h]⟩
  fresh := by simp
  distinct := List.nodup_nil
  opened := by simp
  closes := by simp
  target := by simp

theorem opened_newNode :
    (newNode out w tenant_id brand_id kind label attributes content_hash actor).superseded_by = none ∧
      (newNode out w tenant_id brand_id kind label attributes content_hash actor).Current ∧
      (newNode out w tenant_id brand_id kind label attributes content_hash actor).node_id ≠ "" ∧
      (newNode out w tenant_id brand_id kind label attributes content_hash actor).brand_id = brand_id :=
  ⟨rfl, rfl, newNode_id_ne, rfl⟩

theorem Rewrites.add (out : Outside τ) (h : w'.nodes = w.nodes ++ [n]) (hnew : w.has_node n.node_id = false)
    (hopened : n.superseded_by = none ∧ n.Current ∧ n.node_id ≠ "" ∧ n.brand_id = brand_id) :
    Rewrites w w' brand_id [n] [] "" where
  nodes := ⟨fun _ => out.now_iso 0, by rw [map_closing_nil, h]⟩
  fresh := by simpa using hnew
  distinct := by simp
  opened := by simpa using hopened
  closes := by simp
  target := by simp

end

/-! ## Each call -/

variable [Canonical.Sha256]

variable {principal : Principal}

omit [LinearOrder τ] in
theorem add_node_rewrites {actor : Option String} :
    Ensures (add_node out principal brand_id kind label attributes actor) w fun _ w' =>
      ∃ news, Rewrites w w' brand_id news [] "" := by
  refine Ensures.lift (Ensures.bind checkedAttributes_ensures ?_)
  rintro attrs w₁ rfl
  refine insert_node_row.discard.mono ?_
  rintro _ w' ⟨row, rfl, hnew, rfl⟩
  exact ⟨_, Rewrites.add out rfl hnew opened_newNode⟩

omit [Canonical.Sha256] in
theorem add_edge_rewrites {kind : EdgeKind} :
    Ensures (add_edge out principal brand_id kind src dst provenance) w fun _ w' => w'.nodes = w.nodes := by
  refine Ensures.lift (Ensures.locked ?_)
  split
  · exact Ensures.raise
  · refine Ensures.bind checkedAttributes_ensures ?_
    rintro attrs w₁ rfl
    refine insert_edge_nodes.discard.mono ?_
    rintro _ w' ⟨_, h⟩
    exact h

omit [Canonical.Sha256] in
theorem retire_edge_rewrites {edge_id : String} :
    Ensures (retire_edge out principal brand_id edge_id) w fun _ w' => w'.nodes = w.nodes := by
  refine Ensures.lift (Ensures.get (Ensures.check fun _ => ?_))
  refine close_edge_ensures.mono ?_
  rintro _ w' rfl
  rfl

theorem link_branch_node_rewrites {row : BranchRow} :
    Ensures (link_branch_node out principal row) w fun _ w' => ∃ news, Rewrites w w' row.brand_id news [] "" := by
  refine Ensures.locked (Ensures.bind insert_node_row ?_)
  rintro node w₁ ⟨rfl, hnew, rfl⟩
  dsimp only
  split
  · exact Ensures.pure ⟨_, Rewrites.add out rfl hnew opened_newNode⟩
  · refine insert_edge_nodes.discard.mono ?_
    rintro _ w' ⟨_, h⟩
    exact ⟨_, Rewrites.add out h hnew opened_newNode⟩

omit [Canonical.Sha256] in
theorem known_graph : known (w.graph brand_id none).nodes id = true ↔
    ∃ n ∈ w.nodes, n.node_id = id ∧ n.brand_id = brand_id ∧ n.Current := by
  rw [Graph.known_iff, mem_graph_nodes]
  unfold World.Seen
  simp only [valid_at_none]
  constructor
  · rintro ⟨n, hn, hbrand, hcurrent, hid⟩
    exact ⟨n, hn, hid, hbrand, hcurrent⟩
  · rintro ⟨n, hn, hid, hbrand, hcurrent⟩
    exact ⟨n, hn, hbrand, hcurrent, hid⟩

variable {node_id : String}

theorem supersede_node_rewrites : Ensures (supersede_node out principal node_id label attributes) w fun _ w' =>
      ∃ brand_id news target, Rewrites w w' brand_id news [node_id] target := by
  refine Ensures.get ?_
  cases hfound : w.nodes.find? (·.node_id == node_id) with
  | none => exact Ensures.raise
  | some old =>
    refine Ensures.check fun _ => Ensures.lift (Ensures.bind checkedAttributes_ensures ?_)
    rintro attrs w₁ rfl
    refine Ensures.locked (Ensures.check fun hknown => ?_)
    obtain ⟨n, hn, hid, hbrand, hcurrent⟩ := known_graph.mp (not_not.mp hknown)
    refine Ensures.bind insert_node_row ?_
    rintro new w₂ ⟨hrow, hnew, rfl⟩
    refine Ensures.bind insert_edge_nodes.discard ?_
    rintro _ w₃ ⟨_, hnodes⟩
    refine close_node_ensures.mono ?_
    rintro _ w' rfl
    refine ⟨old.brand_id, [new], new.node_id, ?_, ?_, ?_, ?_, ?_, ?_⟩
    · refine ⟨fun _ => out.now_iso w₃.reads, ?_⟩
      show w₃.nodes.map _ = _
      rw [hnodes]
      apply List.map_congr_left
      intro m _
      exact closing_single.symm
    · simpa using hnew
    · simp
    · intro m hm
      rw [List.mem_singleton.mp hm, hrow]
      exact opened_newNode
    · intro id' hid'
      rw [List.mem_singleton.mp hid']
      exact ⟨n, hn, hid, hbrand, hcurrent⟩
    · intro _
      simp

/-! ## A recorded decision -/

/-- The attributes of the node of a version. -/
def versionAttributes (version : VersionRow) : Attributes :=
  [("ref", .str version.version_id), ("scope", .str version.scope), ("scope_ref", .str version.scope_ref),
    ("version", .int version.version), ("content_hash", .str version.content_hash)]

/-- A node that stands for a version of a scope. -/
def Node.versionOf (n : Node τ) (scope scope_ref : String) : Prop :=
  n.kind = .GENOME_VERSION ∧ n.attributes.has "scope" scope = true ∧ n.attributes.has "scope_ref" scope_ref = true

/-- It is one of the current versions of a scope. -/
def World.previous (w : World τ) (brand_id scope scope_ref id : String) : Prop :=
  ∃ n ∈ w.nodes, n.node_id = id ∧ n.brand_id = brand_id ∧ n.Current ∧ n.toNode.versionOf scope scope_ref

omit [Canonical.Sha256] [LinearOrder τ] in
/-- Nodes closed one after another for the same one. -/
theorem supersede_all_nodes {previous : List (Node τ)} : Ensures (previous.forM fun prev => do
      discard <| insert_edge out tenant_id brand_id .SUPERSEDES node_id prev.node_id
        [("reason", .str "genome version approved")] "system"
      close_node out prev.node_id (some node_id)) w fun _ w' =>
        ∃ stamp, w'.nodes = w.nodes.map (closing (previous.map (·.node_id)) node_id stamp) := by
  induction previous generalizing w with
  | nil => exact Ensures.pure ⟨fun _ => out.now_iso 0, by rw [List.map_nil, map_closing_nil]⟩
  | cons prev previous ih =>
    have hone : Ensures (do
        discard <| insert_edge out tenant_id brand_id .SUPERSEDES node_id prev.node_id
          [("reason", .str "genome version approved")] "system"
        close_node out prev.node_id (some node_id)) w fun _ w' =>
          ∃ stamp, w'.nodes = w.nodes.map (closing [prev.node_id] node_id stamp) := by
      refine Ensures.bind insert_edge_nodes.discard ?_
      rintro _ w₁ ⟨_, hnodes⟩
      refine close_node_ensures.mono ?_
      rintro _ w' rfl
      refine ⟨fun _ => out.now_iso w₁.reads, ?_⟩
      show w₁.nodes.map _ = _
      rw [hnodes]
      apply List.map_congr_left
      intro m _
      exact closing_single.symm
    refine Ensures.bind hone ?_
    rintro _ w₁ ⟨stamp₁, h₁⟩
    refine ih.mono ?_
    rintro _ w' ⟨stamp, h⟩
    refine ⟨fun id => if id = prev.node_id then stamp₁ id else stamp id, ?_⟩
    rw [h, h₁, List.map_map]
    apply List.map_congr_left
    intro m _
    show closing _ node_id stamp (closing [prev.node_id] node_id stamp₁ m) = _
    by_cases hcurrent : m.Current
    · by_cases hprev : m.node_id = prev.node_id
      · have hfirst : closing [prev.node_id] node_id stamp₁ m = m.close (stamp₁ m.node_id) (some node_id) :=
          closing_of_mem (by simp [hprev]) hcurrent
        rw [hfirst, closing_of_mem (by simp [hprev]) hcurrent, if_pos hprev]
        exact closing_of_not_current (by simp [NodeRow.close, Window.Current])
      · have hfirst : closing [prev.node_id] node_id stamp₁ m = m := closing_of_not_mem (by simp [hprev])
        rw [hfirst]
        unfold closing
        simp [hprev]
    · rw [closing_of_not_current hcurrent, closing_of_not_current hcurrent, closing_of_not_current hcurrent]

/-- What recording a version does: its node and the node of its approval are added, and the current versions of its
    scope are closed for it. -/
structure Records (w w' : World τ) (version : VersionRow) (node a_node : NodeRow τ) (closed : List String) : Prop where
  rewrites : Rewrites w w' version.brand_id [node, a_node] closed node.node_id
  closed : ∀ id, id ∈ closed ↔ w.previous version.brand_id version.scope version.scope_ref id
  kind : node.kind = .GENOME_VERSION
  attributes : node.attributes = versionAttributes version
  created_by : node.created_by = "system"
  approval : a_node.kind = .APPROVAL

variable {version : VersionRow}

omit [Canonical.Sha256] in
theorem mem_previous {previous : List (Node τ)}
    (h : previous = (w.graph version.brand_id none).nodes.filter fun n => n.kind = .GENOME_VERSION ∧
      n.attributes.has "scope" version.scope ∧ n.attributes.has "scope_ref" version.scope_ref) :
    id ∈ previous.map (·.node_id) ↔ w.previous version.brand_id version.scope version.scope_ref id := by
  subst h
  simp only [List.mem_map, List.mem_filter, World.graph, mem_nodes_of, mem_load_nodes, valid_at_none, decide_eq_true_eq]
  constructor
  · rintro ⟨_, ⟨⟨⟨n, ⟨hn, hbrand⟩, rfl⟩, hcurrent⟩, hversion⟩, hid⟩
    exact ⟨n, hn, hid, hbrand, hcurrent, hversion⟩
  · rintro ⟨n, hn, hid, hbrand, hcurrent, hversion⟩
    exact ⟨n.toNode, ⟨⟨⟨n, ⟨hn, hbrand⟩, rfl⟩, hcurrent⟩, hversion⟩, hid⟩

theorem record_spec {approval : ApprovalRow} :
    Ensures (record_genome_decision out version approval) w fun _ w' =>
      ∃ node a_node closed, Records w w' version node a_node closed := by
  refine Ensures.locked (Ensures.bind insert_node_row ?_)
  rintro node w₁ ⟨hnode, hfresh, rfl⟩
  refine Ensures.bind insert_node_row ?_
  rintro a_node w₂ ⟨ha_node, hfresh', rfl⟩
  refine Ensures.bind insert_edge_nodes.discard ?_
  rintro _ w₃ ⟨_, h₃⟩
  refine Ensures.bind supersede_all_nodes ?_
  rintro _ w₄ ⟨stamp, h₄⟩
  -- whatever else is written is an edge
  have hrecords : ∀ w', w'.nodes = w₄.nodes → ∃ node a_node closed, Records w w' version node a_node closed := by
    intro w' hw'
    have hopened : ∀ n ∈ [node, a_node],
        n.superseded_by = none ∧ n.Current ∧ n.node_id ≠ "" ∧ n.brand_id = version.brand_id := by
      intro n hn
      rcases List.mem_cons.mp hn with rfl | hn
      · rw [hnode]
        exact opened_newNode
      · rw [List.mem_singleton.mp hn, ha_node]
        exact opened_newNode
    refine ⟨node, a_node, _, ⟨⟨stamp, ?_⟩, ?_, ?_, hopened, ?_, ?_⟩, fun id => mem_previous rfl, ?_, ?_, ?_, ?_⟩
    · rw [hw', h₄, h₃]
      show (w.nodes ++ [node] ++ [a_node]).map _ = _
      rw [List.append_assoc]
      rfl
    · intro n hn
      rcases List.mem_cons.mp hn with rfl | hn
      · exact hfresh
      · rw [List.mem_singleton.mp hn]
        have h : (w.nodes ++ [node]).any (·.node_id == a_node.node_id) = false := hfresh'
        rw [List.any_append, Bool.or_eq_false_iff] at h
        exact h.1
    · have h : (w.nodes ++ [node]).any (·.node_id == a_node.node_id) = false := hfresh'
      simp only [List.any_append, List.any_cons, List.any_nil, Bool.or_false, Bool.or_eq_false_iff,
        beq_eq_false_iff_ne] at h
      simpa using h.2
    · intro id hid
      obtain ⟨n, hn, hnid, hbrand, hcurrent, -⟩ := (mem_previous rfl).mp hid
      exact ⟨n, hn, hnid, hbrand, hcurrent⟩
    · intro _
      simp
    · rw [hnode]
      rfl
    · rw [hnode]
      rfl
    · rw [hnode]
      rfl
    · rw [ha_node]
      rfl
  dsimp only
  split
  · exact Ensures.pure (hrecords w₄ rfl)
  · refine insert_edge_nodes.discard.mono ?_
    rintro _ w' ⟨_, h⟩
    exact hrecords w' h

/-- A decision is recorded where at most one version of its scope is current. -/
def World.Single (w : World τ) : Call → Prop
  | .record_genome_decision version _ => ∀ a b, w.previous version.brand_id version.scope version.scope_ref a →
      w.previous version.brand_id version.scope version.scope_ref b → a = b
  | _ => True

/-- **What any call does to the nodes.** -/
theorem call_rewrites (call : Call) : Ensures (call.run out) w fun _ w' => ∃ brand_id news closed target,
    Rewrites w w' brand_id news closed target ∧ (w.Single call → ∀ a ∈ closed, ∀ b ∈ closed, a = b) := by
  cases call with
  | add_node principal brand_id kind label attributes actor =>
    refine add_node_rewrites.mono ?_
    rintro _ w' ⟨news, h⟩
    exact ⟨_, news, _, _, h, by simp⟩
  | add_edge principal brand_id kind src dst provenance =>
    exact add_edge_rewrites.mono fun _ w' h => ⟨"", _, _, _, .same out "" h, by simp⟩
  | supersede_node principal node_id label attributes =>
    refine supersede_node_rewrites.mono ?_
    rintro _ w' ⟨brand_id, news, target, h⟩
    exact ⟨_, news, _, _, h, by simp⟩
  | retire_edge principal brand_id edge_id =>
    exact retire_edge_rewrites.mono fun _ w' h => ⟨"", _, _, _, .same out "" h, by simp⟩
  | record_genome_decision version approval =>
    refine record_spec.mono ?_
    rintro _ w' ⟨node, a_node, closed, h⟩
    refine ⟨_, _, closed, _, h.rewrites, ?_⟩
    intro hsingle a ha b hb
    exact hsingle a b ((h.closed a).mp ha) ((h.closed b).mp hb)
  | fork principal row =>
    refine link_branch_node_rewrites.mono ?_
    rintro _ w' ⟨news, h⟩
    exact ⟨_, news, _, _, h, by simp⟩

end Lineage
