import MissionControl.Lineage.Writers

/-! # Lineage stays acyclic at every instant

`check_edge` looks at the current view only. What carries a check at one instant to every
later reading as of any instant: a view as of an instant before the last write is the one it
was before that write, and a view as of a later one is the current view (`Sound.write`). An
edge written without a check starts at a node written in the same transaction, which no edge
leads to yet. -/

namespace Lineage

open Relational
open Relation (TransGen ReflTransGen)

variable {τ : Type} [LinearOrder τ] {out : Outside τ} {w w' : World τ}

/-! ## What a view shows -/

/-- An edge of the brand that is valid at the instant. -/
def World.HasEdge (w : World τ) (brand_id : String) (as_of : Option τ) (kind : EdgeKind) (src dst : String) : Prop :=
  ∃ e ∈ w.edges, e.brand_id = brand_id ∧ valid_at e.toWindow as_of = true ∧
    e.kind = kind ∧ e.src_node_id = src ∧ e.dst_node_id = dst

/-- A node of the brand that is valid at the instant. -/
def World.Seen (w : World τ) (brand_id : String) (as_of : Option τ) (node_id : String) : Prop :=
  ∃ n ∈ w.nodes, n.brand_id = brand_id ∧ valid_at n.toWindow as_of = true ∧ n.node_id = node_id

theorem mem_ordered {ρ : Type} {created_at : ρ → τ} {key : ρ → String} {rows : List ρ} {r : ρ} :
    r ∈ ordered created_at key rows ↔ r ∈ rows :=
  List.mem_mergeSort

variable {brand_id : String}

theorem mem_load_nodes {n : NodeRow τ} :
    n ∈ (w.load_graph brand_id).1 ↔ n ∈ w.nodes ∧ n.brand_id = brand_id := by
  show n ∈ ordered _ _ _ ↔ _
  rw [mem_ordered, List.mem_filter, beq_iff_eq]

theorem mem_load_edges {e : EdgeRow τ} :
    e ∈ (w.load_graph brand_id).2 ↔ e ∈ w.edges ∧ e.brand_id = brand_id := by
  show e ∈ ordered _ _ _ ↔ _
  rw [mem_ordered, List.mem_filter, beq_iff_eq]

variable {node_id : String} {as_of : Option τ}

theorem seen_iff : w.Seen brand_id as_of node_id ↔ ∃ n ∈ (w.load_graph brand_id).1.map (·.toNode),
      valid_at n.toWindow as_of = true ∧ n.node_id = node_id := by
  simp only [World.Seen, List.mem_map, mem_load_nodes]
  constructor
  · rintro ⟨n, hn, hbrand, hv, hid⟩
    exact ⟨n.toNode, ⟨n, ⟨hn, hbrand⟩, rfl⟩, hv, hid⟩
  · rintro ⟨_, ⟨n, ⟨hn, hbrand⟩, rfl⟩, hv, hid⟩
    exact ⟨n, hn, hbrand, hv, hid⟩

theorem mem_graph_nodes :
    (∃ n ∈ (w.graph brand_id as_of).nodes, n.node_id = node_id) ↔ w.Seen brand_id as_of node_id := by
  rw [seen_iff]
  simp only [World.graph, mem_nodes_of, and_assoc]

variable {a b : String}

/-- **Lineage, in terms of the tables.** -/
theorem leads_iff : (w.graph brand_id as_of).Leads a b ↔ (∃ kind ∈ ACYCLIC, w.HasEdge brand_id as_of kind a b) ∧
      w.Seen brand_id as_of a ∧ w.Seen brand_id as_of b := by
  unfold Graph.Leads
  simp only [World.graph, mem_edges_of, ← seen_iff]
  constructor
  · rintro ⟨_, ⟨he, hv, hsrc, hdst⟩, hkind, rfl, rfl⟩
    obtain ⟨e, hmem, rfl⟩ := List.mem_map.mp he
    obtain ⟨he, hbrand⟩ := mem_load_edges.mp hmem
    exact ⟨⟨e.kind, hkind, e, he, hbrand, hv, rfl, rfl, rfl⟩, hsrc, hdst⟩
  · rintro ⟨⟨_, hkind, e, he, hbrand, hv, rfl, rfl, rfl⟩, hsrc, hdst⟩
    have hmem : e ∈ (w.load_graph brand_id).2 := mem_load_edges.mpr ⟨he, hbrand⟩
    exact ⟨e.toEdge, ⟨List.mem_map.mpr ⟨e, hmem, rfl⟩, hv, hsrc, hdst⟩, hkind, rfl, rfl⟩

/-! ## The invariant -/

/-- No edge leads to the node. -/
def World.Unentered (w : World τ) (node_id : String) : Prop := ∀ e ∈ w.edges, e.dst_node_id ≠ node_id

/-- Every stamp is one the clock has shown, every edge refers to nodes that exist, and no
    view has a lineage cycle. -/
structure Sound (out : Outside τ) (w : World τ) : Prop where
  nodes_written : ∀ n ∈ w.nodes, n.WrittenBy (out.now_iso w.reads)
  edges_written : ∀ e ∈ w.edges, e.WrittenBy (out.now_iso w.reads)
  linked : ∀ e ∈ w.edges, w.has_node e.src_node_id = true ∧ w.has_node e.dst_node_id = true
  acyclic : ∀ brand_id as_of, Acyclic (w.graph brand_id as_of).Leads

theorem Sound.empty : Sound out (World.empty : World τ) where
  nodes_written := by simp [World.empty]
  edges_written := by simp [World.empty]
  linked := by simp [World.empty]
  acyclic := by
    intro brand_id as_of x hx
    obtain ⟨y, hy, -⟩ := TransGen.head'_iff.mp hx
    obtain ⟨⟨_, -, e, he, -⟩, -⟩ := leads_iff.mp hy
    cases he

/-- One write, stamped with what the clock shows: as of an earlier instant nothing new is
    seen, and no cycle is closed in the current view. -/
structure Write (out : Outside τ) (w w' : World τ) : Prop where
  reads : w'.reads = w.reads + 1
  nodes_written : ∀ n ∈ w'.nodes, n.WrittenBy (out.now_iso w.reads)
  edges_written : ∀ e ∈ w'.edges, e.WrittenBy (out.now_iso w.reads)
  linked : ∀ e ∈ w'.edges, w'.has_node e.src_node_id = true ∧ w'.has_node e.dst_node_id = true
  past_edges : ∀ brand_id t kind a b, t < out.now_iso w.reads →
    w'.HasEdge brand_id (some t) kind a b → w.HasEdge brand_id (some t) kind a b
  past_nodes : ∀ brand_id t id, t < out.now_iso w.reads → w'.Seen brand_id (some t) id →
    w.Seen brand_id (some t) id
  current : ∀ brand_id, Acyclic (w'.graph brand_id none).Leads

variable {now : τ}

/-- **From the last write on, a view as of an instant is the current view.** -/
theorem leads_of_written {t : τ} (hnodes : ∀ n ∈ w.nodes, n.WrittenBy now)
    (hedges : ∀ e ∈ w.edges, e.WrittenBy now) (hle : now ≤ t) :
    (w.graph brand_id (some t)).Leads a b ↔ (w.graph brand_id none).Leads a b := by
  have hedge : ∀ kind, w.HasEdge brand_id (some t) kind a b ↔ w.HasEdge brand_id none kind a b := by
    intro kind
    refine exists_congr fun e => and_congr_right fun he => and_congr_right fun _ => and_congr_left fun _ => ?_
    rw [valid_at_some, valid_at_none, (hedges e he).holdsAt_iff hle]
  have hseen : ∀ id, w.Seen brand_id (some t) id ↔ w.Seen brand_id none id := by
    intro id
    refine exists_congr fun n => and_congr_right fun hn => and_congr_right fun _ => and_congr_left fun _ => ?_
    rw [valid_at_some, valid_at_none, (hnodes n hn).holdsAt_iff hle]
  rw [leads_iff, leads_iff, hseen, hseen]
  simp only [hedge]

theorem Sound.write (hclock : Monotone out.now_iso) (h : Sound out w) (hw : Write out w w') : Sound out w' where
  nodes_written n hn := by
    rw [hw.reads]
    exact (hw.nodes_written n hn).mono (hclock (Nat.le_succ _))
  edges_written e he := by
    rw [hw.reads]
    exact (hw.edges_written e he).mono (hclock (Nat.le_succ _))
  linked := hw.linked
  acyclic := by
    intro brand_id as_of
    cases as_of with
    | none => exact hw.current brand_id
    | some t =>
      rcases lt_or_ge t (out.now_iso w.reads) with hlt | hle
      · -- an instant before the write
        refine (h.acyclic brand_id (some t)).mono fun a b hab => ?_
        obtain ⟨⟨kind, hkind, hedge⟩, ha, hb⟩ := leads_iff.mp hab
        exact leads_iff.mpr ⟨⟨kind, hkind, hw.past_edges _ _ _ _ _ hlt hedge⟩, hw.past_nodes _ _ _ hlt ha,
          hw.past_nodes _ _ _ hlt hb⟩
      · refine (hw.current brand_id).mono fun a b hab => ?_
        exact (leads_of_written hw.nodes_written hw.edges_written hle).mp hab

/-! ## One write -/

theorem Write.insert_node {row : NodeRow τ} (h : Sound out w) (hnew : w.has_node row.node_id = false)
    (hrow : row.toWindow = ⟨out.now_iso w.reads, none⟩) {drawn : ℕ} :
    Write out w ⟨w.nodes ++ [row], w.edges, w.reads + 1, drawn⟩ where
  reads := rfl
  nodes_written n hn := by
    rcases List.mem_append.mp hn with hn | hn
    · exact h.nodes_written n hn
    · rw [List.mem_singleton.mp hn, hrow]
      exact ⟨le_refl _, by simp⟩
  edges_written := h.edges_written
  linked e he := by
    obtain ⟨hsrc, hdst⟩ := h.linked e he
    simp only [World.has_node, List.any_append, Bool.or_eq_true] at hsrc hdst ⊢
    exact ⟨.inl hsrc, .inl hdst⟩
  past_edges := fun _ _ _ _ _ _ h => h
  past_nodes := by
    rintro brand_id t id hlt ⟨n, hn, hbrand, hv, hid⟩
    rcases List.mem_append.mp hn with hn | hn
    · exact ⟨n, hn, hbrand, hv, hid⟩
    · -- the new node is not seen as of an earlier instant
      rw [List.mem_singleton.mp hn, hrow, valid_at_some] at hv
      exact absurd hv (Window.not_holdsAt_of_lt hlt)
  current := by
    intro brand_id
    refine (h.acyclic brand_id none).mono fun a b hab => ?_
    obtain ⟨⟨kind, hkind, hedge⟩, ha, hb⟩ := leads_iff.mp hab
    obtain ⟨e, he, hbrand, hv, -, rfl, rfl⟩ := id hedge
    -- an edge refers to nodes that were there before
    have hwas : ∀ id, w.has_node id = true →
        World.Seen ⟨w.nodes ++ [row], w.edges, w.reads + 1, drawn⟩ brand_id none id → w.Seen brand_id none id := by
      rintro id hid ⟨n, hn, hbrand, hv, hnid⟩
      rcases List.mem_append.mp hn with hn | hn
      · exact ⟨n, hn, hbrand, hv, hnid⟩
      · rw [List.mem_singleton.mp hn] at hnid
        rw [← hnid, hnew] at hid
        cases hid
    exact leads_iff.mpr ⟨⟨kind, hkind, hedge⟩, hwas _ (h.linked e he).1 ha, hwas _ (h.linked e he).2 hb⟩

/-- A new edge closes no cycle when no lineage path led back from its end to its start. -/
theorem Write.insert_edge {row : EdgeRow τ} (h : Sound out w)
    (hends : w.has_node row.src_node_id = true ∧ w.has_node row.dst_node_id = true)
    (hrow : row.toWindow = ⟨out.now_iso w.reads, none⟩) (hopen : row.kind ∈ ACYCLIC →
      ¬ ReflTransGen (w.graph row.brand_id none).Leads row.dst_node_id row.src_node_id) {drawn : ℕ} :
    Write out w ⟨w.nodes, w.edges ++ [row], w.reads + 1, drawn⟩ where
  reads := rfl
  nodes_written := h.nodes_written
  edges_written e he := by
    rcases List.mem_append.mp he with he | he
    · exact h.edges_written e he
    · rw [List.mem_singleton.mp he, hrow]
      exact ⟨le_refl _, by simp⟩
  linked e he := by
    rcases List.mem_append.mp he with he | he
    · exact h.linked e he
    · rw [List.mem_singleton.mp he]
      exact hends
  past_edges := by
    rintro brand_id t kind a b hlt ⟨e, he, hbrand, hv, hrest⟩
    rcases List.mem_append.mp he with he | he
    · exact ⟨e, he, hbrand, hv, hrest⟩
    · rw [List.mem_singleton.mp he, hrow, valid_at_some] at hv
      exact absurd hv (Window.not_holdsAt_of_lt hlt)
  past_nodes := fun _ _ _ _ h => h
  current := by
    intro brand_id
    have hsplit : ∀ a b, (World.graph ⟨w.nodes, w.edges ++ [row], w.reads + 1, drawn⟩ brand_id none).Leads a b →
          (w.graph brand_id none).Leads a b ∨
            row.brand_id = brand_id ∧ row.kind ∈ ACYCLIC ∧ a = row.src_node_id ∧ b = row.dst_node_id := by
      intro a b hab
      obtain ⟨⟨kind, hkind, e, he, hbrand, hv, rfl, rfl, rfl⟩, ha, hb⟩ := leads_iff.mp hab
      rcases List.mem_append.mp he with he | he
      · exact .inl (leads_iff.mpr ⟨⟨_, hkind, e, he, hbrand, hv, rfl, rfl, rfl⟩, ha, hb⟩)
      · rw [List.mem_singleton.mp he] at hbrand hkind ⊢
        exact .inr ⟨hbrand, hkind, rfl, rfl⟩
    by_cases hnew : row.brand_id = brand_id ∧ row.kind ∈ ACYCLIC
    · obtain ⟨rfl, hkind⟩ := hnew
      refine ((acyclic_addEdge (h.acyclic row.brand_id none)).mpr (hopen hkind)).mono fun a b hab => ?_
      exact (hsplit a b hab).imp_right fun h => ⟨h.2.2.1, h.2.2.2⟩
    · refine (h.acyclic brand_id none).mono fun a b hab => ?_
      rcases hsplit a b hab with hab | ⟨hbrand, hkind, -⟩
      · exact hab
      · exact absurd ⟨hbrand, hkind⟩ hnew

variable {record : Window τ}

theorem valid_at_of_closed (hcurrent : record.Current) (has_of : ∀ t ∈ as_of, t < now)
    (h : valid_at ⟨record.valid_from, some now⟩ as_of = true) : valid_at record as_of = true := by
  cases as_of with
  | none => simp [valid_at, Window.Current] at h
  | some t =>
    rw [valid_at_some] at h ⊢
    exact (Window.holdsAt_closed_iff hcurrent (has_of t rfl)).mp h

theorem written_of_closed (h : record.WrittenBy now) : Window.WrittenBy ⟨record.valid_from, some now⟩ now :=
  ⟨h.opened, fun u hu => by cases hu; exact le_refl _⟩

variable {id : String} {superseded_by : Option String}

theorem seen_closeNode (has_of : ∀ t ∈ as_of, t < now)
    (h : (w.closeNode node_id now superseded_by).Seen brand_id as_of id) : w.Seen brand_id as_of id := by
  obtain ⟨n', hn', hbrand, hv, hid⟩ := h
  obtain ⟨n, hn, rfl⟩ := List.mem_map.mp hn'
  by_cases hclosed : n.node_id = node_id ∧ n.Current
  · rw [if_pos hclosed] at hbrand hv hid
    exact ⟨n, hn, hbrand, valid_at_of_closed hclosed.2 has_of hv, hid⟩
  · rw [if_neg hclosed] at hbrand hv hid
    exact ⟨n, hn, hbrand, hv, hid⟩

omit [LinearOrder τ] in
theorem has_node_closeNode : (w.closeNode node_id now superseded_by).has_node id = w.has_node id := by
  unfold World.has_node World.closeNode
  rw [List.any_map]
  congr 1
  funext n
  show ((if n.node_id = node_id ∧ n.Current then n.close now superseded_by else n).node_id == id) = _
  split <;> rfl

theorem Write.close_node (h : Sound out w) :
    Write out w (w.closeNode node_id (out.now_iso w.reads) superseded_by) where
  reads := rfl
  nodes_written n' hn' := by
    obtain ⟨n, hn, rfl⟩ := List.mem_map.mp hn'
    split
    · exact written_of_closed (h.nodes_written n hn)
    · exact h.nodes_written n hn
  edges_written := h.edges_written
  linked e he := by
    rw [has_node_closeNode, has_node_closeNode]
    exact h.linked e he
  past_edges := fun _ _ _ _ _ _ h => h
  past_nodes := fun _ t _ hlt hseen => seen_closeNode (fun u hu => by cases hu; exact hlt) hseen
  current := by
    intro brand_id
    refine (h.acyclic brand_id none).mono fun a b hab => ?_
    obtain ⟨hedge, ha, hb⟩ := leads_iff.mp hab
    have hnone : ∀ t ∈ (none : Option τ), t < out.now_iso w.reads := fun t ht => by cases ht
    exact leads_iff.mpr ⟨hedge, seen_closeNode hnone ha, seen_closeNode hnone hb⟩

variable {edge_id : String}

variable {kind : EdgeKind}

theorem hasEdge_closeEdge (has_of : ∀ t ∈ as_of, t < now)
    (h : (w.closeEdge edge_id now).HasEdge brand_id as_of kind a b) : w.HasEdge brand_id as_of kind a b := by
  obtain ⟨e', he', hbrand, hv, hkind, hsrc, hdst⟩ := h
  obtain ⟨e, he, rfl⟩ := List.mem_map.mp he'
  by_cases hclosed : e.edge_id = edge_id ∧ e.Current
  · rw [if_pos hclosed] at hbrand hv hkind hsrc hdst
    exact ⟨e, he, hbrand, valid_at_of_closed hclosed.2 has_of hv, hkind, hsrc, hdst⟩
  · rw [if_neg hclosed] at hbrand hv hkind hsrc hdst
    exact ⟨e, he, hbrand, hv, hkind, hsrc, hdst⟩

theorem Write.close_edge (h : Sound out w) : Write out w (w.closeEdge edge_id (out.now_iso w.reads)) where
  reads := rfl
  nodes_written := h.nodes_written
  edges_written e' he' := by
    obtain ⟨e, he, rfl⟩ := List.mem_map.mp he'
    split
    · exact written_of_closed (h.edges_written e he)
    · exact h.edges_written e he
  linked e' he' := by
    obtain ⟨e, he, rfl⟩ := List.mem_map.mp he'
    split
    · exact h.linked e he
    · exact h.linked e he
  past_edges := fun _ t _ _ _ hlt hedge => hasEdge_closeEdge (fun u hu => by cases hu; exact hlt) hedge
  past_nodes := fun _ _ _ _ h => h
  current := by
    intro brand_id
    refine (h.acyclic brand_id none).mono fun a b hab => ?_
    obtain ⟨⟨kind, hkind, hedge⟩, ha, hb⟩ := leads_iff.mp hab
    have hnone : ∀ t ∈ (none : Option τ), t < out.now_iso w.reads := fun t ht => by cases ht
    exact leads_iff.mpr ⟨⟨kind, hkind, hasEdge_closeEdge hnone hedge⟩, ha, hb⟩

/-! ## Statements keep the invariant -/

theorem World.Unentered.no_path {start : String} (h : w.Unentered id) (hne : start ≠ id) :
    ¬ ReflTransGen (w.graph brand_id none).Leads start id := by
  intro hpath
  rcases ReflTransGen.cases_tail hpath with heq | ⟨c, -, hlast⟩
  · exact hne heq.symm
  · obtain ⟨⟨_, -, e, he, -, -, -, -, hdst⟩, -⟩ := leads_iff.mp hlast
    exact h e he hdst

/-- The invariant, with the nodes that are known to have no edge leading to them. -/
def Keeping (out : Outside τ) (ids : List String) (w : World τ) : Prop :=
  Sound out w ∧ ∀ id ∈ ids, w.Unentered id

variable {ids : List String}

theorem Keeping.start (h : Sound out w) : Keeping out [] w := ⟨h, fun _ hid => absurd hid List.not_mem_nil⟩

variable {actor tenant_id : String} {attributes : Attributes}

/-- **A new node** keeps the invariant, and no edge leads to it. -/
theorem insert_node_keeps (hclock : Monotone out.now_iso) (h : Keeping out ids w) {label content_hash : String}
    {kind : NodeKind} : Ensures (insert_node out tenant_id brand_id kind label attributes content_hash actor) w
      fun row w' => Keeping out (row.node_id :: ids) w' := by
  refine insert_node_ensures.mono ?_
  rintro row w' ⟨hnew, hrow, rfl⟩
  refine ⟨h.1.write hclock (Write.insert_node h.1 hnew hrow), fun id hid => ?_⟩
  rcases List.mem_cons.mp hid with rfl | hid
  · intro e he hdst
    have hwas := (h.1.linked e he).2
    rw [hdst, hnew] at hwas
    cases hwas
  · exact h.2 id hid

/-- **A new edge** keeps the invariant when it was checked, or starts at a node no edge leads
    to. It leads to no node but its end. -/
theorem insert_edge_keeps (hclock : Monotone out.now_iso) (h : Keeping out ids w) {src dst : String}
    {provenance : Attributes} (hopen : src ∈ ids ∨
      (kind ∈ ACYCLIC → ¬ ReflTransGen (w.graph brand_id none).Leads dst src))
    (hids : ∀ id ∈ ids, id = src ∨ id ≠ dst) :
    Ensures (insert_edge out tenant_id brand_id kind src dst provenance actor) w
      fun _ w' => Keeping out ids w' := by
  refine insert_edge_ensures.mono ?_
  rintro row w' ⟨⟨hsrc, hdst, hne⟩, rfl, rfl, rfl, rfl, hrow, rfl⟩
  refine ⟨h.1.write hclock (Write.insert_edge h.1 ⟨hsrc, hdst⟩ hrow fun hkind => ?_), fun id hid e he => ?_⟩
  · rcases hopen with hmem | hcheck
    · exact (h.2 _ hmem).no_path (Ne.symm hne)
    · exact hcheck hkind
  · rcases List.mem_append.mp he with he | he
    · exact h.2 id hid e he
    · rw [List.mem_singleton.mp he]
      rcases hids id hid with rfl | hother
      · exact Ne.symm hne
      · exact Ne.symm hother

theorem close_node_keeps (hclock : Monotone out.now_iso) (h : Keeping out ids w) :
    Ensures (close_node out node_id superseded_by) w fun _ w' => Keeping out ids w' := by
  refine close_node_ensures.mono ?_
  rintro _ w' rfl
  exact ⟨h.1.write hclock (Write.close_node h.1), h.2⟩

theorem close_edge_keeps (hclock : Monotone out.now_iso) (h : Sound out w) :
    Ensures (close_edge out edge_id) w fun _ w' => Sound out w' := by
  refine close_edge_ensures.mono ?_
  rintro _ w' rfl
  exact h.write hclock (Write.close_edge h)

/-! ## Calls keep the invariant -/

omit [LinearOrder τ] in
theorem checkedAttributes_ensures : Ensures (checkedAttributes out attributes) w fun _ w' => w' = w := by
  intro _ w' hr
  unfold checkedAttributes at hr
  split at hr
  · cases hr
  · cases hr
    rfl

section
variable [Canonical.Sha256] (hclock : Monotone out.now_iso) (h : Sound out w)
include hclock h

variable {brand_id : String} {principal : Principal}

variable {attributes : Attributes} {label : String}

theorem add_node_keeps {kind : NodeKind} {actor : Option String} :
    Ensures (add_node out principal brand_id kind label attributes actor) w fun _ w' => Sound out w' := by
  refine Ensures.lift (Ensures.bind checkedAttributes_ensures ?_)
  rintro attrs w₁ rfl
  refine (insert_node_keeps hclock (Keeping.start h)).discard.mono ?_
  rintro _ w' ⟨_, hkeep⟩
  exact hkeep.1

omit [Canonical.Sha256] in
theorem add_edge_keeps {src dst : String} {kind : EdgeKind} {provenance : Attributes} :
    Ensures (add_edge out principal brand_id kind src dst provenance) w fun _ w' => Sound out w' := by
  refine Ensures.lift (Ensures.locked ?_)
  split
  · exact Ensures.raise
  · rename_i hcheck
    have hadmits := Graph.check_edge_ok hcheck
    refine Ensures.bind checkedAttributes_ensures ?_
    rintro attrs w₁ rfl
    refine (insert_edge_keeps hclock (Keeping.start h) (.inr fun hkind => ?_) (by simp)).discard.mono ?_
    · -- the search of the current view is exact
      have hclosed : (w₁.graph brand_id none).Closed := Graph.closed_of
      rw [← Graph.reaches_iff hclosed, hadmits.open_end hkind]
      exact Bool.false_ne_true
    · rintro _ w' ⟨_, hkeep⟩
      exact hkeep.1

theorem supersede_node_keeps {node_id : String} :
    Ensures (supersede_node out principal node_id label attributes) w fun _ w' => Sound out w' := by
  refine Ensures.get ?_
  cases hfound : w.nodes.find? (·.node_id == node_id) with
  | none => exact Ensures.raise
  | some old =>
    refine Ensures.check fun _ => Ensures.lift (Ensures.bind checkedAttributes_ensures ?_)
    rintro attrs w₁ rfl
    refine Ensures.locked (Ensures.check fun _ => ?_)
    refine Ensures.bind (insert_node_keeps hclock (Keeping.start h)) ?_
    intro new w₂ hnew
    refine Ensures.bind (insert_edge_keeps hclock hnew (.inl List.mem_cons_self) (by simp)).discard ?_
    rintro _ w₃ ⟨_, hedge⟩
    exact (close_node_keeps hclock hedge).mono fun _ _ hkeep => hkeep.1

omit [Canonical.Sha256] in
theorem retire_edge_keeps {edge_id : String} :
    Ensures (retire_edge out principal brand_id edge_id) w fun _ w' => Sound out w' :=
  Ensures.lift (Ensures.get (Ensures.check fun _ => close_edge_keeps hclock h))

theorem link_branch_node_keeps {row : BranchRow} :
    Ensures (link_branch_node out principal row) w fun _ w' => Sound out w' := by
  refine Ensures.locked (Ensures.bind (insert_node_keeps hclock (Keeping.start h)) ?_)
  intro node w₁ hnode
  dsimp only
  split
  · exact Ensures.pure hnode.1
  · refine (insert_edge_keeps hclock hnode (.inl List.mem_cons_self) (by simp)).discard.mono ?_
    rintro _ w' ⟨_, hkeep⟩
    exact hkeep.1

omit [Canonical.Sha256] h in
theorem supersede_all_keeps {tenant_id node_id : String} {previous : List (Node τ)}
    (hkeep : Keeping out [node_id] w) : Ensures (previous.forM fun prev => do
      discard <| insert_edge out tenant_id brand_id .SUPERSEDES node_id prev.node_id
        [("reason", .str "genome version approved")] "system"
      close_node out prev.node_id (some node_id)) w fun _ w' => Keeping out [node_id] w' := by
  induction previous generalizing w with
  | nil => exact Ensures.pure hkeep
  | cons prev previous ih =>
    refine Ensures.bind (Ensures.bind
      (insert_edge_keeps hclock hkeep (.inl List.mem_cons_self) (by simp)).discard ?_) fun _ _ hdone => ih hdone
    rintro _ w₁ ⟨_, hedge⟩
    exact close_node_keeps hclock hedge

theorem record_genome_decision_keeps {version : VersionRow} {approval : ApprovalRow} :
    Ensures (record_genome_decision out version approval) w fun _ w' => Sound out w' := by
  refine Ensures.locked (Ensures.bind (insert_node_keeps hclock (Keeping.start h)) ?_)
  intro node w₁ hnode
  refine Ensures.bind (insert_node_keeps hclock hnode) ?_
  rintro a_node w₂ hboth
  have hnode₂ : Keeping out [node.node_id] w₂ := ⟨hboth.1, fun id hid => hboth.2 id (List.mem_cons_of_mem _ hid)⟩
  refine Ensures.bind (insert_edge_keeps hclock hnode₂ (.inl List.mem_cons_self) (by simp)).discard ?_
  rintro _ w₃ ⟨_, hedge⟩
  refine Ensures.bind (supersede_all_keeps hclock hedge) ?_
  intro _ w₄ hall
  dsimp only
  split
  · exact Ensures.pure hall.1
  · refine (insert_edge_keeps hclock hall (.inl List.mem_cons_self) (by simp)).discard.mono ?_
    rintro _ w' ⟨_, hkeep⟩
    exact hkeep.1

/-- **Every call keeps the invariant**, also one that raises. -/
theorem Sound.after (call : Call) : Sound out (w.after out call) := by
  have hcall : Ensures (call.run out) w fun _ w' => Sound out w' := by
    cases call with
    | add_node => exact add_node_keeps hclock h
    | add_edge => exact add_edge_keeps hclock h
    | supersede_node => exact supersede_node_keeps hclock h
    | retire_edge => exact retire_edge_keeps hclock h
    | record_genome_decision => exact record_genome_decision_keeps hclock h
    | fork => exact link_branch_node_keeps hclock h
  unfold World.after
  cases hr : call.run out w with
  | ok x => exact hcall x.1 x.2 hr
  | error e => exact h

end

/-! ## Every view of every run -/

section
variable [Canonical.Sha256]

/-- The tables after some calls, from an empty graph. -/
def World.run (out : Outside τ) (calls : List Call) : World τ := calls.foldl (fun w call => w.after out call) .empty

theorem sound_run (hclock : Monotone out.now_iso) (calls : List Call) : Sound out (World.run out calls) := by
  induction calls using List.reverseRecOn with
  | nil => exact Sound.empty
  | append_singleton calls call ih =>
    rw [World.run, List.foldl_append]
    exact ih.after hclock call

/-- **Lineage is acyclic at every instant.** After any calls, in the current view and in the
    view as of any instant, lineage edges form no cycle, and the search for cycles finds none. -/
theorem lineage_acyclic (hclock : Monotone out.now_iso) (calls : List Call) (brand_id : String)
    (as_of : Option τ) :
    Acyclic ((World.run out calls).graph brand_id as_of).Leads ∧
      ((World.run out calls).graph brand_id as_of).find_cycles = some [] := by
  have hacyclic := (sound_run hclock calls).acyclic brand_id as_of
  have hclosed : ((World.run out calls).graph brand_id as_of).Closed := Graph.closed_of
  obtain ⟨cycles, hfound, hnone⟩ := Graph.find_cycles_spec hclosed
  refine ⟨hacyclic, ?_⟩
  rw [hfound, hnone.mpr hacyclic]

end

/-- A clock that stands still on every other reading. -/
def halfClock : Outside ℕ where
  now_iso k := k / 2
  uuid4 k := toString k
  json_length attributes := attributes.length

/-- A retired edge, and the reverse edge after it, both visible as of one instant or another. -/
def retireAndReverse : List Call :=
  let owner : Principal := ⟨"t", "owner", fun _ => .ok ()⟩
  [.add_node owner "b" .ASSET "first" [] none, .add_node owner "b" .ASSET "second" [] none,
    .add_edge owner "b" .DEPENDS_ON "node-0" "node-1" [], .retire_edge owner "b" "edge-2",
    .add_edge owner "b" .DEPENDS_ON "node-1" "node-0" []]

theorem lineage_acyclic_halfClock :
    Acyclic ((@World.run ℕ _ Canonical.mixHash halfClock retireAndReverse).graph "b" (some 1)).Leads ∧
      ((@World.run ℕ _ Canonical.mixHash halfClock retireAndReverse).graph "b" (some 1)).find_cycles = some [] :=
  @lineage_acyclic ℕ _ halfClock Canonical.mixHash (fun _ _ h => Nat.div_le_div_right h) retireAndReverse "b" (some 1)

end Lineage
