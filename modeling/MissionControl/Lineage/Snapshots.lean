import MissionControl.Lineage.Acyclicity
import MissionControl.Lineage.Impact

/-! # What a view says of its instant

What supports a node (`evidence_for`), a snapshot of a view, and how two snapshots differ. A view of the past says the
same for good: no call changes what a view as of an earlier instant shows (`past_kept`). -/

namespace Lineage

open Canonical (Value Sha256 canonical_hash CollisionFree canonical_hash_eq_iff)
open Python (Dict)
open Relation (ReflTransGen)
open Relational

variable {τ : Type}

/-! ## What supports a node -/

/-- A node of evidence, or an approval, and the node that an edge leads to it from. -/
structure Support where
  via : String
  node_id : String
  label : String
  attributes : Attributes
  edge_provenance : Attributes

structure Evidence where
  node_id : String
  considered : List String
  evidence : List Support
  approvals : List Support
  unsupported : Bool

namespace Graph

/-- What edges of one kind lead to from the nodes of a chain. -/
def support (g : Graph τ) (kind : EdgeKind) (chain : List String) : List Support :=
  chain.flatMap fun n => (g.edges.filter fun e => e.src_node_id = n ∧ e.kind = kind).filterMap fun e =>
    (g.nodes.find? (·.node_id == e.dst_node_id)).map fun target =>
      ⟨n, target.node_id, target.label, target.attributes, e.provenance⟩

/-- Evidence and approvals supporting a node, directly or through what it implements or derives from. -/
def evidence_for (g : Graph τ) (node_id : String) : Except String Evidence :=
  if known g.nodes node_id then
    let chain := node_id :: g.upstream node_id [.IMPLEMENTS, .DERIVED_FROM]
    let evidence := g.support .SUPPORTED_BY chain
    let approvals := g.support .APPROVED_BY chain
    .ok ⟨node_id, chain, evidence, approvals, evidence.isEmpty && approvals.isEmpty⟩
  else
    .error s!"node {node_id} is not valid at this instant"

variable {g : Graph τ} {n m target : String} {kind : EdgeKind}

theorem mem_support (h : g.Closed) {chain : List String} :
    (∃ item ∈ g.support kind chain, item.via = m ∧ item.node_id = target) ↔
      m ∈ chain ∧ g.Depends [kind] m target := by
  unfold support Depends
  simp only [List.mem_flatMap, List.mem_filterMap, List.mem_filter, decide_eq_true_eq, Option.map_eq_some_iff,
    List.mem_singleton]
  constructor
  · rintro ⟨_, ⟨v, hv, e, ⟨he, hsrc, hkind⟩, found, hfound, rfl⟩, rfl, rfl⟩
    have hid : found.node_id = e.dst_node_id := by simpa using List.find?_some hfound
    exact ⟨hv, e, he, hkind, hsrc, hid.symm⟩
  · rintro ⟨hm, e, he, hkind, hsrc, hdst⟩
    obtain ⟨a, ha, hid⟩ := List.mem_map.mp (h e he).2
    -- an edge of the view ends at a node of the view
    obtain ⟨found, hfound⟩ : ∃ found, g.nodes.find? (·.node_id == e.dst_node_id) = some found := by
      rw [← Option.isSome_iff_exists, List.find?_isSome]
      exact ⟨a, ha, by simpa using hid⟩
    have hfoundId : found.node_id = e.dst_node_id := by simpa using List.find?_some hfound
    exact ⟨_, ⟨m, hm, e, ⟨he, hsrc, hkind⟩, found, hfound, rfl⟩, rfl, hfoundId.trans hdst⟩

theorem support_isEmpty (h : g.Closed) {chain : List String} :
    (g.support kind chain).isEmpty = true ↔ ∀ m ∈ chain, ∀ target, ¬g.Depends [kind] m target := by
  rw [List.isEmpty_iff, List.eq_nil_iff_forall_not_mem]
  constructor
  · intro hnone m hm target hdepends
    obtain ⟨item, hitem, -⟩ := (mem_support h).mpr ⟨hm, hdepends⟩
    exact hnone item hitem
  · intro hnone item hitem
    obtain ⟨hm, hdepends⟩ := (mem_support h).mp ⟨item, hitem, rfl, rfl⟩
    exact hnone _ hm _ hdepends

/-- What a node implements or derives from, at any distance, and the node itself. -/
def Grounds (g : Graph τ) : String → String → Prop := ReflTransGen (g.Depends [.IMPLEMENTS, .DERIVED_FROM])

/-- The answer says what supports the node, or that the node is not in the view. -/
def Explains (g : Graph τ) (n : String) : Except String Evidence → Prop
  | .error message => known g.nodes n = false ∧ message = s!"node {n} is not valid at this instant"
  | .ok r => known g.nodes n = true ∧ (∀ m, m ∈ r.considered ↔ g.Grounds n m) ∧
      (∀ m target, (∃ item ∈ r.evidence, item.via = m ∧ item.node_id = target) ↔
        g.Grounds n m ∧ g.Depends [.SUPPORTED_BY] m target) ∧
      (∀ m target, (∃ item ∈ r.approvals, item.via = m ∧ item.node_id = target) ↔
        g.Grounds n m ∧ g.Depends [.APPROVED_BY] m target) ∧
      (r.unsupported = true ↔ ∀ m, g.Grounds n m → ∀ target,
        ¬g.Depends [.SUPPORTED_BY] m target ∧ ¬g.Depends [.APPROVED_BY] m target)

end Graph

/-- **Evidence is complete**: what is listed is all that supports the node or any of its grounds, and the node is
    unsupported exactly if there is nothing. -/
theorem evidence_complete [LinearOrder τ] (nodes : List (Node τ)) (edges : List (Edge τ)) (as_of : Option τ)
    (n : String) : (Graph.of nodes edges as_of).Explains n ((Graph.of nodes edges as_of).evidence_for n) := by
  have hclosed : (Graph.of nodes edges as_of).Closed := Graph.closed_of
  generalize Graph.of nodes edges as_of = g at hclosed
  have hchain : ∀ m, m ∈ n :: g.upstream n [.IMPLEMENTS, .DERIVED_FROM] ↔ g.Grounds n m := by
    intro m
    rw [List.mem_cons, Graph.mem_upstream hclosed]
    constructor
    · rintro (rfl | ⟨-, hpath⟩)
      · exact .refl
      · exact hpath
    · intro hpath
      by_cases heq : m = n
      · exact .inl heq
      · exact .inr ⟨heq, hpath⟩
  unfold Graph.evidence_for
  by_cases hknown : known g.nodes n = true
  · rw [if_pos hknown]
    refine ⟨hknown, hchain, fun m target => ?_, fun m target => ?_, ?_⟩
    · rw [← hchain]
      exact Graph.mem_support hclosed
    · rw [← hchain]
      exact Graph.mem_support hclosed
    · rw [Bool.and_eq_true, Graph.support_isEmpty hclosed, Graph.support_isEmpty hclosed]
      constructor
      · rintro ⟨hevidence, happrovals⟩ m hm target
        exact ⟨hevidence m ((hchain m).mpr hm) target, happrovals m ((hchain m).mpr hm) target⟩
      · intro hnone
        exact ⟨fun m hm target => (hnone m ((hchain m).mp hm) target).1,
          fun m hm target => (hnone m ((hchain m).mp hm) target).2⟩
  · rw [if_neg hknown]
    exact ⟨Bool.not_eq_true _ ▸ hknown, rfl⟩

/-! ## Snapshots -/

def edgeLine (e : Edge τ) : String := e.src_node_id ++ "|" ++ e.kind.value ++ "|" ++ e.dst_node_id

structure Snapshot (τ : Type) where
  as_of : Option τ
  nodes : Dict String String
  edges : List String
  snapshot_hash : String

/-- A dictionary of texts as a value. -/
def textDict (d : Dict String String) : List (String × Value) := d.entries.map fun x => (x.1, .str x.2)

/-- What is hashed of a view. -/
def hashedView (nodes : Dict String String) (edges : List String) : Value :=
  .dict [("nodes", .dict (textDict nodes)), ("edges", .list (edges.map .str))]

def Graph.snapshot [Sha256] (g : Graph τ) : Snapshot τ :=
  let nodes := Dict.ofList (g.nodes.map fun n => (n.node_id, n.content_hash))
  let edges := Graph.sorted (g.edges.map edgeLine)
  { as_of := g.as_of
    nodes := .ofList (nodes.entries.mergeSort fun a b => decide (a.1 ≤ b.1))
    edges
    snapshot_hash := canonical_hash (hashedView nodes edges) }

structure SnapshotDiff (τ : Type) where
  from_as_of : Option τ
  to_as_of : Option τ
  nodes_added : List String
  nodes_removed : List String
  nodes_changed : List String
  edges_added : List String
  edges_removed : List String
  identical : Bool

def diff_snapshots (a b : Snapshot τ) : SnapshotDiff τ where
  from_as_of := a.as_of
  to_as_of := b.as_of
  nodes_added := Graph.sorted (b.nodes.keys.filter (· ∉ a.nodes.keys))
  nodes_removed := Graph.sorted (a.nodes.keys.filter (· ∉ b.nodes.keys))
  nodes_changed := Graph.sorted (a.nodes.keys.filter fun k => k ∈ b.nodes.keys ∧ a.nodes.get? k ≠ b.nodes.get? k)
  edges_added := Graph.sorted (b.edges.dedup.filter (· ∉ a.edges))
  edges_removed := Graph.sorted (a.edges.dedup.filter (· ∉ b.edges))
  identical := a.snapshot_hash == b.snapshot_hash

/-- Nothing is listed. -/
def SnapshotDiff.Empty (d : SnapshotDiff τ) : Prop :=
  d.nodes_added = [] ∧ d.nodes_removed = [] ∧ d.nodes_changed = [] ∧ d.edges_added = [] ∧ d.edges_removed = []

theorem sorted_eq_nil {ids : List String} : Graph.sorted ids = [] ↔ ∀ id, id ∉ ids := by
  rw [List.eq_nil_iff_forall_not_mem]
  exact forall_congr' fun id => not_congr Graph.mem_sorted

theorem sorted_eq_iff {l l' : List String} : Graph.sorted l = Graph.sorted l' ↔ ∀ line, l.count line = l'.count line := by
  rw [← List.perm_iff_count]
  have hl : ∀ l, (Graph.sorted l).Perm l := fun l => List.mergeSort_perm _ _
  constructor
  · intro h
    exact (hl l).symm.trans ((h ▸ .refl _ : (Graph.sorted l).Perm (Graph.sorted l')).trans (hl l'))
  · intro h
    have hsorted : ∀ l : List String, (Graph.sorted l).Pairwise (· ≤ ·) := by
      intro l
      have hle : (Graph.sorted l).Pairwise fun a b => decide (a ≤ b) = true := by
        apply List.pairwise_mergeSort
        · intro a b c hab hbc
          simp only [decide_eq_true_eq] at hab hbc ⊢
          exact le_trans hab hbc
        · intro a b
          simpa using le_total a b
      exact hle.imp of_decide_eq_true
    exact List.Perm.eq_of_pairwise (fun a b _ _ hab hba => le_antisymm hab hba) (hsorted l) (hsorted l')
      ((hl l).trans (h.trans (hl l').symm))

theorem mem_textDict {d : Dict String String} {k v : String} : (k, Value.str v) ∈ textDict d ↔ d.get? k = some v := by
  unfold textDict
  rw [Dict.get?_eq_some, List.mem_map]
  constructor
  · rintro ⟨⟨k', v'⟩, h, heq⟩
    cases heq
    exact h
  · exact fun h => ⟨(k, v), h, rfl⟩

theorem texts_same_iff {d d' : Dict String String} :
    (Value.dict (textDict d)).Same (.dict (textDict d')) ↔ ∀ k, d.get? k = d'.get? k := by
  have hnodup : ∀ d : Dict String String, ((textDict d).map Prod.fst).Nodup := by
    intro d
    rw [textDict, List.map_map]
    exact d.nodup
  -- a text is its own normal form
  have hnormal : ∀ (d : Dict String String) k v, (k, Value.str v) ∈ textDict d ↔
      (k, Value.str v) ∈ (Value.sortItems (textDict d)).map fun kv => (id kv.1, kv.2.normal) := by
    intro d k v
    rw [List.mem_map]
    constructor
    · exact fun h => ⟨(k, .str v), Canonical.mem_sortItems.mpr h, rfl⟩
    · rintro ⟨kv, hkv, heq⟩
      obtain ⟨⟨k', v'⟩, hmem, rfl⟩ := List.mem_map.mp (Canonical.mem_sortItems.mp hkv)
      cases heq
      exact List.mem_map_of_mem hmem
  unfold Value.Same
  rw [Canonical.normal_dict, Canonical.normal_dict, Value.dict.injEq]
  constructor
  · intro h k
    refine Option.ext fun v => ?_
    rw [← mem_textDict, ← mem_textDict, hnormal, hnormal, h]
  · intro h
    have hperm : (textDict d).Perm (textDict d') := by
      refine (List.perm_ext_iff_of_nodup (hnodup d).of_map (hnodup d').of_map).mpr fun kv => ?_
      constructor
      · intro hkv
        obtain ⟨⟨k, v⟩, -, rfl⟩ := List.mem_map.mp hkv
        rw [mem_textDict] at hkv ⊢
        exact h k ▸ hkv
      · intro hkv
        obtain ⟨⟨k, v⟩, -, rfl⟩ := List.mem_map.mp hkv
        rw [mem_textDict] at hkv ⊢
        exact (h k).symm ▸ hkv
    rw [Canonical.sortItems_perm hperm (hnodup d)]

theorem list_same_iff {l l' : List String} : (Value.list (l.map .str)).Same (.list (l'.map .str)) ↔ l = l' := by
  have hnormal : ∀ l : List String, (Value.list (l.map .str)).normal = .list (l.map .str) := by
    intro l
    rw [Value.normal, Value.normalList_eq, List.map_map]
    rfl
  unfold Value.Same
  rw [hnormal, hnormal, Value.list.injEq]
  exact List.map_inj_right fun _ _ h => Value.str.inj h

theorem get?_snapshot [Sha256] (g : Graph τ) (k : String) : g.snapshot.nodes.get? k =
    (Dict.ofList (g.nodes.map fun n => (n.node_id, n.content_hash))).get? k := by
  generalize hd : Dict.ofList (g.nodes.map fun n => (n.node_id, n.content_hash)) = d
  have hperm : (d.entries.mergeSort fun a b => decide (a.1 ≤ b.1)).Perm d.entries := List.mergeSort_perm _ _
  refine Option.ext fun v => ?_
  show (Dict.ofList _).get? k = _ ↔ _
  rw [hd, Dict.get?_ofList ((hperm.map Prod.fst).nodup_iff.mpr d.nodup), hperm.mem_iff, Dict.get?_eq_some]

/-- The dictionaries have the same entries where nothing was added, removed or changed. -/
theorem get?_eq_iff {d d' : Dict String String} : (∀ k, d.get? k = d'.get? k) ↔
    (∀ k, ¬(k ∈ d'.keys ∧ k ∉ d.keys)) ∧ (∀ k, ¬(k ∈ d.keys ∧ k ∉ d'.keys)) ∧
      ∀ k, ¬(k ∈ d.keys ∧ k ∈ d'.keys ∧ d.get? k ≠ d'.get? k) := by
  constructor
  · intro h
    have hkeys : ∀ k, k ∈ d.keys ↔ k ∈ d'.keys := by
      intro k
      rw [Dict.mem_keys, Dict.mem_keys, h]
    exact ⟨fun k hk => hk.2 ((hkeys k).mpr hk.1), fun k hk => hk.2 ((hkeys k).mp hk.1), fun k hk => hk.2.2 (h k)⟩
  · rintro ⟨hadded, hremoved, hchanged⟩ k
    by_contra hne
    by_cases hk : k ∈ d.keys
    · by_cases hk' : k ∈ d'.keys
      · exact hchanged k ⟨hk, hk', hne⟩
      · exact hremoved k ⟨hk, hk'⟩
    · by_cases hk' : k ∈ d'.keys
      · exact hadded k ⟨hk', hk⟩
      · exact hne ((Dict.get?_eq_none.mpr hk).trans (Dict.get?_eq_none.mpr hk').symm)

/-- **Snapshots are identical** exactly where they differ in nothing that is listed and no edge is there more often in
    one than in the other. -/
theorem identical_iff [Sha256] (hash : CollisionFree) (a b : Graph τ) :
    (diff_snapshots a.snapshot b.snapshot).identical = true ↔ (diff_snapshots a.snapshot b.snapshot).Empty ∧
      ∀ line, (a.edges.map edgeLine).count line = (b.edges.map edgeLine).count line := by
  have hedges : ∀ line, line ∈ a.snapshot.edges ↔ line ∈ a.edges.map edgeLine := fun _ => Graph.mem_sorted
  have hedges' : ∀ line, line ∈ b.snapshot.edges ↔ line ∈ b.edges.map edgeLine := fun _ => Graph.mem_sorted
  have hsame : (diff_snapshots a.snapshot b.snapshot).identical = true ↔
      (∀ k, a.snapshot.nodes.get? k = b.snapshot.nodes.get? k) ∧
        ∀ line, (a.edges.map edgeLine).count line = (b.edges.map edgeLine).count line := by
    show (canonical_hash _ == canonical_hash _) = true ↔ _
    rw [beq_iff_eq, canonical_hash_eq_iff hash]
    unfold hashedView
    rw [Canonical.same_dict_iff (by rfl) (by simp [List.nodup_cons])]
    simp only [List.map_cons, List.map_nil, List.cons.injEq, and_true]
    refine and_congr ?_ ?_
    · simp only [get?_snapshot]
      exact texts_same_iff
    · rw [← sorted_eq_iff]
      exact list_same_iff
  rw [hsame, get?_eq_iff]
  unfold SnapshotDiff.Empty diff_snapshots
  simp only [sorted_eq_nil, List.mem_filter, decide_eq_true_eq, List.mem_dedup]
  constructor
  · rintro ⟨⟨hadded, hremoved, hchanged⟩, hcount⟩
    have hmem : ∀ line, line ∈ a.snapshot.edges ↔ line ∈ b.snapshot.edges := by
      intro line
      rw [hedges, hedges', ← List.count_pos_iff, ← List.count_pos_iff, hcount]
    exact ⟨⟨hadded, hremoved, hchanged, fun line h => h.2 ((hmem line).mpr h.1), fun line h => h.2 ((hmem line).mp h.1)⟩,
      hcount⟩
  · rintro ⟨⟨hadded, hremoved, hchanged, -, -⟩, hcount⟩
    exact ⟨⟨hadded, hremoved, hchanged⟩, hcount⟩

def oneEdge : Edge ℕ := ⟨⟨0, none⟩, "edge-0", .DEPENDS_ON, "a", "b", []⟩

/-- An edge that is there twice makes a difference, though none is listed. -/
theorem identical_iff_twice : (diff_snapshots (@Graph.snapshot ℕ Canonical.plainHash ⟨none, [], [], [], [oneEdge]⟩)
    (@Graph.snapshot ℕ Canonical.plainHash ⟨none, [], [], [], [oneEdge, oneEdge]⟩)).identical ≠ true := by
  let _ := Canonical.plainHash
  intro h
  exact absurd (((identical_iff Canonical.plainHash_collisionFree _ _).mp h).2 "a|DEPENDS_ON|b") (by decide +kernel)

/-! ## The past -/

/-- A row as it was written. -/
def Node.written (n : Node τ) : Node τ := { n with valid_to := none, superseded_by := none }

def Edge.written (e : Edge τ) : Edge τ := { e with valid_to := none }

variable [LinearOrder τ] {out : Outside τ} {t : τ} {w₀ w : World τ}

/-- What of some rows is valid at an instant. -/
def shown {ρ σ : Type} (window : ρ → Window τ) (written : ρ → σ) (t : τ) (rows : List ρ) : Set σ :=
  {x | ∃ r ∈ rows, valid_at (window r) (some t) = true ∧ written r = x}

section
variable {ρ σ : Type} {window : ρ → Window τ} {written : ρ → σ} {rows : List ρ}

theorem shown_append {r : ρ} (h : t < (window r).valid_from) :
    shown window written t (rows ++ [r]) = shown window written t rows := by
  ext x
  constructor
  · rintro ⟨r', hr', hvalid, rfl⟩
    rcases List.mem_append.mp hr' with hr' | hr'
    · exact ⟨r', hr', hvalid, rfl⟩
    · rw [List.mem_singleton.mp hr', valid_at_some] at hvalid
      exact absurd hvalid (Window.not_holdsAt_of_lt h)
  · rintro ⟨r', hr', hvalid, rfl⟩
    exact ⟨r', List.mem_append_left _ hr', hvalid, rfl⟩

theorem shown_map {f : ρ → ρ} (h : ∀ r ∈ rows, (valid_at (window (f r)) (some t) = true ↔
    valid_at (window r) (some t) = true) ∧ written (f r) = written r) :
    shown window written t (rows.map f) = shown window written t rows := by
  ext x
  constructor
  · rintro ⟨_, hmem, hvalid, rfl⟩
    obtain ⟨r, hr, rfl⟩ := List.mem_map.mp hmem
    exact ⟨r, hr, (h r hr).1.mp hvalid, ((h r hr).2).symm⟩
  · rintro ⟨r, hr, hvalid, rfl⟩
    exact ⟨f r, List.mem_map_of_mem hr, (h r hr).1.mpr hvalid, (h r hr).2⟩

end

/-- What the nodes of the brands show of an instant. -/
def World.pastNodes (w : World τ) (t : τ) : Set (String × Node τ) :=
  shown (·.toWindow) (fun n : NodeRow τ => (n.brand_id, n.toNode.written)) t w.nodes

def World.pastEdges (w : World τ) (t : τ) : Set (String × Edge τ) :=
  shown (·.toWindow) (fun e : EdgeRow τ => (e.brand_id, e.toEdge.written)) t w.edges

/-- The instant is past, and shows what it did. -/
structure Past (out : Outside τ) (t : τ) (w₀ w : World τ) : Prop where
  earlier : t < out.now_iso w.reads
  nodes : w.pastNodes t = w₀.pastNodes t
  edges : w.pastEdges t = w₀.pastEdges t

theorem earlier_succ (hclock : Monotone out.now_iso) (h : Past out t w₀ w) : t < out.now_iso (w.reads + 1) :=
  h.earlier.trans_le (hclock (Nat.le_succ _))

theorem valid_at_closed {window : Window τ} {now : τ} (hcurrent : window.Current) (hlt : t < now) :
    valid_at ⟨window.valid_from, some now⟩ (some t) = true ↔ valid_at window (some t) = true := by
  rw [valid_at_some, valid_at_some]
  exact Window.holdsAt_closed_iff hcurrent hlt

section
variable (hclock : Monotone out.now_iso) (h : Past out t w₀ w)
include hclock h

variable {tenant_id brand_id label content_hash actor src dst : String} {kind : NodeKind} {ekind : EdgeKind}
  {attributes : Attributes} {superseded_by : Option String}

theorem insert_node_past : Ensures (insert_node out tenant_id brand_id kind label attributes content_hash actor) w
    fun _ w' => Past out t w₀ w' := by
  refine insert_node_ensures.mono ?_
  rintro row w' ⟨-, hwindow, rfl⟩
  refine ⟨earlier_succ hclock h, (shown_append ?_).trans h.nodes, h.edges⟩
  rw [hwindow]
  exact h.earlier

theorem insert_edge_past : Ensures (insert_edge out tenant_id brand_id ekind src dst attributes actor) w
    fun _ w' => Past out t w₀ w' := by
  refine insert_edge_ensures.mono ?_
  rintro row w' ⟨-, -, -, -, -, hwindow, rfl⟩
  refine ⟨earlier_succ hclock h, h.nodes, (shown_append ?_).trans h.edges⟩
  rw [hwindow]
  exact h.earlier

theorem close_node_past {node_id : String} : Ensures (close_node out node_id superseded_by) w
    fun _ w' => Past out t w₀ w' := by
  refine close_node_ensures.mono ?_
  rintro _ w' rfl
  refine ⟨earlier_succ hclock h, (shown_map fun n _ => ?_).trans h.nodes, h.edges⟩
  split
  · rename_i hclosed
    exact ⟨valid_at_closed hclosed.2 h.earlier, rfl⟩
  · exact ⟨.rfl, rfl⟩

theorem close_edge_past {edge_id : String} : Ensures (close_edge out edge_id) w fun _ w' => Past out t w₀ w' := by
  refine close_edge_ensures.mono ?_
  rintro _ w' rfl
  refine ⟨earlier_succ hclock h, h.nodes, (shown_map fun e _ => ?_).trans h.edges⟩
  split
  · rename_i hclosed
    exact ⟨valid_at_closed hclosed.2 h.earlier, rfl⟩
  · exact ⟨.rfl, rfl⟩

theorem supersede_all_past {node_id : String} {previous : List (Node τ)} : Ensures (previous.forM fun prev => do
      discard <| insert_edge out tenant_id brand_id .SUPERSEDES node_id prev.node_id
        [("reason", .str "genome version approved")] "system"
      close_node out prev.node_id (some node_id)) w fun _ w' => Past out t w₀ w' := by
  induction previous generalizing w with
  | nil => exact Ensures.pure h
  | cons prev previous ih =>
    refine Ensures.bind (Ensures.bind (insert_edge_past hclock h).discard ?_) fun _ _ hdone => ih hdone
    rintro _ w₁ ⟨_, hedge⟩
    exact close_node_past hclock hedge

variable [Sha256]

/-- **No call changes the past**, whether it succeeds or raises. -/
theorem Past.after (call : Call) : Past out t w₀ (w.after out call) := by
  have hcall : Ensures (call.run out) w fun _ w' => Past out t w₀ w' := by
    cases call with
    | add_node =>
      refine Ensures.lift (Ensures.bind checkedAttributes_ensures ?_)
      rintro attrs w₁ rfl
      exact (insert_node_past hclock h).discard.mono fun _ _ ⟨_, hpast⟩ => hpast
    | add_edge =>
      refine Ensures.lift (Ensures.locked ?_)
      split
      · exact Ensures.raise
      · refine Ensures.bind checkedAttributes_ensures ?_
        rintro attrs w₁ rfl
        exact (insert_edge_past hclock h).discard.mono fun _ _ ⟨_, hpast⟩ => hpast
    | supersede_node principal node_id =>
      refine Ensures.get ?_
      cases hfound : w.nodes.find? (·.node_id == node_id) with
      | none => exact Ensures.raise
      | some old =>
        refine Ensures.check fun _ => Ensures.lift (Ensures.bind checkedAttributes_ensures ?_)
        rintro attrs w₁ rfl
        refine Ensures.locked (Ensures.check fun _ => Ensures.bind (insert_node_past hclock h) ?_)
        intro new w₂ hnew
        refine Ensures.bind (insert_edge_past hclock hnew).discard ?_
        rintro _ w₃ ⟨_, hedge⟩
        exact close_node_past hclock hedge
    | retire_edge =>
      exact Ensures.lift (Ensures.get (Ensures.check fun _ => close_edge_past hclock h))
    | record_genome_decision =>
      refine Ensures.locked (Ensures.bind (insert_node_past hclock h) ?_)
      intro node w₁ hnode
      refine Ensures.bind (insert_node_past hclock hnode) ?_
      intro a_node w₂ hboth
      refine Ensures.bind (insert_edge_past hclock hboth).discard ?_
      rintro _ w₃ ⟨_, hedge⟩
      refine Ensures.bind (supersede_all_past hclock hedge) ?_
      intro _ w₄ hall
      dsimp only
      split
      · exact Ensures.pure hall
      · exact (insert_edge_past hclock hall).discard.mono fun _ _ ⟨_, hpast⟩ => hpast
    | fork =>
      refine Ensures.locked (Ensures.bind (insert_node_past hclock h) ?_)
      intro node w₁ hnode
      dsimp only
      split
      · exact Ensures.pure hnode
      · exact (insert_edge_past hclock hnode).discard.mono fun _ _ ⟨_, hpast⟩ => hpast
  unfold World.after
  cases hr : call.run out w with
  | ok x => exact hcall x.1 x.2 hr
  | error e => exact h

end

theorem mem_written_nodes {brand_id : String} {n : Node τ} :
    n ∈ (w.graph brand_id (some t)).nodes.map Node.written ↔ (brand_id, n) ∈ w.pastNodes t := by
  simp only [World.graph, List.mem_map, mem_nodes_of, mem_load_nodes]
  constructor
  · rintro ⟨_, ⟨⟨row, ⟨hrow, rfl⟩, rfl⟩, hvalid⟩, rfl⟩
    exact ⟨row, hrow, hvalid, rfl⟩
  · rintro ⟨row, hrow, hvalid, heq⟩
    cases heq
    exact ⟨row.toNode, ⟨⟨row, ⟨hrow, rfl⟩, rfl⟩, hvalid⟩, rfl⟩

theorem seen_past {brand_id id : String} : w.Seen brand_id (some t) id ↔
    ∃ n, (brand_id, n) ∈ w.pastNodes t ∧ n.node_id = id := by
  constructor
  · rintro ⟨row, hrow, rfl, hvalid, rfl⟩
    exact ⟨row.toNode.written, ⟨row, hrow, hvalid, rfl⟩, rfl⟩
  · rintro ⟨_, ⟨row, hrow, hvalid, heq⟩, rfl⟩
    cases heq
    exact ⟨row, hrow, rfl, hvalid, rfl⟩

theorem mem_written_edges {brand_id : String} {e : Edge τ} :
    e ∈ (w.graph brand_id (some t)).edges.map Edge.written ↔ (brand_id, e) ∈ w.pastEdges t ∧
      w.Seen brand_id (some t) e.src_node_id ∧ w.Seen brand_id (some t) e.dst_node_id := by
  simp only [World.graph, List.mem_map (f := Edge.written), mem_edges_of, ← seen_iff]
  constructor
  · rintro ⟨_, ⟨hmem, hvalid, hsrc, hdst⟩, rfl⟩
    obtain ⟨row, hload, rfl⟩ := List.mem_map.mp hmem
    obtain ⟨hrow, rfl⟩ := mem_load_edges.mp hload
    exact ⟨⟨row, hrow, hvalid, rfl⟩, hsrc, hdst⟩
  · rintro ⟨⟨row, hrow, hvalid, heq⟩, hsrc, hdst⟩
    cases heq
    exact ⟨row.toEdge, ⟨List.mem_map_of_mem (mem_load_edges.mpr ⟨hrow, rfl⟩), hvalid, hsrc, hdst⟩, rfl⟩

/-- The views show the same nodes and edges, as they were written. -/
def Graph.Alike (a b : Graph τ) : Prop :=
  (∀ n, n ∈ a.nodes.map Node.written ↔ n ∈ b.nodes.map Node.written) ∧
    ∀ e, e ∈ a.edges.map Edge.written ↔ e ∈ b.edges.map Edge.written

/-- **The past is kept**: whatever is called from now on, a view as of an earlier instant shows the same. -/
theorem past_kept [Sha256] (hclock : Monotone out.now_iso) (calls later : List Call) {t : τ}
    (hlt : t < out.now_iso (World.run out calls).reads) (brand_id : String) :
    ((World.run out (calls ++ later)).graph brand_id (some t)).Alike
      ((World.run out calls).graph brand_id (some t)) := by
  have hpast : Past out t (World.run out calls) (World.run out (calls ++ later)) := by
    induction later using List.reverseRecOn with
    | nil =>
      rw [List.append_nil]
      exact ⟨hlt, rfl, rfl⟩
    | append_singleton later call ih =>
      rw [← List.append_assoc, World.run.eq_def out (_ ++ [call]), List.foldl_append]
      exact ih.after hclock call
  have hseen : ∀ id, (World.run out (calls ++ later)).Seen brand_id (some t) id ↔
      (World.run out calls).Seen brand_id (some t) id := by
    intro id
    rw [seen_past, seen_past, hpast.nodes]
  refine ⟨fun n => ?_, fun e => ?_⟩
  · rw [mem_written_nodes, mem_written_nodes, hpast.nodes]
  · rw [mem_written_edges, mem_written_edges, hpast.edges, hseen, hseen]

theorem past_kept_reverse : ((@World.run ℕ _ Canonical.mixHash halfClock retireAndReverse).graph "b" (some 0)).Alike
    ((@World.run ℕ _ Canonical.mixHash halfClock (retireAndReverse.take 2)).graph "b" (some 0)) :=
  @past_kept ℕ _ halfClock Canonical.mixHash (fun _ _ h => Nat.div_le_div_right h) (retireAndReverse.take 2)
    (retireAndReverse.drop 2) 0 (by decide +kernel) "b"

end Lineage
