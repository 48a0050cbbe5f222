import MissionControl.Canonical.Hash
import MissionControl.Relational.Cycles
import MissionControl.Relational.Spans
import Mathlib.Data.List.Dedup
import Mathlib.Data.String.Basic

/-! # The temporal creative knowledge graph

Typed nodes and edges with validity windows. Every edge kind says which node kinds it may
connect, lineage edges must stay acyclic among what is valid at the same moment, and a view
*as of* an instant sees only what was valid then.

A stamp is any ordered value: the source compares the ISO strings it writes. -/

namespace Lineage

open Canonical (Value)
open Relational

inductive NodeKind where
  | BRAND
  | GENOME_VERSION
  | CAMPAIGN
  | AUDIENCE
  | INSIGHT
  | DESIGN_DECISION
  | CREATIVE_CONCEPT
  | ASSET
  | PROMPT
  | EXPERIMENT
  | EXPERIENCE
  | CHANNEL
  | PROVIDER_JOB
  | APPROVAL
  | EVIDENCE
  | BRANCH
  deriving DecidableEq

def NodeKind.value : NodeKind → String
  | BRAND => "Brand"
  | GENOME_VERSION => "GenomeVersion"
  | CAMPAIGN => "Campaign"
  | AUDIENCE => "Audience"
  | INSIGHT => "Insight"
  | DESIGN_DECISION => "DesignDecision"
  | CREATIVE_CONCEPT => "CreativeConcept"
  | ASSET => "Asset"
  | PROMPT => "Prompt"
  | EXPERIMENT => "Experiment"
  | EXPERIENCE => "Experience"
  | CHANNEL => "Channel"
  | PROVIDER_JOB => "ProviderJob"
  | APPROVAL => "Approval"
  | EVIDENCE => "Evidence"
  | BRANCH => "Branch"

inductive EdgeKind where
  | DERIVED_FROM
  | APPROVED_BY
  | DEPENDS_ON
  | SUPERSEDES
  | IMPLEMENTS
  | GENERATED_BY
  | TESTED_BY
  | TARGETS
  | CONFLICTS_WITH
  | SUPPORTED_BY
  deriving DecidableEq

def EdgeKind.value : EdgeKind → String
  | DERIVED_FROM => "DERIVED_FROM"
  | APPROVED_BY => "APPROVED_BY"
  | DEPENDS_ON => "DEPENDS_ON"
  | SUPERSEDES => "SUPERSEDES"
  | IMPLEMENTS => "IMPLEMENTS"
  | GENERATED_BY => "GENERATED_BY"
  | TESTED_BY => "TESTED_BY"
  | TARGETS => "TARGETS"
  | CONFLICTS_WITH => "CONFLICTS_WITH"
  | SUPPORTED_BY => "SUPPORTED_BY"

def ANY : List NodeKind :=
  [.BRAND, .GENOME_VERSION, .CAMPAIGN, .AUDIENCE, .INSIGHT, .DESIGN_DECISION, .CREATIVE_CONCEPT, .ASSET,
    .PROMPT, .EXPERIMENT, .EXPERIENCE, .CHANNEL, .PROVIDER_JOB, .APPROVAL, .EVIDENCE, .BRANCH]

/-- `ANY` less some kinds. -/
def anyBut (kinds : List NodeKind) : List NodeKind := ANY.filter fun k => k ∉ kinds

def PRODUCTS : List NodeKind := [.ASSET, .EXPERIENCE, .CREATIVE_CONCEPT, .CAMPAIGN, .PROMPT]

/-- For each edge kind, the source kinds and the destination kinds it allows. -/
def EDGE_RULES : EdgeKind → List NodeKind × List NodeKind
  | .DERIVED_FROM => (anyBut [.APPROVAL, .EVIDENCE], anyBut [.APPROVAL])
  | .APPROVED_BY => (anyBut [.APPROVAL, .EVIDENCE], [.APPROVAL])
  | .DEPENDS_ON => (anyBut [.APPROVAL], anyBut [.APPROVAL])
  | .SUPERSEDES => (ANY, ANY)  -- that both are of the same kind is checked separately
  | .IMPLEMENTS => (PRODUCTS ++ [.GENOME_VERSION], [.DESIGN_DECISION, .CREATIVE_CONCEPT, .CAMPAIGN, .INSIGHT])
  | .GENERATED_BY => ([.ASSET, .EXPERIENCE], [.PROVIDER_JOB, .PROMPT])
  | .TESTED_BY => (PRODUCTS ++ [.DESIGN_DECISION, .INSIGHT], [.EXPERIMENT])
  | .TARGETS => (PRODUCTS ++ [.EXPERIMENT], [.AUDIENCE, .CHANNEL])
  | .CONFLICTS_WITH => (anyBut [.APPROVAL, .EVIDENCE], anyBut [.APPROVAL, .EVIDENCE])
  | .SUPPORTED_BY => (anyBut [.EVIDENCE], [.EVIDENCE])

def ACYCLIC : List EdgeKind := [.DERIVED_FROM, .DEPENDS_ON, .SUPERSEDES, .IMPLEMENTS, .GENERATED_BY]

/-- A JSON object. -/
abbrev Attributes := List (String × Value)

/-- `attributes.get(key) == text`. -/
def Attributes.has (attributes : Attributes) (key text : String) : Bool :=
  match attributes.lookup key with
  | some (.str s) => s == text
  | _ => false

structure Node (τ : Type) extends Window τ where
  node_id : String
  kind : NodeKind
  label : String
  attributes : Attributes
  content_hash : String
  superseded_by : Option String

structure Edge (τ : Type) extends Window τ where
  edge_id : String
  kind : EdgeKind
  src_node_id : String
  dst_node_id : String
  provenance : Attributes

def node_hash [Canonical.Sha256] (kind : NodeKind) (label : String) (attributes : Attributes) : String :=
  Canonical.canonical_hash (.dict [("kind", .str kind.value), ("label", .str label), ("attributes", .dict attributes)])

variable {τ : Type} [LinearOrder τ]

/-- The record counts at the instant, or now when none is given. -/
def valid_at (record : Window τ) : Option τ → Bool
  | none => decide record.Current
  | some as_of => decide (record.HoldsAt as_of)

variable {record : Window τ}

theorem valid_at_none : valid_at record none = true ↔ record.Current := by
  simp [valid_at]

theorem valid_at_some {as_of : τ} : valid_at record (some as_of) = true ↔ record.HoldsAt as_of := by
  simp [valid_at]

/-- A view of one brand's graph at one instant. -/
structure Graph (τ : Type) where
  as_of : Option τ
  all_nodes : List (Node τ)
  nodes : List (Node τ)
  all_edges : List (Edge τ)
  edges : List (Edge τ)

/-- The node is among these. -/
def known (nodes : List (Node τ)) (node_id : String) : Bool := nodes.any (·.node_id == node_id)

/-- The view of some rows as of an instant. `all_edges` may point at a node superseded
    since, `edges` may not. -/
def Graph.of (nodes : List (Node τ)) (edges : List (Edge τ)) (as_of : Option τ) : Graph τ :=
  let valid := nodes.filter fun n => valid_at n.toWindow as_of
  let all_edges := edges.filter fun e =>
    valid_at e.toWindow as_of && known nodes e.src_node_id && known nodes e.dst_node_id
  { as_of
    all_nodes := nodes
    nodes := valid
    all_edges
    edges := all_edges.filter fun e => known valid e.src_node_id && known valid e.dst_node_id }

namespace Graph

variable (g : Graph τ)

/-- Where the edges of some kinds lead from a node. -/
def targets (kinds : List EdgeKind) (node_id : String) : List String :=
  (g.edges.filter fun e => e.kind ∈ kinds ∧ e.src_node_id = node_id).map (·.dst_node_id)

/-- The search is breadth first; a round takes one node from the queue. -/
def reaches (start goal : String) (kinds : List EdgeKind) : Bool :=
  finds (g.targets kinds) goal (g.nodes.length + 1) [start] [start]

/-- Why an edge is refused. -/
def check_edge (kind : EdgeKind) (src dst : String) : Except String Unit := do
  if src = dst then
    throw "an edge cannot connect a node to itself"
  match g.nodes.find? (·.node_id == src), g.nodes.find? (·.node_id == dst) with
  | some source, some target =>
    let a := source.kind
    let b := target.kind
    if a ∉ (EDGE_RULES kind).1 ∨ b ∉ (EDGE_RULES kind).2 then
      throw s!"{kind.value} may not connect {a.value} -> {b.value}"
    if kind = .SUPERSEDES ∧ a ≠ b then
      throw "SUPERSEDES connects two nodes of the same kind"
    if g.edges.any fun e => e.kind = kind ∧ e.src_node_id = src ∧ e.dst_node_id = dst then
      throw s!"{kind.value} {src} -> {dst} already exists"
    if kind ∈ ACYCLIC ∧ g.reaches dst src ACYCLIC then
      throw s!"{kind.value} {src} -> {dst} would create a lineage cycle"
  | _, _ => throw "both endpoints must exist and be currently valid"

/-- The nodes lineage edges leave. -/
def sources : List String :=
  ((g.edges.filter fun e => e.kind ∈ ACYCLIC).map (·.src_node_id)).dedup

/-- `sorted` on node ids. -/
def sorted (ids : List String) : List String := ids.mergeSort fun a b => decide (a ≤ b)

/-- Lineage cycles in the stored data: none when the recursion was cut off. -/
def find_cycles : Option (List (List String)) :=
  findCycles (fun n => sorted (g.targets ACYCLIC n)) g.nodes.length (sorted g.sources)

/-! ## Lineage -/

/-- A lineage edge of the view leads from one node to another. -/
def Leads (g : Graph τ) (a b : String) : Prop :=
  ∃ e ∈ g.edges, e.kind ∈ ACYCLIC ∧ e.src_node_id = a ∧ e.dst_node_id = b

section
omit [LinearOrder τ]

theorem mem_targets {kinds : List EdgeKind} {a b : String} :
    b ∈ g.targets kinds a ↔ ∃ e ∈ g.edges, e.kind ∈ kinds ∧ e.src_node_id = a ∧ e.dst_node_id = b := by
  simp [targets, and_assoc]

theorem succ_targets : Succ (g.targets ACYCLIC) = g.Leads := by
  funext a b
  exact propext (g.mem_targets)

theorem known_iff {nodes : List (Node τ)} {node_id : String} :
    known nodes node_id = true ↔ ∃ n ∈ nodes, n.node_id = node_id := by
  simp [known]

end

end Graph

variable {nodes : List (Node τ)} {edges : List (Edge τ)} {as_of : Option τ}

theorem mem_nodes_of {n : Node τ} :
    n ∈ (Graph.of nodes edges as_of).nodes ↔ n ∈ nodes ∧ valid_at n.toWindow as_of = true :=
  List.mem_filter

theorem mem_edges_of {e : Edge τ} :
    e ∈ (Graph.of nodes edges as_of).edges ↔ e ∈ edges ∧ valid_at e.toWindow as_of = true ∧
      (∃ n ∈ nodes, valid_at n.toWindow as_of = true ∧ n.node_id = e.src_node_id) ∧
      ∃ n ∈ nodes, valid_at n.toWindow as_of = true ∧ n.node_id = e.dst_node_id := by
  have hknown : ∀ id, known (nodes.filter fun n => valid_at n.toWindow as_of) id = true →
      known nodes id = true := by
    intro id h
    obtain ⟨n, hn, hid⟩ := Graph.known_iff.mp h
    exact Graph.known_iff.mpr ⟨n, (List.mem_filter.mp hn).1, hid⟩
  have hvalid : ∀ id, known (nodes.filter fun n => valid_at n.toWindow as_of) id = true ↔
      ∃ n ∈ nodes, valid_at n.toWindow as_of = true ∧ n.node_id = id := by
    intro id
    rw [Graph.known_iff]
    simp only [List.mem_filter, and_assoc]
  simp only [Graph.of, List.mem_filter, Bool.and_eq_true, hvalid]
  constructor
  · rintro ⟨⟨he, ⟨hv, -⟩, -⟩, hsrc, hdst⟩
    exact ⟨he, hv, hsrc, hdst⟩
  · rintro ⟨he, hv, hsrc, hdst⟩
    exact ⟨⟨he, ⟨hv, hknown _ ((hvalid _).mpr hsrc)⟩, hknown _ ((hvalid _).mpr hdst)⟩, hsrc, hdst⟩

namespace Graph

variable {g : Graph τ}

/-- Every edge of the view has both its ends in it. -/
def Closed (g : Graph τ) : Prop :=
  ∀ e ∈ g.edges, e.src_node_id ∈ g.nodes.map (·.node_id) ∧ e.dst_node_id ∈ g.nodes.map (·.node_id)

theorem closed_of : (Graph.of nodes edges as_of).Closed := by
  intro e he
  obtain ⟨-, -, ⟨n, hn, hv, hsrc⟩, ⟨n', hn', hv', hdst⟩⟩ := mem_edges_of.mp he
  constructor
  · exact List.mem_map.mpr ⟨n, mem_nodes_of.mpr ⟨hn, hv⟩, hsrc⟩
  · exact List.mem_map.mpr ⟨n', mem_nodes_of.mpr ⟨hn', hv'⟩, hdst⟩

section
omit [LinearOrder τ]

/-- **The search for a path is exact**: it has a round for each node of the view. -/
theorem reaches_iff (h : g.Closed) {start goal : String} :
    g.reaches start goal ACYCLIC = true ↔ Relation.ReflTransGen g.Leads start goal := by
  rw [← succ_targets]
  refine finds_iff (start :: g.nodes.map (·.node_id)) ?_ List.mem_cons_self (by simp)
  intro a b hb
  obtain ⟨e, he, -, -, rfl⟩ := g.mem_targets.mp hb
  exact List.mem_cons_of_mem _ (h e he).2

theorem mem_sorted {ids : List String} {id : String} : id ∈ sorted ids ↔ id ∈ ids :=
  List.mem_mergeSort

/-- **The search for cycles always ends, and finds none exactly when lineage is acyclic.** -/
theorem find_cycles_spec (h : g.Closed) :
    ∃ cycles, g.find_cycles = some cycles ∧ (cycles = [] ↔ Acyclic g.Leads) := by
  have hsucc : Succ (fun n => sorted (g.targets ACYCLIC n)) = g.Leads := by
    rw [← succ_targets]
    funext a b
    exact propext mem_sorted
  have hsources : ∀ a, a ∈ sorted g.sources ↔ ∃ e ∈ g.edges, e.kind ∈ ACYCLIC ∧ e.src_node_id = a := by
    intro a
    simp [mem_sorted, sources, and_assoc]
  rw [← hsucc]
  refine findCycles_spec (g.nodes.map (·.node_id)).toFinset ?_ ?_ ?_ ?_
  · intro a b hb
    obtain ⟨e, he, -, -, rfl⟩ := g.mem_targets.mp (mem_sorted.mp hb)
    exact List.mem_toFinset.mpr (h e he).2
  · intro a ha
    obtain ⟨e, he, -, rfl⟩ := (hsources a).mp ha
    exact List.mem_toFinset.mpr (h e he).1
  · intro a b hb
    obtain ⟨e, he, hkind, hsrc, -⟩ := g.mem_targets.mp (mem_sorted.mp hb)
    exact (hsources a).mpr ⟨e, he, hkind, hsrc⟩
  · exact (List.toFinset_card_le _).trans (by simp)

end

/-- What an edge that is not refused satisfies. -/
structure Admits (g : Graph τ) (kind : EdgeKind) (src dst : String) : Prop where
  apart : src ≠ dst
  source : ∃ a ∈ g.nodes, a.node_id = src ∧ a.kind ∈ (EDGE_RULES kind).1
  target : ∃ b ∈ g.nodes, b.node_id = dst ∧ b.kind ∈ (EDGE_RULES kind).2
  open_end : kind ∈ ACYCLIC → g.reaches dst src ACYCLIC = false

omit [LinearOrder τ] in
theorem check_edge_ok {kind : EdgeKind} {src dst : String} (h : g.check_edge kind src dst = .ok ()) :
    g.Admits kind src dst := by
  have hfound : ∀ {id : String} {n : Node τ}, g.nodes.find? (·.node_id == id) = some n →
      n ∈ g.nodes ∧ n.node_id = id := by
    intro id n hn
    exact ⟨List.mem_of_find?_eq_some hn, by simpa using List.find?_some hn⟩
  unfold check_edge at h
  by_cases hne : src = dst
  · rw [if_pos hne] at h
    cases h
  · rw [if_neg hne] at h
    cases hsrc : g.nodes.find? (·.node_id == src) with
    | none =>
      simp only [hsrc] at h
      cases h
    | some source =>
      cases hdst : g.nodes.find? (·.node_id == dst) with
      | none =>
        simp only [hsrc, hdst] at h
        cases h
      | some target =>
        simp only [hsrc, hdst] at h
        by_cases hrules : source.kind ∉ (EDGE_RULES kind).1 ∨ target.kind ∉ (EDGE_RULES kind).2
        · rw [if_pos hrules] at h
          cases h
        rw [if_neg hrules] at h
        rw [not_or, not_not, not_not] at hrules
        refine ⟨hne, ⟨source, (hfound hsrc).1, (hfound hsrc).2, hrules.1⟩,
          ⟨target, (hfound hdst).1, (hfound hdst).2, hrules.2⟩, fun hkind => ?_⟩
        -- the last guard is the one against cycles
        cases hreach : g.reaches dst src ACYCLIC with
        | false => rfl
        | true =>
          exfalso
          simp only [hkind, hreach, and_self, if_true] at h
          split at h
          · cases h
          · split at h <;> cases h

end Graph

end Lineage
