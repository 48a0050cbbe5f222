import MissionControl.Lineage.Graph

/-! # The writers of a graph

The node and edge tables, the four statements that write them, and the operations of the
graph service. Graph writers are serialized per brand, so each call is one atomic step: it
runs as a transaction, and a call that raises leaves the tables as they were.

What the service reads from outside is a parameter: the clock, the random ids, and the length
of an attribute object as JSON text. -/

namespace Lineage

open Canonical (Value)
open Relational

variable {τ : Type} [LinearOrder τ]

/-! ## Tables -/

structure NodeRow (τ : Type) extends Node τ where
  tenant_id : String
  brand_id : String
  created_by : String
  created_at : τ

structure EdgeRow (τ : Type) extends Edge τ where
  tenant_id : String
  brand_id : String
  created_by : String
  created_at : τ

/-- The tables, with how often the clock was read and an id was drawn. -/
structure World (τ : Type) where
  nodes : List (NodeRow τ)
  edges : List (EdgeRow τ)
  reads : ℕ
  drawn : ℕ

def World.empty : World τ := ⟨[], [], 0, 0⟩

/-- What the outside answers: the clock, the random ids, the length of a JSON text. -/
structure Outside (τ : Type) where
  now_iso : ℕ → τ
  uuid4 : ℕ → String
  json_length : Attributes → ℕ

inductive Fault where
  | graph (message : String)
  | conflict (message : String)
  | notFound (message : String)
  | forbidden (message : String)
  | invalid (message : String)
  /-- A key is taken, a reference dangles, or a check of the table fails. -/
  | integrity

/-- A transaction: its writes are lost when it raises. -/
abbrev Tx (τ : Type) := StateT (World τ) (Except Fault)

/-- `ORDER BY created_at, id`. -/
def ordered {ρ : Type} (created_at : ρ → τ) (key : ρ → String) (rows : List ρ) : List ρ :=
  rows.mergeSort fun a b => decide (created_at a < created_at b ∨ created_at a = created_at b ∧ key a ≤ key b)

/-- Nodes and edges of one brand. -/
def World.load_graph (w : World τ) (brand_id : String) : List (NodeRow τ) × List (EdgeRow τ) :=
  (ordered (·.created_at) (·.node_id) (w.nodes.filter (·.brand_id == brand_id)),
    ordered (·.created_at) (·.edge_id) (w.edges.filter (·.brand_id == brand_id)))

/-- The view of one brand's graph as of an instant, or now. -/
def World.graph (w : World τ) (brand_id : String) (as_of : Option τ) : Graph τ :=
  Graph.of ((w.load_graph brand_id).1.map (·.toNode)) ((w.load_graph brand_id).2.map (·.toEdge)) as_of

def World.has_node (w : World τ) (node_id : String) : Bool := w.nodes.any (·.node_id == node_id)

/-! ## Statements -/

section
variable (out : Outside τ)

def now_iso : Tx τ τ := fun w => .ok (out.now_iso w.reads, { w with reads := w.reads + 1 })

def uuid4 : Tx τ String := fun w => .ok (out.uuid4 w.drawn, { w with drawn := w.drawn + 1 })

def insert_node (tenant_id brand_id : String) (kind : NodeKind) (label : String) (attributes : Attributes)
    (content_hash actor : String) : Tx τ (NodeRow τ) := do
  let id ← uuid4 out
  let stamp ← now_iso out
  let row : NodeRow τ :=
    { node_id := "node-" ++ id, tenant_id, brand_id, kind, label, attributes, content_hash
      valid_from := stamp, valid_to := none, superseded_by := none, created_by := actor, created_at := stamp }
  let w ← get
  if w.has_node row.node_id then
    throw .integrity
  set { w with nodes := w.nodes ++ [row] }
  return row

def insert_edge (tenant_id brand_id : String) (kind : EdgeKind) (src dst : String) (provenance : Attributes)
    (actor : String) : Tx τ (EdgeRow τ) := do
  let id ← uuid4 out
  let stamp ← now_iso out
  let row : EdgeRow τ :=
    { edge_id := "edge-" ++ id, tenant_id, brand_id, kind, src_node_id := src, dst_node_id := dst, provenance
      valid_from := stamp, valid_to := none, created_by := actor, created_at := stamp }
  let w ← get
  -- the key, both references, and the check that the ends differ
  if w.edges.any (·.edge_id == row.edge_id) ∨ ¬ (w.has_node src ∧ w.has_node dst) ∨ src = dst then
    throw .integrity
  set { w with edges := w.edges ++ [row] }
  return row

/-- Close a row that is still current. -/
def NodeRow.close (n : NodeRow τ) (stamp : τ) (superseded_by : Option String) : NodeRow τ :=
  { n with valid_to := some stamp, superseded_by }

def EdgeRow.close (e : EdgeRow τ) (stamp : τ) : EdgeRow τ := { e with valid_to := some stamp }

def close_node (node_id : String) (superseded_by : Option String) : Tx τ Unit := do
  let stamp ← now_iso out
  let w ← get
  if ¬ w.nodes.any (fun n => n.node_id = node_id ∧ n.Current) then
    throw (.conflict s!"node {node_id} is not currently valid")
  set { w with nodes := w.nodes.map fun (n : NodeRow τ) =>
          if n.node_id = node_id ∧ n.Current then n.close stamp superseded_by else n }

def close_edge (edge_id : String) : Tx τ Unit := do
  let stamp ← now_iso out
  let w ← get
  if ¬ w.edges.any (·.edge_id == edge_id) then
    throw (.notFound s!"edge {edge_id} not found")
  if ¬ w.edges.any (fun e => e.edge_id = edge_id ∧ e.Current) then
    throw (.conflict s!"edge {edge_id} is already closed")
  set { w with edges := w.edges.map fun (e : EdgeRow τ) =>
          if e.edge_id = edge_id ∧ e.Current then e.close stamp else e }

/-! ## The service -/

/-- Who calls: `brand_access` is what `_brand_access(..., write=True)` answers for a brand. -/
structure Principal where
  tenant_id : String
  user_id : String
  brand_access : String → Except Fault Unit

def MAX_ATTRIBUTE_BYTES : ℕ := 16384

/-- `_attributes`. -/
def checkedAttributes (attributes : Attributes) : Tx τ Attributes := do
  if MAX_ATTRIBUTE_BYTES < out.json_length attributes then
    throw (.invalid s!"node attributes exceed {MAX_ATTRIBUTE_BYTES} bytes")
  return attributes

/-- `_graph_locked`. -/
def graph_locked (brand_id : String) : Tx τ (Graph τ) := do
  return (← get).graph brand_id none

variable [Canonical.Sha256]

def add_node (principal : Principal) (brand_id : String) (kind : NodeKind) (label : String)
    (attributes : Attributes) (actor : Option String) : Tx τ Unit := do
  principal.brand_access brand_id
  let attrs ← checkedAttributes out attributes
  discard <| insert_node out principal.tenant_id brand_id kind label attrs (node_hash kind label attrs)
    (actor.getD principal.user_id)

def add_edge (principal : Principal) (brand_id : String) (kind : EdgeKind) (src dst : String)
    (provenance : Attributes) : Tx τ Unit := do
  principal.brand_access brand_id
  let graph ← graph_locked brand_id
  match graph.check_edge kind src dst with
  | .error message => throw (.graph message)
  | .ok () =>
    let attrs ← checkedAttributes out provenance
    discard <| insert_edge out principal.tenant_id brand_id kind src dst attrs principal.user_id

/-- Replace a decision without deleting it: close the old node, add the new one, link them. -/
def supersede_node (principal : Principal) (node_id label : String) (attributes : Attributes) : Tx τ Unit := do
  match (← get).nodes.find? (·.node_id == node_id) with
  | none => throw (.notFound s!"node {node_id} not found")
  | some old =>
    if old.tenant_id ≠ principal.tenant_id then
      throw (.notFound s!"node {node_id} not found")
    principal.brand_access old.brand_id
    let attrs ← checkedAttributes out attributes
    let graph ← graph_locked old.brand_id
    if ¬ known graph.nodes node_id then
      throw (.conflict s!"node {node_id} was already superseded or retired")
    let new ← insert_node out old.tenant_id old.brand_id old.kind label attrs (node_hash old.kind label attrs)
      principal.user_id
    discard <| insert_edge out old.tenant_id old.brand_id .SUPERSEDES new.node_id node_id
      [("reason", .str "superseded")] principal.user_id
    close_node out node_id (some new.node_id)

def retire_edge (principal : Principal) (brand_id edge_id : String) : Tx τ Unit := do
  principal.brand_access brand_id
  if ¬ ((← get).load_graph brand_id).2.any (·.edge_id == edge_id) then
    throw (.notFound s!"edge {edge_id} not found")
  close_edge out edge_id

/-- The columns of a genome version that its graph node carries. -/
structure VersionRow where
  version_id : String
  tenant_id : String
  brand_id : String
  scope : String
  scope_ref : String
  version : Int
  content_hash : String
  origin : Option String
  origin_ref : Option String

/-- The columns of an approval that its graph node carries. -/
structure ApprovalRow where
  approval_id : String
  reviewer : Option String
  decision : Option String
  subject_hash : Option String
  decided_at : Option String

/-- A nullable text column as JSON. -/
def nullable : Option String → Value
  | none => .none
  | some s => .str s

/-- The text, unless it is missing or empty. -/
def truthy (s : Option String) : Option String := s.filter (· ≠ "")

/-- Link an approved genome version into the graph: the version is approved by the approval, and
    supersedes the versions of its scope that are in the graph. -/
def record_genome_decision (version : VersionRow) (approval : ApprovalRow) : Tx τ Unit := do
  let graph ← graph_locked version.brand_id
  let attrs : Attributes :=
    [("ref", .str version.version_id), ("scope", .str version.scope), ("scope_ref", .str version.scope_ref),
      ("version", .int version.version), ("content_hash", .str version.content_hash)]
  let label := s!"{version.scope}:{version.scope_ref} v{version.version}"
  let node ← insert_node out version.tenant_id version.brand_id .GENOME_VERSION label attrs
    (node_hash .GENOME_VERSION label attrs) "system"
  let a_attrs : Attributes :=
    [("ref", .str approval.approval_id), ("reviewer", nullable approval.reviewer),
      ("decision", nullable approval.decision), ("subject_hash", nullable approval.subject_hash),
      ("decided_at", nullable approval.decided_at)]
  let a_node ← insert_node out version.tenant_id version.brand_id .APPROVAL
    ("approval " ++ String.ofList (approval.approval_id.toList.take 8)) a_attrs
    (node_hash .APPROVAL "approval" a_attrs) "system"
  discard <| insert_edge out version.tenant_id version.brand_id .APPROVED_BY node.node_id a_node.node_id
    [("approval_id", .str approval.approval_id)] "system"
  let previous := graph.nodes.filter fun n => n.kind = .GENOME_VERSION ∧
    n.attributes.has "scope" version.scope ∧ n.attributes.has "scope_ref" version.scope_ref
  previous.forM fun prev => do
    discard <| insert_edge out version.tenant_id version.brand_id .SUPERSEDES node.node_id prev.node_id
      [("reason", .str "genome version approved")] "system"
    close_node out prev.node_id (some node.node_id)
  let origin_branch := if version.origin = some "BRANCH_PROMOTION" then truthy version.origin_ref else none
  let branch_node := origin_branch.bind fun ref =>
    graph.nodes.find? fun n => n.kind = .BRANCH ∧ n.attributes.has "ref" ref
  match branch_node with
  | none => pure ()
  | some branch_node =>
    discard <| insert_edge out version.tenant_id version.brand_id .DERIVED_FROM node.node_id branch_node.node_id
      [("reason", .str "promoted branch")] "system"

/-- The columns of a branch that its graph node carries. -/
structure BranchRow where
  branch_id : String
  tenant_id : String
  brand_id : String
  name : String
  hypothesis : String
  base_version_id : String
  parent_branch_id : Option String

/-- `_link_branch_node`: what a fork writes to the graph. -/
def link_branch_node (principal : Principal) (row : BranchRow) : Tx τ Unit := do
  let attrs : Attributes :=
    [("ref", .str row.branch_id), ("name", .str row.name), ("hypothesis", .str row.hypothesis),
      ("base_version_id", .str row.base_version_id)]
  let graph ← graph_locked row.brand_id
  let node ← insert_node out row.tenant_id row.brand_id .BRANCH row.name attrs (node_hash .BRANCH row.name attrs)
    principal.user_id
  let parent_ref := (truthy row.parent_branch_id).getD row.base_version_id
  let parent_kind := if (truthy row.parent_branch_id).isSome then NodeKind.BRANCH else NodeKind.GENOME_VERSION
  match graph.nodes.find? fun n => n.kind = parent_kind ∧ n.attributes.has "ref" parent_ref with
  | none => pure ()
  | some parent =>
    discard <| insert_edge out row.tenant_id row.brand_id .DERIVED_FROM node.node_id parent.node_id
      [("reason", .str "fork")] principal.user_id

/-- A write to the graph that somebody asks for. -/
inductive Call where
  | add_node (principal : Principal) (brand_id : String) (kind : NodeKind) (label : String)
      (attributes : Attributes) (actor : Option String)
  | add_edge (principal : Principal) (brand_id : String) (kind : EdgeKind) (src dst : String)
      (provenance : Attributes)
  | supersede_node (principal : Principal) (node_id label : String) (attributes : Attributes)
  | retire_edge (principal : Principal) (brand_id edge_id : String)
  | record_genome_decision (version : VersionRow) (approval : ApprovalRow)
  | fork (principal : Principal) (row : BranchRow)

def Call.run : Call → Tx τ Unit
  | .add_node principal brand_id kind label attributes actor =>
    Lineage.add_node out principal brand_id kind label attributes actor
  | .add_edge principal brand_id kind src dst provenance =>
    Lineage.add_edge out principal brand_id kind src dst provenance
  | .supersede_node principal node_id label attributes =>
    Lineage.supersede_node out principal node_id label attributes
  | .retire_edge principal brand_id edge_id => Lineage.retire_edge out principal brand_id edge_id
  | .record_genome_decision version approval => Lineage.record_genome_decision out version approval
  | .fork principal row => Lineage.link_branch_node out principal row

/-- The tables after a call. -/
def World.after (w : World τ) (call : Call) : World τ :=
  match call.run out w with
  | .ok (_, w') => w'
  | .error _ => w

end

end Lineage

/-! # What a transaction ensures

Rules for what holds after a transaction that succeeded, one for each way a transaction is
built, and from them what each of the four statements does. -/

namespace Lineage

open Relational

variable {τ α β : Type} {out : Outside τ} {w w' : World τ}

/-! ## Rules -/

/-- Whenever the transaction succeeds, `Q` holds of what it returns and leaves. -/
def Ensures (m : Tx τ α) (w : World τ) (Q : α → World τ → Prop) : Prop :=
  ∀ a w', m w = .ok (a, w') → Q a w'

variable {m : Tx τ α} {f : α → Tx τ β} {Q Q' : α → World τ → Prop} {R : β → World τ → Prop}

theorem Ensures.bind (hm : Ensures m w Q) (hf : ∀ a w', Q a w' → Ensures (f a) w' R) :
    Ensures (m >>= f) w R := by
  intro b w'' h
  change (m w).bind (fun x => f x.1 x.2) = .ok (b, w'') at h
  cases hr : m w with
  | error e =>
    rw [hr] at h
    cases h
  | ok x =>
    rw [hr] at h
    exact hf x.1 x.2 (hm x.1 x.2 hr) b w'' h

theorem Ensures.mono (hm : Ensures m w Q) (h : ∀ a w', Q a w' → Q' a w') : Ensures m w Q' :=
  fun a w' hr => h a w' (hm a w' hr)

theorem Ensures.pure {a : α} (h : Q a w) : Ensures (pure a) w Q := by
  intro b w' hr
  cases hr
  exact h

theorem Ensures.raise {e : Fault} : Ensures (throw e) w Q := by
  intro b w' hr
  cases hr

variable {next : Unit → Tx τ α}

theorem Ensures.check {p : Prop} [Decidable p] {e : Fault} (h : ¬ p → Ensures (next ()) w Q) :
    Ensures (if p then throw e >>= next else next ()) w Q := by
  by_cases hp : p
  · rw [if_pos hp]
    exact Ensures.bind (Q := fun _ _ => False) Ensures.raise fun _ _ h => h.elim
  · rw [if_neg hp]
    exact h hp

theorem Ensures.lift {r : Except Fault Unit} (h : Ensures (next ()) w Q) : Ensures (liftM r >>= next) w Q := by
  cases r with
  | error e => exact Ensures.bind (Q := fun _ _ => False) (fun _ _ hr => by cases hr) fun _ _ h => h.elim
  | ok u => exact h

theorem Ensures.discard (hm : Ensures m w Q) : Ensures (discard m) w fun _ w' => ∃ a, Q a w' :=
  Ensures.bind hm fun a _ hq => Ensures.pure ⟨a, hq⟩

theorem Ensures.get {f : World τ → Tx τ α} (h : Ensures (f w) w Q) : Ensures (get >>= f) w Q := h

theorem Ensures.set {f : PUnit → Tx τ α} (h : Ensures (f ⟨⟩) w' Q) : Ensures (set w' >>= f) w Q := h

theorem Ensures.now {f : τ → Tx τ α} (h : Ensures (f (out.now_iso w.reads)) { w with reads := w.reads + 1 } Q) :
    Ensures (now_iso out >>= f) w Q := h

theorem Ensures.uuid {f : String → Tx τ α}
    (h : Ensures (f (out.uuid4 w.drawn)) { w with drawn := w.drawn + 1 } Q) : Ensures (uuid4 out >>= f) w Q := h

variable {brand_id : String}

theorem Ensures.locked [LinearOrder τ] {f : Graph τ → Tx τ α} (h : Ensures (f (w.graph brand_id none)) w Q) :
    Ensures (graph_locked brand_id >>= f) w Q := h

/-! ## Statements -/

variable {actor tenant_id : String}

theorem insert_node_ensures {label content_hash : String} {kind : NodeKind} {attributes : Attributes} :
    Ensures (insert_node out tenant_id brand_id kind label attributes content_hash actor) w fun row w' =>
      w.has_node row.node_id = false ∧ row.toWindow = ⟨out.now_iso w.reads, none⟩ ∧
        w' = ⟨w.nodes ++ [row], w.edges, w.reads + 1, w.drawn + 1⟩ := by
  refine Ensures.uuid (Ensures.now (Ensures.get (Ensures.check fun hnew => Ensures.set (Ensures.pure ?_))))
  exact ⟨by simpa [World.has_node] using hnew, rfl, rfl⟩

theorem insert_edge_ensures {src dst : String} {kind : EdgeKind} {provenance : Attributes} :
    Ensures (insert_edge out tenant_id brand_id kind src dst provenance actor) w fun row w' =>
      (w.has_node src = true ∧ w.has_node dst = true ∧ src ≠ dst) ∧
        row.brand_id = brand_id ∧ row.kind = kind ∧ row.src_node_id = src ∧ row.dst_node_id = dst ∧
        row.toWindow = ⟨out.now_iso w.reads, none⟩ ∧
        w' = ⟨w.nodes, w.edges ++ [row], w.reads + 1, w.drawn + 1⟩ := by
  refine Ensures.uuid (Ensures.now (Ensures.get (Ensures.check fun hok => Ensures.set (Ensures.pure ?_))))
  rw [not_or, not_or, not_not] at hok
  exact ⟨⟨hok.2.1.1, hok.2.1.2, hok.2.2⟩, rfl, rfl, rfl, rfl, rfl, rfl⟩

/-- The node rows after one of them was closed. -/
def World.closeNode (w : World τ) (node_id : String) (stamp : τ) (superseded_by : Option String) : World τ :=
  { w with
    nodes := w.nodes.map fun n => if n.node_id = node_id ∧ n.Current then n.close stamp superseded_by else n
    reads := w.reads + 1 }

/-- The edge rows after one of them was closed. -/
def World.closeEdge (w : World τ) (edge_id : String) (stamp : τ) : World τ :=
  { w with
    edges := w.edges.map fun e => if e.edge_id = edge_id ∧ e.Current then e.close stamp else e
    reads := w.reads + 1 }

theorem close_node_ensures {node_id : String} {superseded_by : Option String} :
    Ensures (close_node out node_id superseded_by) w fun _ w' =>
      w' = w.closeNode node_id (out.now_iso w.reads) superseded_by :=
  Ensures.now (Ensures.get (Ensures.check fun _ _ _ h => by cases h; rfl))

theorem close_edge_ensures {edge_id : String} :
    Ensures (close_edge out edge_id) w fun _ w' => w' = w.closeEdge edge_id (out.now_iso w.reads) :=
  Ensures.now (Ensures.get (Ensures.check fun _ => Ensures.check fun _ _ _ h => by cases h; rfl))

end Lineage
