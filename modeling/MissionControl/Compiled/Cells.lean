import MissionControl.Canonical.Hash
import MissionControl.Compiled.Graph
import MissionControl.Python.Text

/-! # Mission cells

A cell is formed for one node of work, and also refers to the nodes that validate and
accept the artifact the work produces. -/

namespace Compiled

open Python

inductive CellStatus where
  | FORMED
  | READY
  | EXECUTING
  | VALIDATING
  | ACCEPTED
  | BLOCKED
  | REVISION
  | ESCALATED
  | DISSOLVED
  deriving DecidableEq, Repr

structure MissionCell where
  cell_id : String
  objective : String
  node_refs : List String
  accountable_specialist : Option String
  contributor_specialists : List String
  runtime_authority_binding : String
  work_order_refs : List String
  context_capsule_ref : Option String
  input_refs : List (String × String)
  output_contracts : List String
  validators : List String
  mutation_targets : List String
  resource_locks : List String
  risk_class : String
  side_effect_class : String
  approval_refs : List String
  status : CellStatus
  blockers : List String
  deriving DecidableEq

/-- The arguments of `build_cell` beside the graph. -/
structure CellArgs where
  work_node_id : String
  accountable_specialist : Option String := none
  contributor_specialists : List String := []
  binding_hash : String := ""
  work_order_ids : List String := []
  capsule_hash : Option String := none
  validators : List String := []
  resource_locks : List String := []
  risk_class : String := "low"
  approval_refs : List String := []
  blockers : List String := []

/-- The order of pairs of texts. -/
def pairLE (a b : String × String) : Prop := a.1 < b.1 ∨ a.1 = b.1 ∧ a.2 ≤ b.2

instance : DecidableRel pairLE := fun _ _ => inferInstanceAs (Decidable (_ ∨ _))

/-- `text.split(":", 1)[1]`, unless there is no colon. -/
def afterColon (text : String) : Option String :=
  match text.toList.dropWhile (· != ':') with
  | [] => none
  | _ :: rest => some (String.ofList rest)

/-- The validating and the accepting node of an artifact. -/
def reviewIds (artifact : String) : List String := ["validate:" ++ artifact, "accept:" ++ artifact]

/-- The identifier of the cell of a node. -/
def cellId (node : BackchainNode) : Option String :=
  if node.type = .EXECUTABLE_WORK then (afterColon node.id).map ("cell:" ++ ·)
  else some ("cell:" ++ node.id)

/-- The nodes beside the work that belong to its cell. -/
def reviewRefs (graph : CausalWorkGraph) (node : BackchainNode) : List String :=
  match node.artifact_type with
  | some artifact =>
    if artifact ≠ "" ∧ node.type = .EXECUTABLE_WORK then
      (reviewIds artifact).filter fun id => (graph.node? id).isSome
    else []
  | none => []

/-- `build_cell`. An unknown node raises `KeyError` and work without a colon in its id
    `IndexError`: `none`. -/
def build_cell (graph : CausalWorkGraph) (args : CellArgs) : Option MissionCell := do
  let node ← graph.node? args.work_node_id
  let cell_id ← cellId node
  let inputs ← node.hard_dependencies.mapM fun d => do
    let dependency ← graph.node? d
    return (d, dependency.semantic_hash)
  let blockers := sortedSet args.blockers
  return {
    cell_id := cell_id
    objective := node.purpose
    node_refs := args.work_node_id :: reviewRefs graph node
    accountable_specialist := args.accountable_specialist
    contributor_specialists := sortedSet args.contributor_specialists
    runtime_authority_binding := args.binding_hash
    work_order_refs := sorted args.work_order_ids
    context_capsule_ref := args.capsule_hash
    input_refs := inputs.insertionSort pairLE
    output_contracts := match node.artifact_type with
      | some artifact => if artifact ≠ "" then [artifact] else []
      | none => []
    validators := sortedSet args.validators
    mutation_targets := node.mutation_targets
    resource_locks := sortedSet args.resource_locks
    risk_class := args.risk_class
    side_effect_class := node.side_effect_class
    approval_refs := sortedSet args.approval_refs
    status := if blockers ≠ [] then .BLOCKED else .FORMED
    blockers := blockers }

/-- `cell.node_refs[0]` -/
def MissionCell.work (cell : MissionCell) : String := cell.node_refs.headD ""

/-- The mapping `planner` fills, from every node of a cell to the cell: a later cell
    overrides an earlier one. -/
def refCells (cells : List MissionCell) (id : String) : Option String :=
  (cells.reverse.find? fun cell => cell.node_refs.contains id).map (·.cell_id)

/-- The mapping `method_mission` fills, from the work of each cell only. -/
def workCells (cells : List MissionCell) (id : String) : Option String :=
  (cells.reverse.find? fun cell => cell.work == id).map (·.cell_id)

variable {graph : CausalWorkGraph} {cells : List MissionCell} {c k : MissionCell} {id : String}

theorem build_cell_spec {args : CellArgs} (h : build_cell graph args = some c) :
    ∃ node, graph.node? c.work = some node ∧ cellId node = some c.cell_id ∧
      c.node_refs = c.work :: reviewRefs graph node := by
  unfold build_cell at h
  simp only [Option.bind_eq_bind, Option.bind_eq_some_iff, Option.pure_def, Option.some.injEq] at h
  obtain ⟨node, hnode, cell_id, hid, inputs, -, rfl⟩ := h
  exact ⟨node, hnode, hid, rfl⟩

/-- The cells of a mapping: built over the graph for nodes of work, one cell to an
    identifier. -/
structure Built (graph : CausalWorkGraph) (cells : List MissionCell) : Prop where
  built : ∀ c ∈ cells, ∃ args, build_cell graph args = some c
  work : ∀ c ∈ cells, ∃ node, graph.node? c.work = some node ∧ node.type.isWork = true
  distinct : (cells.map (·.cell_id)).Nodup

/-- The nodes that validate and accept an artifact depend on the work that produces it. -/
def Reviewed (graph : CausalWorkGraph) : Prop :=
  ∀ node ∈ graph.nodes, ∀ id ∈ reviewRefs graph node, graph.Ancestor id node.id

/-- The nodes that validate and accept an artifact are no work themselves. -/
def ReviewsNoWork (graph : CausalWorkGraph) : Prop :=
  ∀ node ∈ graph.nodes, ∀ id ∈ reviewRefs graph node, ∀ review, graph.node? id = some review →
    review.type.isWork = false

/-- **The mapping from nodes to cells**, where work is concerned: the work of a cell is
    mapped to it, and no other work. -/
structure Mapped (graph : CausalWorkGraph) (cells : List MissionCell)
    (cell_for_node : String → Option String) : Prop where
  own : ∀ c ∈ cells, cell_for_node c.work = some c.cell_id
  only : ∀ c ∈ cells, ∀ id node, graph.node? id = some node → node.type.isWork = true →
    cell_for_node id = some c.cell_id → id = c.work

theorem eq_of_cell_id (hb : Built graph cells) (hc : c ∈ cells) (hk : k ∈ cells)
    (h : c.cell_id = k.cell_id) : c = k :=
  List.inj_on_of_nodup_map hb.distinct hc hk h

theorem eq_of_work (hb : Built graph cells) (hc : c ∈ cells) (hk : k ∈ cells)
    (h : c.work = k.work) : c = k := by
  obtain ⟨args, hargs⟩ := hb.built c hc
  obtain ⟨args', hargs'⟩ := hb.built k hk
  obtain ⟨node, hnode, hid, -⟩ := build_cell_spec hargs
  obtain ⟨node', hnode', hid', -⟩ := build_cell_spec hargs'
  rw [h, hnode', Option.some.injEq] at hnode
  subst hnode
  exact eq_of_cell_id hb hc hk (Option.some.inj (hid.symm.trans hid'))

theorem mem_node_refs (hb : Built graph cells) (hk : k ∈ cells) (hid : id ∈ k.node_refs) :
    ∃ node ∈ graph.nodes, node.id = k.work ∧ (id = k.work ∨ id ∈ reviewRefs graph node) := by
  obtain ⟨args, hargs⟩ := hb.built k hk
  obtain ⟨node, hnode, -, hrefs⟩ := build_cell_spec hargs
  obtain ⟨hmem, hwork⟩ := CausalWorkGraph.mem_of_node? hnode
  rw [hrefs, List.mem_cons] at hid
  exact ⟨node, hmem, hwork, hid⟩

theorem work_mem_node_refs (hb : Built graph cells) (hc : c ∈ cells) : c.work ∈ c.node_refs := by
  obtain ⟨args, hargs⟩ := hb.built c hc
  obtain ⟨node, -, -, hrefs⟩ := build_cell_spec hargs
  rw [hrefs]
  exact List.mem_cons_self

theorem mapped_of_find (hb : Built graph cells) (holds : MissionCell → String → Bool)
    (hown : ∀ c ∈ cells, holds c c.work = true)
    (honly : ∀ c ∈ cells, ∀ id node, graph.node? id = some node → node.type.isWork = true →
      holds c id = true → id = c.work) :
    Mapped graph cells fun id => (cells.reverse.find? (holds · id)).map (·.cell_id) := by
  constructor
  · intro c hc
    have hsome : (cells.reverse.find? (holds · c.work)).isSome := by
      rw [List.find?_isSome]
      exact ⟨c, by simpa using hc, hown c hc⟩
    obtain ⟨k, hfind⟩ := Option.isSome_iff_exists.mp hsome
    have hk : k ∈ cells := by simpa using List.mem_of_find?_eq_some hfind
    obtain ⟨node, hnode, hwork⟩ := hb.work c hc
    have hholds : holds k c.work = true := List.find?_some (p := fun cell => holds cell c.work) hfind
    have hck : c.work = k.work := honly k hk c.work node hnode hwork hholds
    rw [hfind, eq_of_work hb hc hk hck]
    rfl
  · intro c hc id node hnode hwork h
    obtain ⟨k, hfind, hid⟩ := Option.map_eq_some_iff.mp h
    have hk : k ∈ cells := by simpa using List.mem_of_find?_eq_some hfind
    rw [← eq_of_cell_id hb hk hc hid]
    exact honly k hk id node hnode hwork (List.find?_some (p := fun cell => holds cell id) hfind)

/-- **The mapping of `method_mission`.** -/
theorem mapped_workCells (hb : Built graph cells) : Mapped graph cells (workCells cells) := by
  apply mapped_of_find hb (fun cell id => cell.work == id)
  · intro c _
    simp
  · intro c _ id _ _ _ h
    exact (beq_iff_eq.mp h).symm

end Compiled

/-! # Execution waves

The scheduler layers cells into waves. Cells that are blocked, or wait for a human decision
or for other held cells, are held out; the others run in waves, each after the waves of the
work it depends on. -/

namespace Compiled

open Python


structure Wave where
  index : Nat
  cells : List String
  serialized_reason : Option String := none
  deriving DecidableEq

/-- Held cells with the reasons, in the order they were held. -/
abbrev HeldCells : Type := List (String × List String)

structure WavePlan where
  waves : List Wave
  held : HeldCells
  wave_hash : String

/-- `semantic_hash` of the body of a plan. -/
class SemanticHash where
  wave_hash : List Wave → HeldCells → String

/-! ## Holding cells -/

def HeldCells.has (held : HeldCells) (cell_id : String) : Bool := held.any (·.1 == cell_id)

/-- Why an ancestor holds the cells downstream of it, if it does. -/
def gateReason (graph : CausalWorkGraph) (cell_for_node : String → Option String)
    (held : HeldCells) (anc : String) : Option String :=
  match graph.node? anc with
  -- no ancestor is unknown: `Ancestor.isNode`
  | none => none
  | some node =>
    if node.type = .MATERIAL_DECISION ∧ node.status = .AWAITING_HUMAN then
      some ("WAIT_HUMAN_DECISION:" ++ anc)
    else if node.status = .BLOCKED then some ("UPSTREAM_BLOCKED:" ++ anc)
    else if node.type.isWork then
      match cell_for_node anc with
      | some upstream => if held.has upstream then some ("UPSTREAM_HELD:" ++ upstream) else none
      | none => none
    else none

def gates (graph : CausalWorkGraph) (cell_for_node : String → Option String) (held : HeldCells)
    (cell : MissionCell) : List String :=
  sortedSet ((graph.ancestors cell.work).filterMap (gateReason graph cell_for_node held))

/-- One pass of the `while` loop over the cells. -/
def holdPass (graph : CausalWorkGraph) (cell_for_node : String → Option String) :
    List MissionCell → HeldCells → HeldCells
  | [], held => held
  | cell :: cells, held =>
    if held.has cell.cell_id then holdPass graph cell_for_node cells held
    else
      match gates graph cell_for_node held cell with
      | [] => holdPass graph cell_for_node cells held
      | reasons => holdPass graph cell_for_node cells (held ++ [(cell.cell_id, reasons)])

/-- The `while` loop: passes until one holds nothing more. -/
def holdLoop (graph : CausalWorkGraph) (cell_for_node : String → Option String)
    (cells : List MissionCell) : ℕ → HeldCells → HeldCells
  | 0, held => held
  | fuel + 1, held =>
    let held' := holdPass graph cell_for_node cells held
    if held'.length = held.length then held' else holdLoop graph cell_for_node cells fuel held'

/-- `sorted(cells.values(), key=lambda c: c.cell_id)` -/
def byId (cells : List MissionCell) : List MissionCell :=
  cells.insertionSort fun a b => a.cell_id ≤ b.cell_id

def heldCells (graph : CausalWorkGraph) (cells : List MissionCell)
    (cell_for_node : String → Option String) : HeldCells :=
  holdLoop graph cell_for_node (byId cells) (cells.length + 1)
    ((cells.filter fun c => c.blockers ≠ []).map fun c => (c.cell_id, c.blockers))

/-! ## Depths -/

/-- A dictionary of depths, and `depth[cell_id] = d`. -/
abbrev Depths : Type := List (String × Nat)

def Depths.put (depth : Depths) (cell_id : String) (d : Nat) : Depths :=
  if depth.any (·.1 == cell_id) then depth.map fun e => if e.1 == cell_id then (cell_id, d) else e
  else depth ++ [(cell_id, d)]

/-- The runnable cell of a node of work. -/
def workCell (graph : CausalWorkGraph) (cell_for_node : String → Option String)
    (runnable : String → Bool) (id : String) : Option String :=
  match cell_for_node id, graph.node? id with
  | some cell_id, some node => if runnable cell_id && node.type.isWork then some cell_id else none
  | _, _ => none

/-- The other runnable cells whose work is an ancestor of the node. -/
def upstream (graph : CausalWorkGraph) (cell_for_node : String → Option String)
    (runnable : String → Bool) (id cell_id : String) : List String :=
  (graph.ancestors id).filterMap fun a =>
    (workCell graph cell_for_node runnable a).filter (· != cell_id)

/-- The loop over the topological order. A missing depth raises `KeyError`: `none`. -/
def depths (graph : CausalWorkGraph) (cell_for_node : String → Option String)
    (runnable : String → Bool) : List String → Depths → Option Depths
  | [], depth => some depth
  | id :: order, depth =>
    match workCell graph cell_for_node runnable id with
    | none => depths graph cell_for_node runnable order depth
    | some cell_id => do
      let below ← (upstream graph cell_for_node runnable id cell_id).mapM fun u => depth.lookup u
      -- `1 + max(below, default=-1)`
      depths graph cell_for_node runnable order
        (depth.put cell_id ((below.map (· + 1)).foldr max 0))

/-! ## Order inside a level -/

/-- `_critical_path`: the longest path from each node downstream. -/
def _critical_path (graph : CausalWorkGraph) : Depths :=
  graph.topological_order.reverse.foldl (fun memo id =>
    memo ++ [(id, 1 + ((graph.dependents id).map fun d => (memo.lookup d).getD 0).foldr max 0)]) []

def _information_gain : Option Nat → Int
  | some stage => 30 - stage
  | none => 0

def isDraft (side_effect_class : String) : Bool :=
  side_effect_class == "PURE" || side_effect_class == "DRAFT"

/-- The tuple cells are sorted by. -/
structure Priority where
  critical : Int
  descendants : Int
  information : Int
  consequential : Nat
  cell_id : String

def priority (graph : CausalWorkGraph) (critical : Depths) (cell : MissionCell) : Priority where
  critical := -((critical.lookup cell.work).getD 0 : Nat)
  descendants := -(graph.descendants cell.work).length
  information := -_information_gain ((graph.node? cell.work).bind (·.stage))
  consequential := if isDraft cell.side_effect_class then 0 else 1
  cell_id := cell.cell_id

/-- The order of tuples: the first difference decides. -/
def Priority.le (a b : Priority) : Bool :=
  if a.critical ≠ b.critical then a.critical < b.critical
  else if a.descendants ≠ b.descendants then a.descendants < b.descendants
  else if a.information ≠ b.information then a.information < b.information
  else if a.consequential ≠ b.consequential then a.consequential < b.consequential
  else a.cell_id ≤ b.cell_id

/-! ## Waves -/

/-- The cell and the bucket have no lock in common. -/
def fits (cell : MissionCell) (bucket : List MissionCell) : Bool :=
  bucket.all fun other => other.resource_locks.all fun lock => !cell.resource_locks.contains lock

/-- The first bucket the cell fits in, or a new one. -/
def firstFit (cell : MissionCell) : List (List MissionCell) → List (List MissionCell)
  | [] => [[cell]]
  | bucket :: parallel =>
    if fits cell bucket then (bucket ++ [cell]) :: parallel else bucket :: firstFit cell parallel

/-- The members of a level, split into parallel buckets and cells that run alone. -/
def place : List MissionCell → List (List MissionCell) × List MissionCell →
    List (List MissionCell) × List MissionCell
  | [], placed => placed
  | cell :: members, (parallel, serial) =>
    if isDraft cell.side_effect_class then place members (firstFit cell parallel, serial)
    else place members (parallel, serial ++ [cell])

/-- The cells of each wave of a level, with the reason it is serialized for. -/
def levelWaves (members : List MissionCell) : List (List MissionCell × Option String) :=
  let (parallel, serial) := place members ([[]], [])
  let buckets := parallel.filter fun bucket => !bucket.isEmpty
  buckets.zipIdx.map (fun b => (b.1, if b.2 = 0 then none else some "RESOURCE_OR_MUTATION_COLLISION"))
    ++ serial.map fun cell => ([cell], some "CONSEQUENTIAL_EXTERNAL_ACTION")

/-- The runnable cells of a level, by priority. -/
def members (graph : CausalWorkGraph) (cells : List MissionCell) (depth : Depths) (level : Nat) :
    List MissionCell :=
  (cells.filter fun cell => depth.lookup cell.cell_id == some level).insertionSort fun a b =>
    (priority graph (_critical_path graph) a).le (priority graph (_critical_path graph) b)

/-- `sorted(set(depth.values()))` -/
def levels (depth : Depths) : List Nat := (depth.map (·.2)).dedup.insertionSort (· ≤ ·)

def schedule_waves [SemanticHash] (graph : CausalWorkGraph) (cells : List MissionCell)
    (cell_for_node : String → Option String) : Option WavePlan := do
  let held := heldCells graph cells cell_for_node
  let runnable := fun cell_id => cells.any (·.cell_id == cell_id) && !held.has cell_id
  let depth ← depths graph cell_for_node runnable graph.topological_order []
  let layered := (levels depth).flatMap fun level => levelWaves (members graph cells depth level)
  -- `index=len(waves)` of each wave is its position
  let waves := layered.zipIdx.map fun w => ⟨w.2, w.1.1.map (·.cell_id), w.1.2⟩
  let held := held.insertionSort fun a b => a.1 ≤ b.1
  return ⟨waves, held, SemanticHash.wave_hash waves held⟩

end Compiled

/-! # Hashes of compiled objects

Every hash of a compiled object is the fingerprint of a JSON value. What the fingerprint is does not matter here, as
long as it tells JSON values apart (`CollisionFree`). -/

namespace Compiled

open Canonical (Value)

/-- `content_fingerprint`: the SHA-256 of the JSON text of a value whose keys are sorted, in hexadecimal digits. -/
class Fingerprint where
  content_fingerprint : Value → String
  nonempty : ∀ v, content_fingerprint v ≠ ""

/-- A value with a JSON text: it has no byte strings inside, and no key twice. -/
inductive IsJson : Value → Prop
  | none : IsJson .none
  | bool (b : Bool) : IsJson (.bool b)
  | int (n : Int) : IsJson (.int n)
  | float (f : Canonical.PyFloat) : IsJson (.float f)
  | str (s : String) : IsJson (.str s)
  | list {items : List Value} (h : ∀ v ∈ items, IsJson v) : IsJson (.list items)
  | dict {items : List (String × Value)} (hkeys : (items.map Prod.fst).Nodup) (h : ∀ kv ∈ items, IsJson kv.2) :
      IsJson (.dict items)

/-- A text that is there and not empty. -/
def named (text : Option String) : Option String := text.filter (· ≠ "")

/-- A text that may be missing. -/
def optText (text : Option String) : Value := text.elim .none .str

def texts (items : List String) : Value := .list (items.map .str)

theorem isJson_optText (text : Option String) : IsJson (optText text) := by
  cases text with
  | none => exact .none
  | some text => exact .str text

theorem isJson_texts (items : List String) : IsJson (texts items) := by
  apply IsJson.list
  intro v hv
  obtain ⟨text, -, rfl⟩ := List.mem_map.mp hv
  exact .str text

/-- One fingerprint stands for one JSON value. -/
def CollisionFree [Fingerprint] : Prop :=
  ∀ a b, IsJson a → IsJson b → Fingerprint.content_fingerprint a = Fingerprint.content_fingerprint b → a.Same b

section

variable [Fingerprint]

/-- `semantic_hash`: the fingerprint of what is left when the keys of `exclude` are dropped. -/
def semantic_hash (payload : Value) (exclude : List String := []) : String :=
  match payload with
  | .dict items => Fingerprint.content_fingerprint (.dict (items.filter fun kv => kv.1 ∉ exclude))
  | payload => Fingerprint.content_fingerprint payload

/-- `sorted` of pairs. -/
def sortedPairs (pairs : List (String × String)) : List (String × String) := pairs.insertionSort pairLE

/-- A pair of texts, as JSON. -/
def pairValue (p : String × String) : Value := .list [.str p.1, .str p.2]

/-- `closure_hash`: the fingerprint of the pairs in order. -/
def closure_hash (pairs : List (String × String)) : String :=
  Fingerprint.content_fingerprint (.list ((sortedPairs pairs).map pairValue))

omit [Fingerprint] in
@[simp] theorem mem_sortedPairs {pairs : List (String × String)} {p : String × String} :
    p ∈ sortedPairs pairs ↔ p ∈ pairs := by
  unfold sortedPairs
  rw [List.mem_insertionSort]

theorem sortedPairs_eq_of_closure_hash (h : CollisionFree) {a b : List (String × String)}
    (hab : closure_hash a = closure_hash b) : sortedPairs a = sortedPairs b := by
  have hjson : ∀ pairs : List (String × String), IsJson (.list (pairs.map pairValue)) := by
    intro pairs
    apply IsJson.list
    intro v hv
    obtain ⟨p, -, rfl⟩ := List.mem_map.mp hv
    apply IsJson.list
    simp [IsJson.str]
  have hsame := h _ _ (hjson _) (hjson _) hab
  have hnormal : (sortedPairs a).map pairValue = (sortedPairs b).map pairValue := by
    simp only [Value.Same, Value.normal, Value.normalList_eq, List.map_map, Value.list.injEq] at hsame
    exact hsame
  apply List.map_injective_iff.mpr _ hnormal
  intro p q hpq
  simp only [pairValue, Value.list.injEq, List.cons.injEq, Value.str.injEq, and_true] at hpq
  exact Prod.ext hpq.1 hpq.2

end

/-! ## A fingerprint to compute with -/

/-- The canonical bytes themselves, as text. -/
@[reducible] def plainFingerprint : Fingerprint where
  content_fingerprint := @Canonical.canonical_hash Canonical.plainHash
  nonempty v h := by
    have hnil : (Canonical.canonical_bytes v).map Char.ofUInt8 = [] := String.ofList_injective h
    have hbytes := List.map_eq_nil_iff.mp hnil
    simp [Canonical.canonical_bytes] at hbytes

theorem plainFingerprint_collisionFree : @CollisionFree plainFingerprint :=
  fun _ _ _ _ h => (@Canonical.canonical_hash_eq_iff Canonical.plainHash Canonical.plainHash_collisionFree _ _).mp h

end Compiled
