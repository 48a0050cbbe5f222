import MissionControl.Relational.Reach
import MissionControl.Relational.Acyclic

/-! # Causal work graphs

The graph a plan is compiled to: nodes that depend on others, from the deliverables at
one end to evidence and existing artifacts at the other. -/

namespace Compiled

open Relation (TransGen)
open Relational

inductive NodeType where
  | DELIVERABLE
  | ACCEPTED_ARTIFACT
  | VALIDATION_OBLIGATION
  | EXECUTABLE_WORK
  | MATERIAL_DECISION
  | EVIDENCE_REQUIREMENT
  | EXISTING_REF
  | EXTERNAL_ACTION
  | BLOCKER
  deriving DecidableEq, Repr

inductive NodeStatus where
  | SATISFIED
  | PLANNED
  | AWAITING_HUMAN
  | BLOCKED
  deriving DecidableEq, Repr

inductive Resolution where
  | VALID_EXISTING_REF
  | EXECUTABLE_WORK
  | HUMAN_DECISION
  | EXPLICIT_BLOCKER
  | DERIVED
  deriving DecidableEq, Repr

inductive DecisionKind where
  | SCOPE
  | COMMERCIAL_CONSTRAINT
  | STRATEGY
  | POSITIONING
  | AUDIENCE
  | BRAND_PLATFORM
  | CREATIVE_DIRECTION
  | ARCHITECTURE
  | MATERIAL_BUDGET
  | LEGAL_SECURITY_POLICY
  | RELEASE_GO_NO_GO
  deriving DecidableEq, Repr

def DecisionKind.value : DecisionKind → String
  | SCOPE => "scope"
  | COMMERCIAL_CONSTRAINT => "commercial_constraint"
  | STRATEGY => "strategy"
  | POSITIONING => "positioning"
  | AUDIENCE => "audience"
  | BRAND_PLATFORM => "brand_platform"
  | CREATIVE_DIRECTION => "creative_direction"
  | ARCHITECTURE => "architecture"
  | MATERIAL_BUDGET => "material_budget"
  | LEGAL_SECURITY_POLICY => "legal_security_policy"
  | RELEASE_GO_NO_GO => "release_go_no_go"

theorem DecisionKind.value_inj {k k' : DecisionKind} (h : k.value = k'.value) : k = k' := by
  revert h
  cases k <;> cases k' <;> first | exact fun _ => rfl | exact fun h => absurd h (by decide)

/-- A node of the graph. No node has soft dependencies. The stage of a node is the number in its
    text (`"S17"` is 17). -/
structure BackchainNode where
  id : String
  type : NodeType
  purpose : String := ""
  satisfies : List String := []
  dependencies : List String
  hard_dependencies : List String := []
  phase_compatibility : List String := []
  required_capabilities : List String := []
  validation_obligations : List String := []
  side_effect_class : String := "PURE"
  mutation_targets : List String := []
  status : NodeStatus := .PLANNED
  resolution : Resolution := .DERIVED
  artifact_type : Option String := none
  runtime_role_id : Option String := none
  stage : Option Nat := none
  domains : List String := []
  blockers : List String := []
  semantic_hash : String := ""

/-- The nodes work is done for: a cell is formed for each of them. -/
def NodeType.isWork : NodeType → Bool
  | .EXECUTABLE_WORK | .EXTERNAL_ACTION => true
  | _ => false

/-- `nodes.get(id)` -/
def lookup (nodes : List BackchainNode) (id : String) : Option BackchainNode :=
  nodes.find? (·.id == id)

/-- An acyclic graph: the topological order lists every node once, after the nodes it
    depends on. -/
structure CausalWorkGraph where
  nodes : List BackchainNode
  topological_order : List String
  ids_nodup : (nodes.map (·.id)).Nodup
  order_nodup : topological_order.Nodup
  mem_order : ∀ id, id ∈ topological_order ↔ id ∈ nodes.map (·.id)
  ordered : ∀ l₁ id l₂ node, topological_order = l₁ ++ id :: l₂ → lookup nodes id = some node →
    ∀ d ∈ node.dependencies, d ∈ l₁

/-- The nodes are listed once each, after the nodes they depend on. -/
def listed (seen : List String) : List BackchainNode → Bool
  | [] => true
  | node :: nodes =>
    !seen.contains node.id && node.dependencies.all seen.contains && listed (seen ++ [node.id]) nodes

variable {seen : List String} {nodes : List BackchainNode}

theorem listed_nodup (h : listed seen nodes = true) (hseen : seen.Nodup) : (seen ++ nodes.map (·.id)).Nodup := by
  induction nodes generalizing seen with
  | nil => simpa using hseen
  | cons node nodes ih =>
    unfold listed at h
    simp only [Bool.and_eq_true, Bool.not_eq_true', List.contains_eq_mem, decide_eq_false_iff_not] at h
    have hnext : (seen ++ [node.id]).Nodup := by
      rw [List.nodup_append]
      refine ⟨hseen, List.nodup_singleton _, fun a ha b hb hab => h.1.1 ?_⟩
      rw [List.mem_singleton] at hb
      rwa [← hb, ← hab]
    have := ih h.2 hnext
    rwa [List.append_assoc, List.singleton_append] at this

theorem listed_ordered (h : listed seen nodes = true) {before after : List BackchainNode} {node : BackchainNode}
    (hsplit : nodes = before ++ node :: after) : ∀ d ∈ node.dependencies, d ∈ seen ++ before.map (·.id) := by
  induction before generalizing nodes seen with
  | nil =>
    subst hsplit
    rw [List.nil_append, listed, Bool.and_eq_true, Bool.and_eq_true, List.all_eq_true] at h
    simpa using h.1.2
  | cons first before ih =>
    subst hsplit
    rw [List.cons_append, listed, Bool.and_eq_true] at h
    have hd := ih h.2 rfl
    rwa [List.append_assoc, List.singleton_append] at hd

/-- A graph whose nodes are listed in a topological order. -/
def CausalWorkGraph.ofListed (nodes : List BackchainNode) (h : listed [] nodes = true) :
    CausalWorkGraph where
  nodes := nodes
  topological_order := nodes.map (·.id)
  ids_nodup := by simpa using listed_nodup h List.nodup_nil
  order_nodup := by simpa using listed_nodup h List.nodup_nil
  mem_order _ := Iff.rfl
  ordered l₁ id l₂ node hsplit hnode := by
    obtain ⟨before, rest, hnodes, rfl, hrest⟩ := List.map_eq_append_iff.mp hsplit
    obtain ⟨other, after, hcons, hid, -⟩ := List.map_eq_cons_iff.mp hrest
    have hnodup : (nodes.map (·.id)).Nodup := by simpa using listed_nodup h List.nodup_nil
    have hmem : other ∈ nodes := by
      rw [hnodes, hcons]
      simp
    have heq : node = other := by
      apply List.inj_on_of_nodup_map hnodup (List.mem_of_find?_eq_some hnode) hmem
      rw [hid]
      simpa using List.find?_some hnode
    intro d hd
    rw [heq] at hd
    simpa using listed_ordered h (hnodes.trans (by rw [hcons])) d hd

namespace CausalWorkGraph

variable (graph : CausalWorkGraph)

def node? (id : String) : Option BackchainNode := lookup graph.nodes id

/-- The nodes a node depends on, none when there is no such node. -/
def dependencies (id : String) : List String :=
  match graph.node? id with
  | some node => node.dependencies
  | none => []

/-- `self.dependents()`, one entry: the nodes that depend on `id`. -/
def dependents (id : String) : List String :=
  (graph.nodes.filter fun node => node.dependencies.contains id).map (·.id)

def ancestors (ref : String) : List String :=
  search graph.dependencies (1 + (graph.nodes.flatMap (·.dependencies)).length) [ref] []

/-- `self.descendants([ref])` -/
def descendants (ref : String) : List String :=
  match graph.node? ref with
  | some _ => search graph.dependents (1 + graph.nodes.length) [ref] []
  | none => []

/-- `self.descendants(refs)` -/
def descendantsOf (refs : List String) : List String :=
  search graph.dependents ((refs.filter fun ref => (graph.node? ref).isSome).length + graph.nodes.length)
    (refs.filter fun ref => (graph.node? ref).isSome) []

variable {graph} {a b id : String} {node : BackchainNode}

theorem mem_of_node? (h : graph.node? id = some node) : node ∈ graph.nodes ∧ node.id = id := by
  unfold node? lookup at h
  exact ⟨List.mem_of_find?_eq_some h, by simpa using List.find?_some h⟩

theorem node?_of_mem (h : node ∈ graph.nodes) : graph.node? node.id = some node := by
  unfold node? lookup
  rw [List.find?_eq_some_iff_append]
  obtain ⟨l₁, l₂, hl⟩ := List.append_of_mem h
  refine ⟨by simp, l₁, l₂, hl, ?_⟩
  intro other hother
  have hnodup := graph.ids_nodup
  rw [hl, List.map_append, List.map_cons, List.nodup_append] at hnodup
  rw [Bool.not_eq_true', beq_eq_false_iff_ne]
  exact hnodup.2.2 _ (List.mem_map_of_mem hother) _ List.mem_cons_self

theorem node?_isSome : (graph.node? id).isSome ↔ id ∈ graph.topological_order := by
  rw [graph.mem_order, List.mem_map]
  constructor
  · intro h
    obtain ⟨node, hnode⟩ := Option.isSome_iff_exists.mp h
    obtain ⟨hmem, hid⟩ := mem_of_node? hnode
    exact ⟨node, hmem, hid⟩
  · rintro ⟨node, hmem, rfl⟩
    rw [node?_of_mem hmem]
    rfl

/-- `b` is an ancestor of `a`: a depends on it, directly or through other nodes. -/
def Ancestor (graph : CausalWorkGraph) (a b : String) : Prop :=
  TransGen (Succ graph.dependencies) a b

/-- **`ancestors` finds the ancestors.** -/
theorem mem_ancestors : b ∈ graph.ancestors a ↔ graph.Ancestor a b := by
  have hsearch : b ∈ graph.ancestors a ↔ ∃ start ∈ [a], graph.Ancestor start b := by
    refine mem_search_iff (graph.nodes.flatMap (·.dependencies)) ?_ .init (by simp) ?_
    · intro x y hy
      unfold dependencies at hy
      split at hy
      · rename_i node hnode
        exact List.mem_flatMap.mpr ⟨node, (mem_of_node? hnode).1, hy⟩
      · cases hy
    · simp
  simpa using hsearch

theorem mem_dependents : b ∈ graph.dependents a ↔ (graph.node? b).isSome = true ∧ a ∈ graph.dependencies b := by
  unfold dependents dependencies
  rw [List.mem_map]
  constructor
  · rintro ⟨node, hnode, rfl⟩
    obtain ⟨hmem, hdep⟩ := List.mem_filter.mp hnode
    rw [node?_of_mem hmem]
    exact ⟨rfl, by simpa using hdep⟩
  · rintro ⟨hsome, hdep⟩
    obtain ⟨node, hnode⟩ := Option.isSome_iff_exists.mp hsome
    rw [hnode] at hdep
    obtain ⟨hmem, hid⟩ := mem_of_node? hnode
    exact ⟨node, List.mem_filter.mpr ⟨hmem, by simpa using hdep⟩, hid⟩

theorem dependents_reach_iff : TransGen (Succ graph.dependents) a b ↔ graph.Ancestor b a := by
  unfold Ancestor
  rw [← Relation.transGen_swap]
  have hstep : ∀ x y, Succ graph.dependents x y ↔ Function.swap (Succ graph.dependencies) x y := by
    intro x y
    show y ∈ graph.dependents x ↔ x ∈ graph.dependencies y
    rw [mem_dependents]
    refine and_iff_right_of_imp fun h => ?_
    unfold dependencies at h
    cases hnode : graph.node? y with
    | none =>
      rw [hnode] at h
      cases h
    | some node => rfl
  have heq : Succ graph.dependents = Function.swap (Succ graph.dependencies) :=
    funext fun x => funext fun y => propext (hstep x y)
  rw [heq]

/-- **`descendants` finds what some node of the references is an ancestor of.** -/
theorem mem_descendantsOf {refs : List String} :
    b ∈ graph.descendantsOf refs ↔ ∃ a ∈ refs, (graph.node? a).isSome = true ∧ graph.Ancestor b a := by
  have hsearch : b ∈ graph.descendantsOf refs ↔
      ∃ a ∈ refs.filter fun ref => (graph.node? ref).isSome, TransGen (Succ graph.dependents) a b := by
    refine mem_search_iff (graph.nodes.map (·.id)) ?_ .init (by simp) (by simp)
    intro x y hy
    obtain ⟨node, hnode, hid⟩ := List.mem_map.mp hy
    exact List.mem_map.mpr ⟨node, (List.mem_filter.mp hnode).1, hid⟩
  rw [hsearch]
  simp only [List.mem_filter, dependents_reach_iff, and_assoc]

theorem Ancestor.before (h : graph.Ancestor a b) {l₁ l₂ : List String}
    (hsplit : graph.topological_order = l₁ ++ a :: l₂) : b ∈ l₁ := by
  have direct : ∀ {x y : String} {k₁ k₂ : List String}, Succ graph.dependencies x y →
      graph.topological_order = k₁ ++ x :: k₂ → y ∈ k₁ := by
    intro x y k₁ k₂ hxy hk
    unfold Succ dependencies at hxy
    split at hxy
    · rename_i node hnode
      exact graph.ordered k₁ x k₂ node hk hnode y hxy
    · cases hxy
  -- along the path, each node stands before the one that depends on it
  induction h with
  | single hab => exact direct hab hsplit
  | @tail c _ _ hab ih =>
    obtain ⟨k₁, k₂, hk⟩ := List.append_of_mem ih
    have hfull : graph.topological_order = k₁ ++ c :: (k₂ ++ a :: l₂) := by
      rw [hsplit, hk]
      simp
    have hb := direct hab hfull
    rw [hk]
    exact List.mem_append_left _ hb

theorem Ancestor.isNode (h : graph.Ancestor a b) : ∃ node, graph.node? b = some node := by
  have ha : a ∈ graph.topological_order := by
    rw [← node?_isSome]
    have hfirst : ∃ c, c ∈ graph.dependencies a := by
      obtain ⟨c, hc, -⟩ := TransGen.head'_iff.mp h
      exact ⟨c, hc⟩
    obtain ⟨c, hc⟩ := hfirst
    unfold dependencies at hc
    split at hc
    · rename_i node hnode
      rw [hnode]
      rfl
    · cases hc
  obtain ⟨l₁, l₂, hsplit⟩ := List.append_of_mem ha
  have hb : b ∈ graph.topological_order := by
    rw [hsplit]
    exact List.mem_append_left _ (h.before hsplit)
  exact Option.isSome_iff_exists.mp (node?_isSome.mpr hb)

/-- **A causal work graph is acyclic.** -/
theorem acyclic : Acyclic (Succ graph.dependencies) := by
  intro a h
  obtain ⟨node, hnode⟩ := Ancestor.isNode h
  have ha : a ∈ graph.topological_order := node?_isSome.mp (by rw [hnode]; rfl)
  obtain ⟨l₁, l₂, hsplit⟩ := List.append_of_mem ha
  have hbefore := Ancestor.before h hsplit
  have hnodup := graph.order_nodup
  rw [hsplit, List.nodup_append] at hnodup
  exact hnodup.2.2 a hbefore a List.mem_cons_self rfl

end CausalWorkGraph

end Compiled
