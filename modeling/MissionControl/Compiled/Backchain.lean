import MissionControl.Compiled.Validation

/-! # Backchaining

Planning starts from what was requested:

    deliverable ← accepted artifact ← validation obligation ← executable work
                ← material decision ← evidence requirement ← prerequisite

The role that produces an artifact is its producer, and every artifact the role consumes is a hard prerequisite. What the
caller already holds is not produced again. A node is shared by everything that leads to the same identifier. -/

namespace Compiled

open Canonical (Value)
open Python (sorted sortedSet)
open Relational

/-! ## What is asked for, and what is given -/

/-- `MATERIAL_DECISIONS.get(artifact)`: only material choices are decisions. -/
def MATERIAL_DECISIONS : ArtifactType → Option DecisionKind
  | .positioning_statement => some .POSITIONING
  | .business_model_spec => some .COMMERCIAL_CONSTRAINT
  | .brand_platform => some .BRAND_PLATFORM
  | .creative_concept => some .CREATIVE_DIRECTION
  | .implementation_plan => some .ARCHITECTURE
  | .product_spec => some .SCOPE
  | .media_plan => some .MATERIAL_BUDGET
  | .release_record => some .RELEASE_GO_NO_GO
  | _ => none

inductive ExternalAction where
  | PUBLISH
  | DEPLOY
  | DISTRIBUTE
  | SEND
  | PAY
  | PURCHASE
  | MEDIA_SPEND
  | PRODUCTION_MIGRATION
  | DELETE
  | CREDENTIAL_MUTATION
  | CLIENT_BINDING_COMMITMENT
  deriving DecidableEq, Repr

def ExternalAction.value : ExternalAction → String
  | PUBLISH => "publish"
  | DEPLOY => "deploy"
  | DISTRIBUTE => "distribute"
  | SEND => "send"
  | PAY => "pay"
  | PURCHASE => "purchase"
  | MEDIA_SPEND => "media_spend"
  | PRODUCTION_MIGRATION => "production_migration"
  | DELETE => "delete"
  | CREDENTIAL_MUTATION => "credential_mutation"
  | CLIENT_BINDING_COMMITMENT => "client_binding_commitment"

def RESEARCH_ARTIFACTS : List ArtifactType := [.research_brief, .market_analysis]

def REVERSIBLE_ACTIONS : List ExternalAction := [.DEPLOY]

def SPEND_ACTIONS : List ExternalAction := [.PAY, .PURCHASE, .MEDIA_SPEND]

/-- The role whose contract declares the side effect of the action. -/
def EXTERNAL_ACTION_ROLE (action : ExternalAction) : String :=
  if action ∈ SPEND_ACTIONS then "media_planner" else "release_manager"

structure DeliverableSpec where
  id : String
  requested_outcome : String
  output_contract : String
  domains : List String := []
  external_action : Option ExternalAction := none
  live_service : Bool := false
  deriving DecidableEq

structure EvidenceItem where
  supports : List String
  verified : Bool := false

/-- What a compilation is given beside the deliverables: the existing artifacts with their content hashes, the kinds of the
    decisions that were accepted, and the evidence. -/
structure Given where
  existing_artifacts : List (String × String) := []
  accepted_decisions : List String := []
  evidence : List EvidenceItem := []

/-- The stage an artifact belongs to. -/
def ARTIFACT_STAGE : ArtifactType → Nat
  | .research_brief => 3
  | .market_analysis => 4
  | .knowledge_capsule => 25
  | .positioning_statement => 6
  | .business_model_spec => 6
  | .offer_definition => 6
  | .brand_platform => 6
  | .brand_core => 6
  | .naming_candidate => 12
  | .identity_guidelines => 14
  | .brand_guidelines_doc => 20
  | .creative_concept => 12
  | .asset_prompt_set => 14
  | .media_asset => 14
  | .copy_variant => 14
  | .design_brief => 11
  | .design_system_spec => 14
  | .design_token_set => 14
  | .website_lockup_spec => 14
  | .product_spec => 11
  | .implementation_plan => 11
  | .app_build_spec => 14
  | .automation_spec => 14
  | .campaign_package => 14
  | .media_plan => 11
  | .measurement_plan => 11
  | .qa_report => 17
  | .release_record => 18

/-- `STAGES_BY_ID[stage].roleos_phase`, for the stages of artifacts. -/
def roleos_phase : Nat → String
  | 3 | 4 => "P4"
  | 6 => "P5"
  | 11 => "P8"
  | 12 => "P7"
  | 14 => "P9"
  | 17 => "P10"
  | 20 | 18 => "P12"
  | _ => "P15"

/-! ## The builder -/

/-- The nodes so far, in the order they were added. -/
structure Builder where
  nodes : List BackchainNode := []
  dedup_hits : Nat := 0

namespace Builder

def ids (b : Builder) : List String := b.nodes.map (·.id)

/-- A node as it is stored. -/
def stored (node : BackchainNode) : BackchainNode :=
  { node with hard_dependencies := sortedSet node.hard_dependencies }

/-- What a node gains when it is added again. -/
def merged (node : BackchainNode) (satisfies domains : List String) : BackchainNode :=
  { node with
    satisfies := sortedSet (node.satisfies ++ satisfies)
    domains := sortedSet (node.domains ++ domains) }

/-- Add a node, or let the node of that identifier satisfy more. -/
def add (b : Builder) (node : BackchainNode) : Builder :=
  if node.id ∈ b.ids then
    { nodes := b.nodes.map fun n => if n.id = node.id then merged n node.satisfies node.domains else n
      dedup_hits := b.dedup_hits + 1 }
  else { b with nodes := b.nodes ++ [stored node] }

/-- `raw_ancestors(node_id)`: a search of the nodes so far. -/
def raw_ancestors (b : Builder) (node_id : String) : List String :=
  search (fun id => ((lookup b.nodes id).map (·.hard_dependencies)).getD [])
    (1 + (b.nodes.flatMap (·.hard_dependencies)).length) [node_id] []

end Builder

def refNode (artifact : ArtifactType) (content_hash satisfies : String) (domains : List String) : BackchainNode where
  id := "ref:" ++ artifact.value
  type := .EXISTING_REF
  purpose := "Existing accepted " ++ artifact.value ++ " (content hash " ++ String.ofList (content_hash.toList.take 12) ++ ")"
  satisfies := [satisfies]
  dependencies := []
  status := .SATISFIED
  resolution := .VALID_EXISTING_REF
  artifact_type := some artifact.value
  domains := domains

def blockerNode (code subject satisfies : String) : BackchainNode where
  id := "blocker:" ++ code ++ ":" ++ subject
  type := .BLOCKER
  purpose := code ++ " for " ++ subject
  satisfies := [satisfies]
  dependencies := []
  status := .BLOCKED
  resolution := .EXPLICIT_BLOCKER
  blockers := [code ++ ":" ++ subject]

def productionNode (artifact : ArtifactType) (producer : RoleContract) (inputs domains : List String) : BackchainNode where
  id := "work:" ++ artifact.value
  type := .EXECUTABLE_WORK
  purpose := "Produce " ++ artifact.value ++ " (" ++ producer.mandate ++ ")"
  satisfies := ["validate:" ++ artifact.value]
  dependencies := []
  hard_dependencies := inputs
  phase_compatibility := [roleos_phase (ARTIFACT_STAGE artifact)]
  required_capabilities := sorted (producer.capabilities.map (·.value))
  side_effect_class := "DRAFT"
  mutation_targets := ["artifact:" ++ artifact.value]
  status := .PLANNED
  resolution := .EXECUTABLE_WORK
  artifact_type := some artifact.value
  runtime_role_id := some producer.role_id
  stage := some (ARTIFACT_STAGE artifact)
  domains := domains

/-- The evidence floor for accepting an artifact. A deficit that planned research can still discharge is pending work; one
    with no research in its causal ancestry is an explicit blocker. -/
def evidenceNode (given : Given) (artifact : ArtifactType) (floor : Nat) (domains : List String)
    (research_upstream : Bool) : BackchainNode :=
  let have_ := (given.evidence.filter fun e => e.verified && e.supports.contains artifact.value).length
  let deficit := artifact.value ++ ":" ++ toString have_ ++ "/" ++ toString floor
  { id := "evidence:" ++ artifact.value
    type := .EVIDENCE_REQUIREMENT
    purpose := "At least " ++ toString floor ++ " verified evidence items supporting " ++ artifact.value ++ " (have " ++
      toString have_ ++ ")"
    satisfies := ["validate:" ++ artifact.value]
    dependencies := []
    status := if floor ≤ have_ then .SATISFIED else if research_upstream then .PLANNED else .BLOCKED
    resolution := if floor ≤ have_ then .VALID_EXISTING_REF else if research_upstream then .EXECUTABLE_WORK
      else .EXPLICIT_BLOCKER
    artifact_type := some artifact.value
    domains := domains
    blockers := if floor ≤ have_ then [] else if research_upstream then ["AWAITING_EVIDENCE:" ++ deficit]
      else ["EVIDENCE_DEFICIT:" ++ deficit] }

def validateNode (artifact : ArtifactType) (validate_deps domains : List String) (live : Bool) : BackchainNode where
  id := "validate:" ++ artifact.value
  type := .VALIDATION_OBLIGATION
  purpose := "Validate " ++ artifact.value ++ " against its obligations"
  satisfies := ["accept:" ++ artifact.value]
  dependencies := []
  hard_dependencies := validate_deps
  validation_obligations := obligations_for artifact domains false live
  status := .PLANNED
  resolution := .DERIVED
  artifact_type := some artifact.value
  stage := some (max 17 (ARTIFACT_STAGE artifact))
  domains := domains

def decisionNode (given : Given) (kind : DecisionKind) (work_id accept_id : String) (domains : List String) :
    BackchainNode where
  id := "decision:" ++ kind.value
  type := .MATERIAL_DECISION
  purpose := "Material " ++ kind.value ++ " decision over produced options"
  satisfies := [accept_id]
  dependencies := []
  hard_dependencies := [work_id]
  status := if given.accepted_decisions.contains kind.value then .SATISFIED else .AWAITING_HUMAN
  resolution := if given.accepted_decisions.contains kind.value then .VALID_EXISTING_REF else .HUMAN_DECISION
  domains := domains

def acceptNode (artifact : ArtifactType) (producer : RoleContract) (satisfies : String) (accept_deps domains : List String) :
    BackchainNode where
  id := "accept:" ++ artifact.value
  type := .ACCEPTED_ARTIFACT
  purpose := "Accepted " ++ artifact.value
  satisfies := [satisfies]
  dependencies := []
  hard_dependencies := accept_deps
  status := .PLANNED
  resolution := .DERIVED
  artifact_type := some artifact.value
  runtime_role_id := some producer.role_id
  domains := domains

/-- The nodes for an artifact whose inputs are there: the work, the evidence and the validation, the decision, and the
    acceptance. -/
def produce (given : Given) (artifact : ArtifactType) (producer : RoleContract) (satisfies : String)
    (domains : List String) (live : Bool) (inputs : List String) (b : Builder) : Builder :=
  let work_id := "work:" ++ artifact.value
  let accept_id := "accept:" ++ artifact.value
  let worked := b.add (productionNode artifact producer inputs domains)
  let research_upstream := RESEARCH_ARTIFACTS.contains artifact ||
    RESEARCH_ARTIFACTS.any fun r => (worked.raw_ancestors work_id).contains ("work:" ++ r.value)
  let evidenced := if producer.min_evidence ≠ 0 then
      worked.add (evidenceNode given artifact producer.min_evidence domains research_upstream)
    else worked
  let validate_deps := if producer.min_evidence ≠ 0 then [work_id, "evidence:" ++ artifact.value] else [work_id]
  let validated := evidenced.add (validateNode artifact validate_deps domains live)
  match MATERIAL_DECISIONS artifact with
  | some kind =>
    (validated.add (decisionNode given kind work_id accept_id domains)).add
      (acceptNode artifact producer satisfies ["validate:" ++ artifact.value, "decision:" ++ kind.value] domains)
  | none => validated.add (acceptNode artifact producer satisfies ["validate:" ++ artifact.value] domains)

/-- The artifacts a role consumes, in order. -/
def inputsOf (producer : RoleContract) : List ArtifactType := producer.consumes.insertionSort fun a b => a.value ≤ b.value

/-- The node that proves that an artifact is available as an accepted input, and the builder with it; nothing when the
    roles consume in a cycle. An artifact is never expanded inside its own expansion, so `depth` is enough when there are
    as many as artifacts. -/
def accepted (given : Given) : Nat → List ArtifactType → ArtifactType → String → List String → Bool → Builder →
    Option (String × Builder)
  | 0, _, _, _, _, _, _ => none
  | depth + 1, expanding, artifact, satisfies, domains, live, b =>
    match given.existing_artifacts.lookup artifact.value with
    | some content_hash => some ("ref:" ++ artifact.value, b.add (refNode artifact content_hash satisfies domains))
    | none =>
      match producer_for artifact with
      | none =>
        some ("blocker:NO_N3_PRODUCER:" ++ artifact.value, b.add (blockerNode "NO_N3_PRODUCER" artifact.value satisfies))
      | some producer =>
        let accept_id := "accept:" ++ artifact.value
        if accept_id ∈ b.ids then
          some (accept_id, b.add (acceptNode artifact producer satisfies [] domains))
        else if artifact ∈ expanding then none
        else do
          let (inputs, b) ← (inputsOf producer).foldlM (fun (found : List String × Builder) c =>
            (accepted given depth (artifact :: expanding) c ("work:" ++ artifact.value) domains live found.2).map
              fun result => (found.1 ++ [result.1], result.2)) ([], b)
          some (accept_id, produce given artifact producer satisfies domains live inputs b)

/-- Deep enough for any expansion. -/
def fullDepth : Nat := ArtifactType.all.length

def rootId (spec : DeliverableSpec) : String := "deliverable:" ++ spec.id

def externalId (spec : DeliverableSpec) (action : ExternalAction) : String :=
  "external:" ++ action.value ++ ":" ++ spec.id

def externalNode (spec : DeliverableSpec) (action : ExternalAction) (deps domains : List String) : BackchainNode :=
  let contract := role (EXTERNAL_ACTION_ROLE action)
  { id := externalId spec action
    type := .EXTERNAL_ACTION
    purpose := action.value ++ " " ++ spec.output_contract ++ " externally (P12, distinct from P11 acceptance)"
    satisfies := [rootId spec]
    dependencies := []
    hard_dependencies := deps
    phase_compatibility := ["P12"]
    required_capabilities := sorted ((contract.map fun r => r.capabilities.map (·.value)).getD [])
    validation_obligations := obligations_for .release_record domains true spec.live_service
    side_effect_class := if action ∈ REVERSIBLE_ACTIONS then "REVERSIBLE_WRITE" else "IRREVERSIBLE_WRITE"
    mutation_targets := ["external:" ++ action.value]
    status := .PLANNED
    resolution := .EXECUTABLE_WORK
    runtime_role_id := contract.map (·.role_id)
    stage := some 18
    domains := domains }

def rootNode (spec : DeliverableSpec) (deps domains : List String) : BackchainNode where
  id := rootId spec
  type := .DELIVERABLE
  purpose := spec.requested_outcome
  dependencies := []
  hard_dependencies := deps
  status := .PLANNED
  resolution := .DERIVED
  artifact_type := some spec.output_contract
  domains := domains

/-- `external_node`: a consequential launch also needs the release record. -/
def external_node (given : Given) (spec : DeliverableSpec) (action : ExternalAction) (accepted_id : String)
    (domains : List String) (b : Builder) : Option Builder := do
  if action ∈ SPEND_ACTIONS then some (b.add (externalNode spec action [accepted_id] domains))
  else
    let (release_id, b) ← accepted given fullDepth [] .release_record (externalId spec action) domains spec.live_service b
    some (b.add (externalNode spec action [accepted_id, release_id] domains))

/-- The output of a deliverable: an unknown type of artifact is an explicit blocker. -/
def outputNode (given : Given) (spec : DeliverableSpec) (domains : List String) (b : Builder) :
    Option (String × Builder) :=
  match ArtifactType.of spec.output_contract with
  | none => some ("blocker:ARTIFACT_TYPE_UNMODELED:" ++ spec.output_contract,
      b.add (blockerNode "ARTIFACT_TYPE_UNMODELED" spec.output_contract (rootId spec)))
  | some artifact => accepted given fullDepth [] artifact (rootId spec) domains spec.live_service b

def deliverable (given : Given) (spec : DeliverableSpec) (b : Builder) : Option Builder := do
  let domains := sorted spec.domains
  let (dep, b) ← outputNode given spec domains b
  match spec.external_action with
  | none => some (b.add (rootNode spec [dep] domains))
  | some action =>
    let b ← external_node given spec action dep domains b
    some (b.add (rootNode spec [externalId spec action] domains))

/-! ## The compilation -/

def NodeType.value : NodeType → String
  | DELIVERABLE => "DELIVERABLE"
  | ACCEPTED_ARTIFACT => "ACCEPTED_ARTIFACT"
  | VALIDATION_OBLIGATION => "VALIDATION_OBLIGATION"
  | EXECUTABLE_WORK => "EXECUTABLE_WORK"
  | MATERIAL_DECISION => "MATERIAL_DECISION"
  | EVIDENCE_REQUIREMENT => "EVIDENCE_REQUIREMENT"
  | EXISTING_REF => "EXISTING_REF"
  | EXTERNAL_ACTION => "EXTERNAL_ACTION"
  | BLOCKER => "BLOCKER"

def NodeStatus.value : NodeStatus → String
  | SATISFIED => "SATISFIED"
  | PLANNED => "PLANNED"
  | AWAITING_HUMAN => "AWAITING_HUMAN"
  | BLOCKED => "BLOCKED"

def Resolution.value : Resolution → String
  | VALID_EXISTING_REF => "VALID_EXISTING_REF"
  | EXECUTABLE_WORK => "EXECUTABLE_WORK"
  | HUMAN_DECISION => "HUMAN_DECISION"
  | EXPLICIT_BLOCKER => "EXPLICIT_BLOCKER"
  | DERIVED => "DERIVED"

/-- `"S%02d"` -/
def stageText (stage : Nat) : String := if stage < 10 then "S0" ++ toString stage else "S" ++ toString stage

/-- The fields a kind of node is given beside those all are given. -/
def ownFields (node : BackchainNode) : List (String × Value) :=
  let artifact := ("artifact_type", optText node.artifact_type)
  let role := ("runtime_role_id", optText node.runtime_role_id)
  let stage := ("stage", optText (node.stage.map stageText))
  let work := [("phase_compatibility", texts node.phase_compatibility),
    ("required_capabilities", texts node.required_capabilities), ("side_effect_class", .str node.side_effect_class),
    ("mutation_targets", texts node.mutation_targets), role, stage]
  let obligations := ("validation_obligations", texts node.validation_obligations)
  match node.type with
  | .EXISTING_REF | .EVIDENCE_REQUIREMENT | .DELIVERABLE => [artifact]
  | .EXECUTABLE_WORK => artifact :: work
  | .VALIDATION_OBLIGATION => [artifact, stage, obligations]
  | .ACCEPTED_ARTIFACT => [artifact, role]
  | .EXTERNAL_ACTION => obligations :: work
  | .MATERIAL_DECISION | .BLOCKER => []

/-- The fields of a node its hash is over: all but its purpose. -/
def semanticFields (node : BackchainNode) : Value :=
  .dict ([("id", .str node.id), ("type", .str node.type.value), ("satisfies", texts node.satisfies),
    ("dependencies", texts node.dependencies), ("hard_dependencies", texts node.hard_dependencies),
    ("soft_dependencies", texts []), ("status", .str node.status.value), ("resolution", .str node.resolution.value),
    ("domains", texts node.domains), ("blockers", texts node.blockers)] ++ ownFields node)

section

variable [Fingerprint]

def _finalize (raw : BackchainNode) : BackchainNode :=
  let node := { raw with dependencies := sortedSet raw.hard_dependencies }
  { node with semantic_hash := semantic_hash (semanticFields node) }

end

/-- The dependencies of a node, by its identifier. -/
def dependenciesIn (nodes : List BackchainNode) (id : String) : List String :=
  ((lookup nodes id).map (·.dependencies)).getD []

variable {node : BackchainNode} {nodes : List BackchainNode}

theorem lookup_node_of_mem (hids : (nodes.map (·.id)).Nodup) (h : node ∈ nodes) : lookup nodes node.id = some node := by
  unfold lookup
  cases hfind : nodes.find? (·.id == node.id) with
  | none =>
    have := List.find?_eq_none.mp hfind node h
    simp at this
  | some other =>
    have hid : other.id = node.id := by simpa using List.find?_some hfind
    rw [List.inj_on_of_nodup_map hids (List.mem_of_find?_eq_some hfind) h hid]

theorem node_mem_of_lookup {id : String} (h : lookup nodes id = some node) : node ∈ nodes ∧ node.id = id := by
  unfold lookup at h
  exact ⟨List.mem_of_find?_eq_some h, by simpa using List.find?_some h⟩

theorem sorted_perm_self (l : List String) : (sorted l).Perm l := List.perm_insertionSort _ l

/-- `_topological(nodes)`, with what makes the order a topological one; nothing when a dependency is unknown or there is a
    cycle. -/
def _topological (nodes : List BackchainNode) (hids : (nodes.map (·.id)).Nodup)
    (hdeps : ∀ node ∈ nodes, node.dependencies.Nodup) : Option CausalWorkGraph :=
  match h : topological sorted (nodes.map (·.id)) (dependenciesIn nodes) with
  | none => none
  | some order =>
    have hspec := topological_spec sorted_perm_self hids (fun id hid => by
      obtain ⟨node, hnode, rfl⟩ := List.mem_map.mp hid
      unfold dependenciesIn
      rw [lookup_node_of_mem hids hnode]
      exact hdeps node hnode) h
    some
      { nodes := nodes
        topological_order := order
        ids_nodup := hids
        order_nodup := hspec.1
        mem_order := hspec.2.1
        ordered := fun l₁ id l₂ node hsplit hnode d hd => by
          apply hspec.2.2.1 l₁ id l₂ hsplit d
          unfold dependenciesIn
          rw [hnode]
          exact hd }

/-- The nodes of some identifiers. -/
def nodesOf (nodes : List BackchainNode) (ids : List String) : List BackchainNode := ids.filterMap (lookup nodes)

theorem nodesOf_ids {ids : List String} (h : ids.Nodup) : ((nodesOf nodes ids).map (·.id)).Nodup := by
  have hsub : ((nodesOf nodes ids).map (·.id)).Sublist ids := by
    unfold nodesOf
    induction ids with
    | nil => simp
    | cons id ids ih =>
      have hrest := ih (List.nodup_cons.mp h).2
      cases hlookup : lookup nodes id with
      | none =>
        rw [List.filterMap_cons_none hlookup]
        exact hrest.cons id
      | some node =>
        rw [List.filterMap_cons_some hlookup, List.map_cons, (node_mem_of_lookup hlookup).2]
        exact hrest.cons_cons id
  exact hsub.nodup h

theorem mem_nodesOf {ids : List String} (hids : (nodes.map (·.id)).Nodup) :
    node ∈ nodesOf nodes ids ↔ node ∈ nodes ∧ node.id ∈ ids := by
  unfold nodesOf
  rw [List.mem_filterMap]
  constructor
  · rintro ⟨id, hid, hlookup⟩
    obtain ⟨hmem, rfl⟩ := node_mem_of_lookup hlookup
    exact ⟨hmem, hid⟩
  · rintro ⟨hmem, hid⟩
    exact ⟨node.id, hid, lookup_node_of_mem hids hmem⟩

theorem sortedSet_nodup (l : List String) : (sortedSet l).Nodup :=
  (sorted_perm_self _).nodup_iff.mpr l.nodup_dedup

/-- Why a compilation raises: there is no deliverable, two have one identifier, or the roles or the nodes form a cycle. -/
inductive BackchainError where
  | noDeliverables
  | duplicateIds
  | cycle
  deriving DecidableEq, Repr

structure Backchain where
  graph : CausalWorkGraph
  roots : List String
  eliminated : List String
  redundant_candidates : List String
  dedup_hits : Nat
  graph_hash : String

section

variable [Fingerprint]

/-- The nodes that are kept: those the roots lead to, by identifier. -/
def keptNodes (finalized : List BackchainNode) (roots : List String) : List BackchainNode :=
  nodesOf finalized (sortedSet (reachable (finalized.map (·.id)) (dependenciesIn finalized) roots))

/-- The specs by identifier. -/
def sortedSpecs (deliverables : List DeliverableSpec) : List DeliverableSpec :=
  deliverables.insertionSort fun a b => a.id ≤ b.id

/-- All specs expanded, one after another. -/
def expand (given : Given) (specs : List DeliverableSpec) : Option Builder :=
  specs.foldlM (fun b spec => deliverable given spec b) {}

omit [Fingerprint] in
theorem keptNodes_ids {finalized : List BackchainNode} {roots : List String} :
    ((keptNodes finalized roots).map (·.id)).Nodup := nodesOf_ids (sortedSet_nodup _)

/-- NORMALIZE → EXPAND(+CSE) → DEDUP → DEAD/ORPHAN ELIMINATION → CYCLE CHECK → NECESSITY. -/
def compile_backchain (deliverables : List DeliverableSpec) (given : Given) : Except BackchainError Backchain :=
  let specs := sortedSpecs deliverables
  if specs = [] then .error .noDeliverables
  else if ¬ (specs.map (·.id)).Nodup then .error .duplicateIds
  else
    match expand given specs with
    | none => .error .cycle
    | some builder =>
      let finalized := builder.nodes.map _finalize
      let roots := specs.map rootId
      let kept := keptNodes finalized roots
      match _topological kept keptNodes_ids (by
          intro node hnode
          obtain ⟨id, -, hlookup⟩ := List.mem_filterMap.mp hnode
          obtain ⟨raw, -, rfl⟩ := List.mem_map.mp (node_mem_of_lookup hlookup).1
          exact sortedSet_nodup _) with
      | none => .error .cycle
      | some graph =>
        .ok
          { graph := graph
            roots := roots
            eliminated := sortedSet ((finalized.map (·.id)).filter (· ∉ kept.map (·.id)))
            redundant_candidates := sortedSet ((kept.map (·.id)).filter (· ∉ reachable (kept.map (·.id))
              (fun id => ((lookup kept id).map (·.hard_dependencies)).getD []) roots))
            dedup_hits := builder.dedup_hits
            graph_hash := semantic_hash (.dict [("roots", texts roots),
              ("nodes", .dict (kept.map fun node => (node.id, .str node.semantic_hash)))]) }

end

end Compiled
