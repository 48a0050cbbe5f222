import MissionControl.Compiled.Cells
import MissionControl.Compiled.Roles
import Mathlib.Data.String.Basic

/-! # Validation

Each artifact has a node that validates it, which carries an ordered list of obligations. Results are reported per node,
obligation and attempt, and a verdict summarises them. What counts is the last attempt (`last_attempt`). -/

namespace Compiled

open Python (filter_insertionSort)

/-! ## Obligations -/

inductive ValidationStage where
  | SCHEMA
  | PROVENANCE
  | LOGICAL_CONSISTENCY
  | FRESHNESS
  | AUTHORITY
  | ACCEPTANCE_CRITERIA
  | DISCIPLINE_QA
  | BRAND
  | ACCESSIBILITY
  | LEGAL_RIGHTS
  | PRIVACY
  | SECURITY
  | FINANCIAL_COMMERCIAL
  | GOVERNANCE
  | TOOL_PROOF
  | COMPLETION_PROOF
  deriving DecidableEq, Repr

namespace ValidationStage

def value : ValidationStage → String
  | SCHEMA => "SCHEMA"
  | PROVENANCE => "PROVENANCE"
  | LOGICAL_CONSISTENCY => "LOGICAL_CONSISTENCY"
  | FRESHNESS => "FRESHNESS"
  | AUTHORITY => "AUTHORITY"
  | ACCEPTANCE_CRITERIA => "ACCEPTANCE_CRITERIA"
  | DISCIPLINE_QA => "DISCIPLINE_QA"
  | BRAND => "BRAND"
  | ACCESSIBILITY => "ACCESSIBILITY"
  | LEGAL_RIGHTS => "LEGAL_RIGHTS"
  | PRIVACY => "PRIVACY"
  | SECURITY => "SECURITY"
  | FINANCIAL_COMMERCIAL => "FINANCIAL_COMMERCIAL"
  | GOVERNANCE => "GOVERNANCE"
  | TOOL_PROOF => "TOOL_PROOF"
  | COMPLETION_PROOF => "COMPLETION_PROOF"

/-- `STAGE_ORDER[stage]` -/
def order : ValidationStage → Nat
  | SCHEMA => 0
  | PROVENANCE => 1
  | LOGICAL_CONSISTENCY => 2
  | FRESHNESS => 3
  | AUTHORITY => 4
  | ACCEPTANCE_CRITERIA => 5
  | DISCIPLINE_QA => 6
  | BRAND => 7
  | ACCESSIBILITY => 8
  | LEGAL_RIGHTS => 9
  | PRIVACY => 10
  | SECURITY => 11
  | FINANCIAL_COMMERCIAL => 12
  | GOVERNANCE => 13
  | TOOL_PROOF => 14
  | COMPLETION_PROOF => 15

end ValidationStage

open ArtifactType

def _BRAND_ARTIFACTS : List ArtifactType :=
  [brand_platform, brand_core, identity_guidelines, brand_guidelines_doc, creative_concept, copy_variant,
   campaign_package, asset_prompt_set, design_brief, design_system_spec, design_token_set, website_lockup_spec]

def _INTERFACE_ARTIFACTS : List ArtifactType :=
  [design_system_spec, design_token_set, website_lockup_spec, app_build_spec, product_spec]

def _SOFTWARE_ARTIFACTS : List ArtifactType := [app_build_spec, implementation_plan, automation_spec]

def _STRATEGIC_ARTIFACTS : List ArtifactType :=
  [research_brief, market_analysis, positioning_statement, brand_platform, business_model_spec, offer_definition,
   measurement_plan]

def _PUBLIC_COPY : List ArtifactType := [copy_variant, campaign_package]

def _MEDIA_DOMAINS : List String := ["FILM", "VIDEO", "MOTION", "ANIMATION", "VFX"]

def _DATA_ARTIFACTS : List ArtifactType := [measurement_plan, media_plan, app_build_spec, automation_spec]

/-- A profile applies to an artifact in some domains, for a live service or not. -/
structure ValidationProfile where
  profile_id : String
  stage : ValidationStage
  applies : ArtifactType → List String → Bool → Bool

def VALIDATION_PROFILES : List ValidationProfile := [
  ⟨"GROUNDING", .PROVENANCE, fun a _ _ => _STRATEGIC_ARTIFACTS.contains a⟩,
  ⟨"USER_NEED", .ACCEPTANCE_CRITERIA, fun a _ _ => [product_spec, app_build_spec].contains a⟩,
  ⟨"ACCESSIBILITY", .ACCESSIBILITY, fun a _ _ => _INTERFACE_ARTIFACTS.contains a⟩,
  ⟨"SECURITY", .SECURITY, fun a _ _ => _SOFTWARE_ARTIFACTS.contains a⟩,
  ⟨"PRIVACY", .PRIVACY, fun a _ _ => _DATA_ARTIFACTS.contains a⟩,
  ⟨"AI_POLICY", .GOVERNANCE, fun a _ _ => [asset_prompt_set, copy_variant, creative_concept].contains a⟩,
  ⟨"BRAND_COHESION", .BRAND, fun a _ _ => _BRAND_ARTIFACTS.contains a⟩,
  ⟨"VISUAL_DIRECTION", .BRAND, fun a _ _ =>
    [identity_guidelines, design_system_spec, design_token_set, website_lockup_spec].contains a⟩,
  ⟨"TRADEMARK", .LEGAL_RIGHTS, fun a _ _ => a == naming_candidate⟩,
  ⟨"CLAIMS_LEGAL", .LEGAL_RIGHTS, fun a _ _ => _PUBLIC_COPY.contains a⟩,
  ⟨"APP_STORE", .GOVERNANCE, fun a d _ => d.contains "MOBILE_APP" && [app_build_spec, release_record].contains a⟩,
  ⟨"VIDEO_RIGHTS", .LEGAL_RIGHTS, fun a d _ =>
    d.any _MEDIA_DOMAINS.contains && [asset_prompt_set, campaign_package, release_record].contains a⟩,
  ⟨"LIVE_OPERATION", .GOVERNANCE, fun a _ live => live && [release_record, app_build_spec].contains a⟩]

def BASE_OBLIGATIONS : List ValidationStage :=
  [.SCHEMA, .PROVENANCE, .ACCEPTANCE_CRITERIA, .DISCIPLINE_QA, .GOVERNANCE, .COMPLETION_PROOF]

def applicable_profiles (artifact_type : ArtifactType) (domains : List String) (live_service : Bool) :
    List ValidationProfile :=
  VALIDATION_PROFILES.filter (·.applies artifact_type domains live_service)

/-- The order of the pairs of a stage and an obligation. -/
def StageLE (a b : Nat × String) : Prop := a.1 < b.1 ∨ a.1 = b.1 ∧ a.2 ≤ b.2

instance : DecidableRel StageLE := fun _ _ => inferInstanceAs (Decidable (_ ∨ _))

/-- The obligations of an artifact, before they are put in order: a stage and a name each. -/
def obligationItems (artifact_type : ArtifactType) (domains : List String) (external_action live_service : Bool) :
    List (Nat × String) :=
  BASE_OBLIGATIONS.map (fun stage => (stage.order, stage.value)) ++
  (match ROLE_REGISTRY.find? (artifact_type ∈ ·.produces) with
    | some producer =>
      if producer.min_evidence ≠ 0 then
        [(ValidationStage.PROVENANCE.order, "EVIDENCE_FLOOR:" ++ toString producer.min_evidence)]
      else []
    | none => []) ++
  (applicable_profiles artifact_type domains live_service).map
    (fun profile => (profile.stage.order, "PROFILE:" ++ profile.profile_id)) ++
  (if external_action then
    [(ValidationStage.AUTHORITY.order, ValidationStage.AUTHORITY.value),
     (ValidationStage.TOOL_PROOF.order, ValidationStage.TOOL_PROOF.value)]
  else [])

/-- The ordered obligations of the node that validates an artifact. -/
def obligations_for (artifact_type : ArtifactType) (domains : List String) (external_action live_service : Bool) :
    List String :=
  ((obligationItems artifact_type domains external_action live_service).dedup.insertionSort StageLE).map (·.2)

theorem mem_obligations_for {a : ArtifactType} {domains : List String} {external live : Bool} {o : String} :
    o ∈ obligations_for a domains external live ↔ ∃ stage, (stage, o) ∈ obligationItems a domains external live := by
  unfold obligations_for
  simp

/-! ## Results -/

inductive ResultStatus where
  | PASS
  | FAIL
  deriving DecidableEq, Repr

structure ValidationResult where
  node_id : String
  obligation : String
  status : ResultStatus
  validator_ref : String
  attempt : Int := 1
  failure_fingerprint : Option String := none
  deriving DecidableEq

structure ValidationVerdict where
  node_id : String
  passed : List String
  failed : List String
  pending : List String
  independence_violations : List String
  repair_routes : List (String × String)
  escalation : Option String

def MAX_REPAIR_ATTEMPTS : Nat := 3

/-- The order results are looked at in: `(r.obligation, r.attempt)`. -/
def AttemptLE (a b : ValidationResult) : Prop :=
  a.obligation < b.obligation ∨ a.obligation = b.obligation ∧ a.attempt ≤ b.attempt

instance : DecidableRel AttemptLE := fun _ _ => inferInstanceAs (Decidable (_ ∨ _))

instance : Std.Total AttemptLE where
  total a b := by
    unfold AttemptLE
    rcases lt_trichotomy a.obligation b.obligation with h | h | h
    · exact .inl (.inl h)
    · rcases le_total a.attempt b.attempt with ha | ha
      · exact .inl (.inr ⟨h, ha⟩)
      · exact .inr (.inr ⟨h.symm, ha⟩)
    · exact .inr (.inl h)

instance : IsTrans ValidationResult AttemptLE where
  trans a b c := by
    unfold AttemptLE
    rintro (hab | ⟨hab, hab'⟩) (hbc | ⟨hbc, hbc'⟩)
    · exact .inl (hab.trans hbc)
    · exact .inl (hbc ▸ hab)
    · exact .inl (hab ▸ hbc)
    · exact .inr ⟨hab.trans hbc, hab'.trans hbc'⟩

/-- `history[obligation]` -/
def history (node_id : String) (results : List ValidationResult) (obligation : String) : List ValidationResult :=
  ((results.filter (·.node_id == node_id)).insertionSort AttemptLE).filter (·.obligation == obligation)

/-- `latest.get(obligation)` -/
def latest (node_id : String) (results : List ValidationResult) (obligation : String) : Option ValidationResult :=
  (history node_id results obligation).getLast?

def _ROUTE_TO_RESEARCH : List String := ["PROVENANCE", "FRESHNESS", "PROFILE:GROUNDING"]

def _ROUTE_TO_SECURITY : List String := ["SECURITY", "PROFILE:SECURITY"]

def _ROUTE_TO_ASG : List String := ["AUTHORITY"]

/-- The smallest causal producer for a failed obligation. -/
def route_failure (obligation node_id : String) (graph_nodes : List String) : String :=
  let artifact := (afterColon node_id).getD node_id
  let producer := "work:" ++ artifact
  if _ROUTE_TO_RESEARCH.contains obligation || obligation.startsWith "EVIDENCE_FLOOR" then
    match ["work:market_analysis", "work:research_brief"].find? graph_nodes.contains with
    | some candidate => candidate
    | none => "evidence:" ++ artifact
  else
    match if _ROUTE_TO_SECURITY.contains obligation then
        ["work:app_build_spec", "work:implementation_plan"].find? graph_nodes.contains
      else none with
    | some candidate => candidate
    | none =>
      if _ROUTE_TO_ASG.contains obligation then "asg:" ++ artifact
      else if obligation = "APPROVAL_SCOPE" then "approval_scope:" ++ artifact
      else if graph_nodes.contains producer then producer
      else node_id

/-- The fingerprints of the failures of an obligation, in order. -/
def fingerprints (attempts : List ValidationResult) : List String :=
  (attempts.filter (·.status = .FAIL)).filterMap fun r => r.failure_fingerprint.filter (· ≠ "")

/-- What a failed obligation leads to: nothing yet, a person who looks at it, or the circuit breaker. -/
def escalate (node_id : String) (results : List ValidationResult) : Option String → List String → Option String
  | escalation, [] => escalation
  | escalation, o :: failed =>
    let attempts := history node_id results o
    if MAX_REPAIR_ATTEMPTS < attempts.length then some "CIRCUIT_BREAKER"
    else
      match (fingerprints attempts).reverse with
      | last :: before :: _ =>
        escalate node_id results (if last = before then some "HUMAN_REVIEW_REQUIRED" else escalation) failed
      | _ => escalate node_id results escalation failed

def evaluate_validation (node_id : String) (obligations : List String) (results : List ValidationResult)
    (creator_ref risk_level : String) (graph_nodes : List String) : ValidationVerdict :=
  let status o := (latest node_id results o).map (·.status)
  let passed := obligations.filter (status · = some .PASS)
  let failed := obligations.filter (status · = some .FAIL)
  { node_id := node_id
    passed := passed
    failed := failed
    pending := obligations.filter (status · = none)
    independence_violations :=
      if ["medium", "high", "critical"].contains risk_level then
        (passed.filter fun o => (latest node_id results o).map (·.validator_ref) = some creator_ref).map
          ("CREATOR_SOLE_REVIEWER:" ++ ·)
      else []
    repair_routes := (failed.map fun o => (o, route_failure o node_id graph_nodes)).insertionSort pairLE
    escalation := escalate node_id results none failed }

/-- A result about an obligation of a node. -/
def ValidationResult.About (r : ValidationResult) (node_id obligation : String) : Prop :=
  r.node_id = node_id ∧ r.obligation = obligation

/-- The last attempt at an obligation: no other has a higher number, nor the same number and
    is reported later. -/
def LastAttempt (results : List ValidationResult) (node_id obligation : String) (r : ValidationResult) : Prop :=
  ∃ before after, results = before ++ r :: after ∧ r.About node_id obligation ∧
    (∀ x ∈ before, x.About node_id obligation → x.attempt ≤ r.attempt) ∧
    (∀ x ∈ after, x.About node_id obligation → x.attempt < r.attempt)

variable {node_id obligation : String} {results : List ValidationResult} {r x : ValidationResult}

theorem mem_history : x ∈ history node_id results obligation ↔ x ∈ results ∧ x.About node_id obligation := by
  unfold history ValidationResult.About
  simp [and_assoc]

theorem mem_of_latest (h : latest node_id results obligation = some r) : r ∈ results ∧ r.About node_id obligation :=
  mem_history.mp (List.mem_of_getLast? h)

theorem LastAttempt.attempt_le (h : LastAttempt results node_id obligation r) (hx : x ∈ results)
    (habout : x.About node_id obligation) : x.attempt ≤ r.attempt := by
  obtain ⟨before, after, rfl, -, hbefore, hafter⟩ := h
  rcases List.mem_append.mp hx with hx | hx
  · exact hbefore x hx habout
  · rcases List.mem_cons.mp hx with rfl | hx
    · exact le_refl _
    · exact (hafter x hx habout).le

theorem pairwise_history : (history node_id results obligation).Pairwise (·.attempt ≤ ·.attempt) := by
  have hsorted : (history node_id results obligation).Pairwise AttemptLE :=
    (List.pairwise_insertionSort AttemptLE _).filter _
  refine hsorted.imp_of_mem fun {a b} ha hb hle => ?_
  have ha' := (mem_history.mp ha).2.2
  have hb' := (mem_history.mp hb).2.2
  rcases hle with hlt | ⟨-, hle⟩
  · rw [ha', hb'] at hlt
    exact absurd hlt (lt_irrefl _)
  · exact hle

theorem LastAttempt.filter_history (h : LastAttempt results node_id obligation r) :
    ∃ others, (history node_id results obligation).filter (·.attempt == r.attempt) = others ++ [r] := by
  obtain ⟨before, after, rfl, ⟨hnode, hobligation⟩, -, hafter⟩ := h
  unfold history
  rw [List.filter_filter, filter_insertionSort]
  · rw [List.filter_filter, List.filter_append, List.filter_cons_of_pos (by simp [hnode, hobligation])]
    have hrest : after.filter (fun a => (a.attempt == r.attempt && a.obligation == obligation) && a.node_id == node_id) =
        [] := by
      rw [List.filter_eq_nil_iff]
      intro x hx hkept
      simp only [Bool.and_eq_true, beq_iff_eq] at hkept
      have := hafter x hx ⟨hkept.2, hkept.1.2⟩
      omega
    rw [hrest]
    exact ⟨_, rfl⟩
  · intro a b ha hb
    simp only [Bool.and_eq_true, beq_iff_eq] at ha hb
    exact .inr ⟨ha.2.trans hb.2.symm, (ha.1.trans hb.1.symm).le⟩

theorem LastAttempt.latest (h : LastAttempt results node_id obligation r) :
    latest node_id results obligation = some r := by
  obtain ⟨others, hothers⟩ := h.filter_history
  have hr : r ∈ history node_id results obligation :=
    List.mem_of_mem_filter (hothers ▸ List.mem_append_right _ List.mem_cons_self)
  obtain ⟨x, hx⟩ := Option.ne_none_iff_exists'.mp fun hnone => List.ne_nil_of_mem hr (List.getLast?_eq_none_iff.mp hnone)
  obtain ⟨init, hinit⟩ := List.getLast?_eq_some_iff.mp hx
  have hxmem : x ∈ history node_id results obligation := List.mem_of_getLast? hx
  have hle : x.attempt ≤ r.attempt := h.attempt_le (mem_history.mp hxmem).1 (mem_history.mp hxmem).2
  have hge : r.attempt ≤ x.attempt := by
    have hpairs : (history node_id results obligation).Pairwise (·.attempt ≤ ·.attempt) := pairwise_history
    rw [hinit, List.pairwise_append] at hpairs
    rw [hinit] at hr
    rcases List.mem_append.mp hr with hr | hr
    · exact hpairs.2.2 r hr x List.mem_cons_self
    · rw [List.mem_singleton.mp hr]
  -- so the last entry is among those with the number of the last attempt, and the last of them
  rw [hinit, List.filter_append, List.filter_cons_of_pos (by simpa using le_antisymm hle hge)] at hothers
  have hlast := congrArg List.getLast? hothers
  rw [List.filter_nil, List.getLast?_concat, List.getLast?_concat] at hlast
  show (history node_id results obligation).getLast? = some r
  rw [hx, hlast]

theorem exists_lastAttempt (h : ∃ x ∈ results, x.About node_id obligation) :
    ∃ r, LastAttempt results node_id obligation r := by
  induction results with
  | nil => simp at h
  | cons x rest ih =>
    by_cases hrest : ∃ y ∈ rest, y.About node_id obligation
    · obtain ⟨r, hr⟩ := ih hrest
      by_cases hlater : x.About node_id obligation ∧ r.attempt < x.attempt
      · refine ⟨x, [], rest, rfl, hlater.1, by simp, ?_⟩
        intro y hy habout
        exact (hr.attempt_le hy habout).trans_lt hlater.2
      · obtain ⟨before, after, rfl, habout, hbefore, hafter⟩ := hr
        refine ⟨r, x :: before, after, rfl, habout, ?_, hafter⟩
        intro y hy hyabout
        rcases List.mem_cons.mp hy with rfl | hy
        · exact le_of_not_gt fun hlt => hlater ⟨hyabout, hlt⟩
        · exact hbefore y hy hyabout
    · obtain ⟨y, hy, habout⟩ := h
      rcases List.mem_cons.mp hy with rfl | hy
      · refine ⟨y, [], rest, rfl, habout, by simp, ?_⟩
        intro z hz hzabout
        exact absurd ⟨z, hz, hzabout⟩ hrest
      · exact absurd ⟨y, hy, habout⟩ hrest

/-- **What counts is the last attempt.** -/
theorem latest_eq_some_iff :
    latest node_id results obligation = some r ↔ LastAttempt results node_id obligation r := by
  constructor
  · intro h
    obtain ⟨last, hlast⟩ := exists_lastAttempt ⟨r, mem_of_latest h⟩
    rw [hlast.latest] at h
    rwa [← Option.some.inj h]
  · exact LastAttempt.latest

theorem mem_passed_iff {obligations graph_nodes : List String} {creator_ref risk_level : String}
    (hcarried : obligation ∈ obligations) :
    obligation ∈ (evaluate_validation node_id obligations results creator_ref risk_level graph_nodes).passed ↔
      ∃ r, LastAttempt results node_id obligation r ∧ r.status = .PASS := by
  unfold evaluate_validation
  simp [hcarried, latest_eq_some_iff]

end Compiled

/-! # Release readiness

A deliverable is released once its guards are met, brand safety among them. Whether brand safety has passed is read off
every result its ancestry was ever given, while validation reads off the last attempt at each node. The two part where a
failed attempt was repaired, where a node was never reported on, and where there is nothing to report on
(`brand_gate_agrees_iff`). -/

namespace Compiled

/-! ## Brand safety -/

/-- The obligation to be coherent with the brand. -/
def BRAND_COHESION : String := "PROFILE:BRAND_COHESION"

section

variable (graph : CausalWorkGraph) (root : String) (results : List ValidationResult)

/-- The results on brand cohesion in the ancestry of a deliverable. -/
def brandResults : List ValidationResult :=
  results.filter fun r => (graph.ancestors root).contains r.node_id && r.obligation == BRAND_COHESION

/-- Whether the brand safety of a deliverable has passed, as its release readiness is told: nothing is known when there
    are no results. -/
def brand_ok : Option Bool :=
  if brandResults graph root results = [] then none
  else some ((brandResults graph root results).all (·.status = .PASS))

/-- A validation node in the ancestry of a deliverable that has brand cohesion among its obligations. -/
structure BrandNode (node : BackchainNode) : Prop where
  mem : node ∈ graph.nodes
  ancestor : node.id ∈ graph.ancestors root
  type : node.type = .VALIDATION_OBLIGATION
  carries : BRAND_COHESION ∈ node.validation_obligations

/-- The brand safety release readiness is told of is what validation says of the brand nodes. -/
def BrandGateAgrees (creator_ref risk_level : BackchainNode → String) : Prop :=
  brand_ok graph root results = some true ↔ ∀ node, BrandNode graph root node →
    BRAND_COHESION ∈ (evaluate_validation node.id node.validation_obligations results (creator_ref node)
      (risk_level node) (graph.nodes.map (·.id))).passed

/-- Every brand node passed its last attempt, after some attempt had failed. -/
def Overruled : Prop :=
  (∃ r ∈ brandResults graph root results, r.status = .FAIL) ∧
    ∀ node, BrandNode graph root node → ∃ r, LastAttempt results node.id BRAND_COHESION r ∧ r.status = .PASS

/-- All that was reported passed, and a brand node was not reported on. -/
def Unreported : Prop :=
  brandResults graph root results ≠ [] ∧ (∀ r ∈ brandResults graph root results, r.status = .PASS) ∧
    ∃ node, BrandNode graph root node ∧ ∀ r ∈ results, ¬ r.About node.id BRAND_COHESION

/-- There is no brand node, and nothing was reported. -/
def Unbranded : Prop :=
  brandResults graph root results = [] ∧ ∀ node, ¬ BrandNode graph root node

variable {graph root results} {node : BackchainNode} {r : ValidationResult}

theorem mem_brandResults :
    r ∈ brandResults graph root results ↔ r ∈ results ∧ r.node_id ∈ graph.ancestors root ∧ r.obligation = BRAND_COHESION := by
  unfold brandResults
  simp

theorem brand_ok_eq_true : brand_ok graph root results = some true ↔
    brandResults graph root results ≠ [] ∧ ∀ r ∈ brandResults graph root results, r.status = .PASS := by
  unfold brand_ok
  split
  · rename_i h
    simp [h]
  · rename_i h
    simp [h]

theorem BrandNode.lastAttempt_mem (hnode : BrandNode graph root node)
    (h : LastAttempt results node.id BRAND_COHESION r) : r ∈ brandResults graph root results := by
  obtain ⟨before, after, rfl, ⟨hid, hobligation⟩, -, -⟩ := h
  rw [mem_brandResults, hid]
  exact ⟨by simp, hnode.ancestor, hobligation⟩

theorem ResultStatus.ne_pass_iff {status : ResultStatus} : status ≠ .PASS ↔ status = .FAIL := by
  cases status <;> decide

/-- **Release readiness agrees with validation** about the brand safety of a deliverable, unless a failed attempt was
    repaired everywhere, a brand node was not reported on, or there is no brand node and nothing was reported. -/
theorem brand_gate_agrees_iff (creator_ref risk_level : BackchainNode → String) :
    BrandGateAgrees graph root results creator_ref risk_level ↔
      ¬ Overruled graph root results ∧ ¬ Unreported graph root results ∧ ¬ Unbranded graph root results := by
  have hpassed : (∀ node, BrandNode graph root node →
      BRAND_COHESION ∈ (evaluate_validation node.id node.validation_obligations results (creator_ref node)
        (risk_level node) (graph.nodes.map (·.id))).passed) ↔
      ∀ node, BrandNode graph root node → ∃ r, LastAttempt results node.id BRAND_COHESION r ∧ r.status = .PASS :=
    forall₂_congr fun node hnode => mem_passed_iff hnode.carries
  unfold BrandGateAgrees
  rw [hpassed, brand_ok_eq_true]
  constructor
  · intro hagrees
    refine ⟨?_, ?_, ?_⟩
    · rintro ⟨⟨r, hr, hfail⟩, hlast⟩
      have hpass := (hagrees.mpr hlast).2 r hr
      rw [hfail] at hpass
      cases hpass
    · rintro ⟨hsome, hall, node, hnode, hnone⟩
      obtain ⟨r, hr, -⟩ := hagrees.mp ⟨hsome, hall⟩ node hnode
      obtain ⟨before, after, rfl, habout, -, -⟩ := hr
      exact hnone r (by simp) habout
    · rintro ⟨hempty, hnone⟩
      exact (hagrees.mpr fun node hnode => absurd hnode (hnone node)).1 hempty
  · rintro ⟨hoverruled, hunreported, hunbranded⟩
    constructor
    · rintro ⟨hsome, hall⟩ node hnode
      by_cases hreported : ∃ r ∈ results, r.About node.id BRAND_COHESION
      · obtain ⟨r, hr⟩ := exists_lastAttempt hreported
        exact ⟨r, hr, hall r (hnode.lastAttempt_mem hr)⟩
      · exact absurd ⟨hsome, hall, node, hnode, fun r hr habout => hreported ⟨r, hr, habout⟩⟩ hunreported
    · intro hlast
      refine ⟨?_, ?_⟩
      · -- nothing reported and every brand node passed: there is none
        intro hempty
        refine hunbranded ⟨hempty, fun node hnode => ?_⟩
        obtain ⟨r, hr, -⟩ := hlast node hnode
        have hmem := hnode.lastAttempt_mem hr
        rw [hempty] at hmem
        cases hmem
      · intro r hr
        by_contra hfail
        exact hoverruled ⟨⟨r, hr, ResultStatus.ne_pass_iff.mp hfail⟩, hlast⟩

end

/-! ## A repaired copy -/

/-- The graph of a copy whose concept and brand platform exist. -/
def repairedNodes : List BackchainNode := [
  { id := "ref:brand_platform", type := .EXISTING_REF, dependencies := [] },
  { id := "ref:creative_concept", type := .EXISTING_REF, dependencies := [] },
  { id := "work:copy_variant", type := .EXECUTABLE_WORK, dependencies := ["ref:brand_platform", "ref:creative_concept"] },
  { id := "validate:copy_variant", type := .VALIDATION_OBLIGATION, dependencies := ["work:copy_variant"]
    validation_obligations := obligations_for .copy_variant [] false false },
  { id := "accept:copy_variant", type := .ACCEPTED_ARTIFACT, dependencies := ["validate:copy_variant"] },
  { id := "deliverable:copy", type := .DELIVERABLE, dependencies := ["accept:copy_variant"] }]

def repairedGraph : CausalWorkGraph := .ofListed repairedNodes (by decide)

def failedAttempt : ValidationResult :=
  { node_id := "validate:copy_variant", obligation := BRAND_COHESION, status := .FAIL, validator_ref := "brand" }

def repairedAttempt : ValidationResult :=
  { node_id := "validate:copy_variant", obligation := BRAND_COHESION, status := .PASS, validator_ref := "brand"
    attempt := 2 }

/-- **A repaired copy is held back.** Validation says that the copy is coherent with the brand, and its release is told
    that brand safety has failed. -/
theorem repaired_copy_held : ¬ BrandGateAgrees repairedGraph "deliverable:copy" [failedAttempt, repairedAttempt]
    (fun _ => "copywriter") (fun _ => "medium") := by
  intro hagrees
  have hlast : LastAttempt [failedAttempt, repairedAttempt] "validate:copy_variant" BRAND_COHESION repairedAttempt := by
    refine ⟨[failedAttempt], [], rfl, ⟨rfl, rfl⟩, ?_, by simp⟩
    intro x hx _
    rw [List.mem_singleton.mp hx]
    decide
  have hpassed := hagrees.mpr fun node hnode => by
    apply (mem_passed_iff hnode.carries).mpr
    have honly : ∀ other ∈ repairedNodes, other.type = .VALIDATION_OBLIGATION → other.id = "validate:copy_variant" := by
      decide
    rw [honly node hnode.mem hnode.type]
    exact ⟨repairedAttempt, hlast, rfl⟩
  have hfailed : brand_ok repairedGraph "deliverable:copy" [failedAttempt, repairedAttempt] = some false := by decide
  rw [hfailed] at hpassed
  cases hpassed

end Compiled
