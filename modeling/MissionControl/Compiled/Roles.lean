import Mathlib.Data.List.Sort

/-! # Roles

What a role may do: the artifacts it produces, and those it has to be able to read. A backchain follows the producers of
artifacts, and an authority binding starts from the contract of the role. -/

namespace Compiled

inductive ArtifactType where
  | research_brief
  | market_analysis
  | positioning_statement
  | brand_platform
  | naming_candidate
  | identity_guidelines
  | creative_concept
  | copy_variant
  | design_brief
  | campaign_package
  | product_spec
  | implementation_plan
  | media_plan
  | measurement_plan
  | qa_report
  | release_record
  | brand_core
  | brand_guidelines_doc
  | design_token_set
  | design_system_spec
  | website_lockup_spec
  | asset_prompt_set
  | business_model_spec
  | offer_definition
  | app_build_spec
  | automation_spec
  | knowledge_capsule
  | media_asset
  deriving DecidableEq, Repr

def ArtifactType.value : ArtifactType → String
  | research_brief => "research_brief"
  | market_analysis => "market_analysis"
  | positioning_statement => "positioning_statement"
  | brand_platform => "brand_platform"
  | naming_candidate => "naming_candidate"
  | identity_guidelines => "identity_guidelines"
  | creative_concept => "creative_concept"
  | copy_variant => "copy_variant"
  | design_brief => "design_brief"
  | campaign_package => "campaign_package"
  | product_spec => "product_spec"
  | implementation_plan => "implementation_plan"
  | media_plan => "media_plan"
  | measurement_plan => "measurement_plan"
  | qa_report => "qa_report"
  | release_record => "release_record"
  | brand_core => "brand_core"
  | brand_guidelines_doc => "brand_guidelines_doc"
  | design_token_set => "design_token_set"
  | design_system_spec => "design_system_spec"
  | website_lockup_spec => "website_lockup_spec"
  | asset_prompt_set => "asset_prompt_set"
  | business_model_spec => "business_model_spec"
  | offer_definition => "offer_definition"
  | app_build_spec => "app_build_spec"
  | automation_spec => "automation_spec"
  | knowledge_capsule => "knowledge_capsule"
  | media_asset => "media_asset"

/-- `list(ArtifactType)` -/
def ArtifactType.all : List ArtifactType :=
  [.research_brief, .market_analysis, .positioning_statement, .brand_platform, .naming_candidate,
   .identity_guidelines, .creative_concept, .copy_variant, .design_brief, .campaign_package, .product_spec,
   .implementation_plan, .media_plan, .measurement_plan, .qa_report, .release_record, .brand_core,
   .brand_guidelines_doc, .design_token_set, .design_system_spec, .website_lockup_spec, .asset_prompt_set,
   .business_model_spec, .offer_definition, .app_build_spec, .automation_spec, .knowledge_capsule, .media_asset]

theorem ArtifactType.mem_all (a : ArtifactType) : a ∈ ArtifactType.all := by
  cases a <;> decide

theorem ArtifactType.value_inj {a b : ArtifactType} (h : a.value = b.value) : a = b := by
  revert a b
  have hall : ∀ a ∈ ArtifactType.all, ∀ b ∈ ArtifactType.all, a.value = b.value → a = b := by decide
  exact fun {a b} => hall a a.mem_all b b.mem_all

/-- `ArtifactType(text)`, unless it is a `ValueError`. -/
def ArtifactType.of (text : String) : Option ArtifactType := ArtifactType.all.find? (·.value == text)

inductive Capability where
  | research_synthesis
  | positioning
  | naming
  | identity_system
  | concepting
  | copywriting
  | art_direction
  | product_definition
  | implementation
  | campaign_planning
  | media_planning
  | measurement
  | brand_safety_review
  | release_management
  deriving DecidableEq, Repr

def Capability.value : Capability → String
  | research_synthesis => "research_synthesis"
  | positioning => "positioning"
  | naming => "naming"
  | identity_system => "identity_system"
  | concepting => "concepting"
  | copywriting => "copywriting"
  | art_direction => "art_direction"
  | product_definition => "product_definition"
  | implementation => "implementation"
  | campaign_planning => "campaign_planning"
  | media_planning => "media_planning"
  | measurement => "measurement"
  | brand_safety_review => "brand_safety_review"
  | release_management => "release_management"

/-- The execution contract of a role. -/
structure RoleContract where
  role_id : String
  mandate : String
  capabilities : List Capability
  produces : List ArtifactType
  consumes : List ArtifactType := []
  min_evidence : Nat := 0
  requires_human_approval : Bool := true
  external_side_effect : Bool := false
  deriving DecidableEq

/-- `ROLE_REGISTRY`, in its order. -/
def ROLE_REGISTRY : List RoleContract := [
  { role_id := "market_researcher"
    mandate := "Collect and synthesize external evidence about the category and audience."
    capabilities := [.research_synthesis]
    produces := [.research_brief, .market_analysis, .knowledge_capsule]
    min_evidence := 3 },
  { role_id := "brand_strategist"
    mandate := "Derive a defensible position and the commercial model that carries it."
    capabilities := [.positioning]
    produces := [.positioning_statement, .business_model_spec, .offer_definition]
    consumes := [.research_brief, .market_analysis]
    min_evidence := 2 },
  { role_id := "brand_architect"
    mandate := "Author the canonical brand object and the identity system derived from it."
    capabilities := [.naming, .identity_system]
    produces := [.brand_platform, .naming_candidate, .identity_guidelines, .brand_core, .brand_guidelines_doc]
    consumes := [.positioning_statement]
    min_evidence := 2 },
  { role_id := "creative_director"
    mandate := "Generate campaign concepts and the reproducible prompts that realize them."
    capabilities := [.concepting, .art_direction]
    produces := [.creative_concept, .asset_prompt_set, .media_asset]
    consumes := [.brand_platform, .positioning_statement, .brand_core] },
  { role_id := "copywriter"
    mandate := "Write channel-ready language for approved concepts."
    capabilities := [.copywriting]
    produces := [.copy_variant]
    consumes := [.creative_concept, .brand_platform] },
  { role_id := "design_lead"
    mandate := "Compile the brand object into tokens, components, and page composition."
    capabilities := [.art_direction]
    produces := [.design_brief, .design_token_set, .design_system_spec, .website_lockup_spec]
    consumes := [.creative_concept, .identity_guidelines, .brand_core] },
  { role_id := "product_manager"
    mandate := "Define the offer and its acceptance criteria."
    capabilities := [.product_definition]
    produces := [.product_spec]
    consumes := [.positioning_statement]
    min_evidence := 1 },
  { role_id := "implementation_lead"
    mandate := "Specify technical delivery, whether an application build or an automation."
    capabilities := [.implementation]
    produces := [.implementation_plan, .app_build_spec, .automation_spec]
    consumes := [.product_spec, .design_system_spec] },
  { role_id := "growth_lead"
    mandate := "Assemble the campaign package from approved components."
    capabilities := [.campaign_planning]
    produces := [.campaign_package]
    consumes := [.copy_variant, .design_brief, .creative_concept] },
  { role_id := "media_planner"
    mandate := "Plan paid distribution. Spend requires escrowed authorization."
    capabilities := [.media_planning]
    produces := [.media_plan]
    consumes := [.campaign_package]
    external_side_effect := true },
  { role_id := "analytics_lead"
    mandate := "Define measurement against a verified data source."
    capabilities := [.measurement]
    produces := [.measurement_plan]
    consumes := [.campaign_package]
    min_evidence := 1 },
  { role_id := "brand_safety_reviewer"
    mandate := "Adjudicate brand safety and evidence sufficiency before release."
    capabilities := [.brand_safety_review]
    produces := [.qa_report]
    consumes := [.campaign_package, .copy_variant]
    requires_human_approval := false },
  { role_id := "release_manager"
    mandate := "Execute release mechanics once every gate has cleared."
    capabilities := [.release_management]
    produces := [.release_record]
    consumes := [.campaign_package, .qa_report]
    external_side_effect := true }]

/-- `ROLE_REGISTRY.get(role_id)` -/
def role (role_id : String) : Option RoleContract := ROLE_REGISTRY.find? (·.role_id == role_id)

/-- `producer_for`: the producer whose identifier comes first. -/
def producer_for (artifact_type : ArtifactType) : Option RoleContract :=
  ((ROLE_REGISTRY.filter (artifact_type ∈ ·.produces)).insertionSort fun a b => a.role_id ≤ b.role_id).head?

end Compiled
