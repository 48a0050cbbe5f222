import MissionControl.Compiled.Cells
import MissionControl.Compiled.Roles
import MissionControl.Python.Iso

/-! # Authority bindings

A specialist supplies expertise and the contract of its runtime role the permissions. A consequential binding needs a
contract that declares external effects, a specialist, an exact approval and a grant that is still good. Whether a grant
is good is decided by the order of two texts; where a text that sorts after another also names a later moment, the
binding has live authority (`live_authority_iff`). -/

namespace Compiled

open Python

inductive SideEffectClass where
  | PURE
  | DRAFT
  | REVERSIBLE_WRITE
  | IRREVERSIBLE_WRITE
  deriving DecidableEq, Repr

namespace SideEffectClass

def value : SideEffectClass → String
  | PURE => "PURE"
  | DRAFT => "DRAFT"
  | REVERSIBLE_WRITE => "REVERSIBLE_WRITE"
  | IRREVERSIBLE_WRITE => "IRREVERSIBLE_WRITE"

/-- `SIDE_EFFECT_RANK` -/
def rank : SideEffectClass → Nat
  | PURE => 0
  | DRAFT => 1
  | REVERSIBLE_WRITE => 2
  | IRREVERSIBLE_WRITE => 3

/-- `CONSEQUENTIAL` -/
def consequential : SideEffectClass → Bool
  | REVERSIBLE_WRITE | IRREVERSIBLE_WRITE => true
  | _ => false

end SideEffectClass

/-! ## Specialists -/

/-- What a sealed role may do. -/
structure RuntimeAuthority where
  can_execute_pure : Bool := true
  can_execute_draft : Bool := true
  can_execute_reversible_external : Bool := false
  can_execute_irreversible : Bool := false
  deriving DecidableEq

structure RuntimeRole where
  role_id : String
  title : String
  skill_name : String
  department : String
  family : String
  organizational_seniority : String
  capabilities : List String
  runtime_authority : RuntimeAuthority := {}
  deriving DecidableEq

/-- The sealed grant contract of the registry, as far as it is there. -/
structure GrantContract where
  required : List String := []
  high_consequence_requires_exact_approval_ref : Bool := true

structure RoleOSRegistry where
  roles : List RuntimeRole
  grant_contract : GrantContract := {}
  ids_nodup : (roles.map (·.role_id)).Nodup

structure SpecialistQuery where
  skill_name : String
  department : String

/-- `N3_SPECIALISTS` -/
def N3_SPECIALISTS : String → Option SpecialistQuery
  | "market_researcher" => some ⟨"market-researcher", "strategy"⟩
  | "brand_strategist" => some ⟨"brand-strategist", "brand"⟩
  | "brand_architect" => some ⟨"brand-architecture-strategist", "brand"⟩
  | "creative_director" => some ⟨"creative-director", "creative"⟩
  | "copywriter" => some ⟨"copywriter", "creative"⟩
  | "design_lead" => some ⟨"art-director", "creative"⟩
  | "product_manager" => some ⟨"product-manager", "experience-product"⟩
  | "implementation_lead" => some ⟨"engineering-manager", "technology"⟩
  | "growth_lead" => some ⟨"creative-producer", "production"⟩
  | "media_planner" => some ⟨"media-planner", "growth-media"⟩
  | "analytics_lead" => some ⟨"measurement-strategist", "ai-data"⟩
  | "brand_safety_reviewer" => some ⟨"qa-engineer", "technology"⟩
  | "release_manager" => some ⟨"project-manager", "client-delivery"⟩
  | _ => none

def STOPWORDS : List String :=
  ["and", "of", "the", "for", "to", "a", "an", "in", "with", "role", "work", "manager", "director", "senior", "junior",
    "lead", "specialist", "associate"]

def ALIASES : String → String
  | "copywriting" => "copywriter"
  | "copy" => "copywriter"
  | "branding" => "brand"
  | "engineering" => "engineer"
  | "development" => "developer"
  | "researching" => "research"
  | "designing" => "design"
  | "launch" => "release"
  | "publishing" => "release"
  | "publish" => "release"
  | token => token

def SENIORITY_PREFERENCE : String → Nat
  | "IC" => 6
  | "SENIOR_IC" => 5
  | "MANAGEMENT" => 4
  | "LEADERSHIP" => 3
  | "EXECUTIVE" => 2
  | "JUNIOR" => 1
  | _ => 0

/-- `[a-z0-9]` -/
def isWordChar (c : Char) : Bool := ('a' ≤ c && c ≤ 'z') || c.isDigit

/-- `re.findall(r"[a-z0-9]+", value.lower())` -/
def words (value : String) : List String := (runs isWordChar (value.toList.flatMap lowerLetters)).map String.ofList

def _tokens (values : List String) : List String :=
  values.flatMap fun value =>
    let slug := String.ofList (value.toList.flatMap fun c => if c = '&' then " and ".toList else [c])
    ((words slug).filter fun token => token ∉ STOPWORDS ∧ 1 < token.length).map ALIASES

def _slug (value : String) : String := "-".intercalate (words value)

/-- The tokens of the query a role has, without repetition. -/
def matchedTokens (query : List String) (role : RuntimeRole) : List String :=
  query.dedup.filter fun token =>
    token ∈ role.capabilities ∨ token ∈ _tokens [role.title, role.skill_name, role.department, role.family]

def score (required : List String) (department_hint : String) (role : RuntimeRole) : Nat :=
  let query := _tokens required
  let slugs := required.map _slug
  (matchedTokens query role).length * 100 +
    (if matchedTokens query role = query.dedup then 250 else 0) +
    (if role.skill_name ∈ slugs then 1000 else 0) +
    (if _slug role.title ∈ slugs then 900 else 0) +
    (if department_hint ≠ "" ∧ role.department = department_hint then 180 else 0) +
    SENIORITY_PREFERENCE role.organizational_seniority

/-- The better match comes first: by score, by how many tokens match, by identifier. -/
def matchLE (required : List String) (department_hint : String) (a b : RuntimeRole) : Prop :=
  let rank (role : RuntimeRole) := (score required department_hint role, (matchedTokens (_tokens required) role).length)
  (rank b).1 < (rank a).1 ∨ (rank b).1 = (rank a).1 ∧
    ((rank b).2 < (rank a).2 ∨ (rank b).2 = (rank a).2 ∧ a.role_id ≤ b.role_id)

instance (required : List String) (department_hint : String) : DecidableRel (matchLE required department_hint) :=
  fun _ _ => inferInstanceAs (Decidable (_ ∨ _))

/-- `RoleResolver.resolve`, or that it raises. -/
def resolve (registry : RoleOSRegistry) (required : List String) (department_hint : String) (limit : Nat) :
    Option (List RuntimeRole) :=
  if _tokens required = [] then none
  else
    match (registry.roles.filter fun role => matchedTokens (_tokens required) role ≠ []).insertionSort
        (matchLE required department_hint) with
    | [] => none
    | found => some (found.take (max 1 limit))

/-! ## Grants -/

/-- A delegated consequential authority. -/
structure AuthorityGrant where
  grant_id : String
  actor_role_id : String
  operation : String
  target : String
  issued_by : String
  expires_at : String
  deriving DecidableEq

/-- `getattr(grant, name, None)` -/
def AuthorityGrant.field (grant : AuthorityGrant) : String → Option String
  | "grant_id" => some grant.grant_id
  | "actor_role_id" => some grant.actor_role_id
  | "operation" => some grant.operation
  | "target" => some grant.target
  | "issued_by" => some grant.issued_by
  | "expires_at" => some grant.expires_at
  | _ => none

/-- The required fields a grant does not have. -/
def missingFields (required_fields : List String) (grant : AuthorityGrant) : List String :=
  required_fields.filter fun name => (grant.field name).getD "" = ""

def grant_contract_failures (grant : AuthorityGrant) (required_fields : List String) (as_of : String) : List String :=
  ((missingFields required_fields grant).map fun name => s!"GRANT_FIELD_MISSING:{name}") ++
    (if grant.expires_at ≠ "" ∧ grant.expires_at ≤ as_of then ["GRANT_EXPIRED"] else []) ++
    (if grant.issued_by = grant.actor_role_id then ["GRANT_SELF_ISSUED"] else [])

/-- `_constraint_instant`: the moment a text names, a date alone being midnight UTC; without an offset it names none. -/
def _constraint_instant (value : String) : Option Int :=
  if value.length = 10 then (parseDate value.toList).map (· * DAY)
  else do
    let text := if value.toList.getLast? = some 'Z' then value.toList.dropLast ++ "+00:00".toList else value.toList
    let (time, offset) ← parseDatetime text
    return time - (← offset)

/-- The grant expires after the moment. -/
def Outlives (g : AuthorityGrant) (as_of : String) : Prop :=
  ∃ expiry ∈ _constraint_instant g.expires_at, ∃ now ∈ _constraint_instant as_of, now < expiry

instance (g : AuthorityGrant) (as_of : String) : Decidable (Outlives g as_of) :=
  inferInstanceAs (Decidable (∃ expiry ∈ _, ∃ now ∈ _, _))

/-! ## Bindings -/

inductive BindingStatus where
  | RESOLVED
  | CAPABILITY_GAP
  | AUTHORITY_UNRESOLVED
  deriving DecidableEq, Repr

def BindingStatus.value : BindingStatus → String
  | RESOLVED => "RESOLVED"
  | CAPABILITY_GAP => "CAPABILITY_GAP"
  | AUTHORITY_UNRESOLVED => "AUTHORITY_UNRESOLVED"

structure SpecialistBinding where
  specialist_role_id : Option String
  required_capabilities : List String
  source_skill_hashes : List String
  runtime_authority_role_id : String
  permitted_artifacts : List String
  permitted_tools : List String
  side_effect_ceiling : SideEffectClass
  approval_requirements : List String
  segregation_constraints : List String
  status : BindingStatus
  blockers : List String
  binding_hash : String

structure AuthorityBridge where
  registry : RoleOSRegistry
  source_hashes : List (String × String) := []

/-- The arguments of `bind`. -/
structure BindArgs where
  runtime_role_id : String
  side_effect_class : SideEffectClass
  operation : String
  target : String
  grants : List AuthorityGrant := []
  approval_refs : List String := []
  as_of : String
  creator_role_id : Option String := none

def roleos_ceiling (runtime_authority : RuntimeAuthority) : SideEffectClass :=
  if runtime_authority.can_execute_irreversible then .IRREVERSIBLE_WRITE
  else if runtime_authority.can_execute_reversible_external then .REVERSIBLE_WRITE
  else if runtime_authority.can_execute_draft then .DRAFT
  else .PURE

def _min_class (a b : SideEffectClass) : SideEffectClass := if a.rank ≤ b.rank then a else b

namespace AuthorityBridge

/-- Exact skill-name selection: a partial overlap of tokens is not a specialist. -/
def resolve_specialist (bridge : AuthorityBridge) (query : SpecialistQuery) : Option RuntimeRole :=
  ((resolve bridge.registry [query.skill_name] query.department 3).getD []).find? (·.skill_name == query.skill_name)

/-- The specialist of a runtime role. -/
def specialist (bridge : AuthorityBridge) (runtime_role_id : String) : Option RuntimeRole :=
  (N3_SPECIALISTS runtime_role_id).bind bridge.resolve_specialist

/-- The grants for the operation on the target, to the role or its specialist. -/
def matching (bridge : AuthorityBridge) (args : BindArgs) : List AuthorityGrant :=
  args.grants.filter fun g =>
    (g.actor_role_id = args.runtime_role_id ∨
      some g.actor_role_id = (bridge.specialist args.runtime_role_id).map (·.role_id)) ∧
    g.operation = args.operation ∧ g.target = args.target

/-- The failures of a grant under the contract of the registry. -/
def failures (bridge : AuthorityBridge) (args : BindArgs) (g : AuthorityGrant) : List String :=
  grant_contract_failures g bridge.registry.grant_contract.required args.as_of

def valid (bridge : AuthorityBridge) (args : BindArgs) : List AuthorityGrant :=
  (bridge.matching args).filter fun g => bridge.failures args g = []

def ceiling (bridge : AuthorityBridge) (runtime_role_id : String) : SideEffectClass :=
  match bridge.specialist runtime_role_id, role runtime_role_id with
  | some specialist, some contract =>
    _min_class (roleos_ceiling specialist.runtime_authority)
      (if contract.external_side_effect then .IRREVERSIBLE_WRITE else .DRAFT)
  | _, _ => .PURE

/-- `(…)` around the reasons, if there are any. -/
def reasonsText (reasons : List String) : String :=
  if reasons = [] then "" else " (" ++ ", ".intercalate reasons ++ ")"

/-- What blocks a consequential effect. -/
def consequentialBlockers (bridge : AuthorityBridge) (args : BindArgs) : List String :=
  (if (role args.runtime_role_id).any (·.external_side_effect) then []
    else [s!"AUTHORITY_UNRESOLVED:N3 {args.runtime_role_id} declares no external side effect"]) ++
  (if bridge.valid args = [] then
      ["AUTHORITY_UNRESOLVED:no valid grant" ++
        reasonsText (sortedSet ((bridge.matching args).flatMap (bridge.failures args)))]
    else []) ++
  (if bridge.registry.grant_contract.high_consequence_requires_exact_approval_ref ∧ args.approval_refs = [] then
      ["AUTHORITY_UNRESOLVED:missing exact approval ref"]
    else [])

def blockers (bridge : AuthorityBridge) (args : BindArgs) : List String :=
  (if (role args.runtime_role_id).isNone then
      [s!"AUTHORITY_UNRESOLVED:no N3 contract {args.runtime_role_id}"] else []) ++
  (if (bridge.specialist args.runtime_role_id).isNone then [s!"CAPABILITY_GAP:{args.runtime_role_id}"] else []) ++
  (if args.side_effect_class.consequential then bridge.consequentialBlockers args
    else if (bridge.ceiling args.runtime_role_id).rank < args.side_effect_class.rank then
      ["AUTHORITY_UNRESOLVED:" ++ args.side_effect_class.value ++ " exceeds ceiling " ++
        (bridge.ceiling args.runtime_role_id).value]
    else []) ++
  (if ∃ creator ∈ named args.creator_role_id, creator = args.runtime_role_id ∧ args.side_effect_class.consequential then
      ["SEGREGATION_CONFLICT:creator cannot release own work"]
    else [])

/-- The status the blockers make. -/
def statusOf (blockers : List String) : BindingStatus :=
  if ∃ b ∈ blockers, "CAPABILITY_GAP".toList <+: b.toList then .CAPABILITY_GAP
  else if blockers ≠ [] then .AUTHORITY_UNRESOLVED
  else .RESOLVED

section

variable [Fingerprint]

def bind (bridge : AuthorityBridge) (args : BindArgs) : SpecialistBinding :=
  let contract := role args.runtime_role_id
  let specialist_id := (bridge.specialist args.runtime_role_id).map (·.role_id)
  let ceiling := bridge.ceiling args.runtime_role_id
  let binding : SpecialistBinding :=
    { specialist_role_id := specialist_id
      required_capabilities := sorted ((contract.elim [] (·.capabilities)).map (·.value))
      source_skill_hashes := sorted ((bridge.source_hashes.filter fun h => some h.1 = specialist_id).map Prod.snd)
      runtime_authority_role_id := args.runtime_role_id
      permitted_artifacts := sorted ((contract.elim [] (·.produces)).map (·.value))
      permitted_tools := if ceiling.consequential then [] else ["langgraph.workflow"]
      side_effect_ceiling := ceiling
      approval_requirements :=
        (if contract.any (·.requires_human_approval) then ["HUMAN_APPROVAL_BEFORE_CLIENT_VISIBLE"] else []) ++
          (if args.side_effect_class.consequential then ["EXACT_APPROVAL_REF"] else [])
      segregation_constraints := ["CREATOR_NOT_SOLE_REVIEWER"]
      status := statusOf (bridge.blockers args)
      blockers := sortedSet (bridge.blockers args)
      binding_hash := "" }
  { binding with binding_hash := semantic_hash (.dict
      [("specialist_role_id", optText binding.specialist_role_id),
        ("required_capabilities", texts binding.required_capabilities),
        ("source_skill_hashes", texts binding.source_skill_hashes),
        ("runtime_authority_role_id", .str binding.runtime_authority_role_id),
        ("permitted_artifacts", texts binding.permitted_artifacts), ("permitted_tools", texts binding.permitted_tools),
        ("side_effect_ceiling", .str binding.side_effect_ceiling.value),
        ("approval_requirements", texts binding.approval_requirements),
        ("segregation_constraints", texts binding.segregation_constraints), ("status", .str binding.status.value),
        ("blockers", texts binding.blockers)]) }

/-! ## Live authority -/

omit [Fingerprint] in
theorem statusOf_eq_resolved_iff {blockers : List String} : statusOf blockers = .RESOLVED ↔ blockers = [] := by
  unfold statusOf
  split_ifs with hgap hne
  · obtain ⟨b, hb, -⟩ := hgap
    simp only [false_iff]
    exact List.ne_nil_of_mem hb
  · simpa using hne
  · simpa using hne

/-- Nothing but the grants can block the consequential effect. -/
structure Unblocked (bridge : AuthorityBridge) (args : BindArgs) : Prop where
  external : (role args.runtime_role_id).any (·.external_side_effect) = true
  specialist : (bridge.specialist args.runtime_role_id).isSome = true
  approval : bridge.registry.grant_contract.high_consequence_requires_exact_approval_ref = true → args.approval_refs ≠ []
  creator : named args.creator_role_id ≠ some args.runtime_role_id

/-- A matching grant has all required fields, is not issued to its issuer, and the text of its expiry sorts after the
    text of the moment, or is empty. -/
def GrantedByText (bridge : AuthorityBridge) (args : BindArgs) : Prop :=
  ∃ g ∈ bridge.matching args, missingFields bridge.registry.grant_contract.required g = [] ∧
    g.issued_by ≠ g.actor_role_id ∧ (g.expires_at = "" ∨ args.as_of < g.expires_at)

/-- A matching grant is not issued to its issuer, and expires after the moment. -/
def GrantedByInstant (bridge : AuthorityBridge) (args : BindArgs) : Prop :=
  ∃ g ∈ bridge.matching args, g.issued_by ≠ g.actor_role_id ∧ Outlives g args.as_of

/-- **Consequential bindings need live authority.** -/
structure LiveAuthority (bridge : AuthorityBridge) (args : BindArgs) : Prop where
  external : (role args.runtime_role_id).any (·.external_side_effect) = true
  specialist : (bridge.specialist args.runtime_role_id).isSome = true
  approval : args.approval_refs ≠ []
  grant : GrantedByInstant bridge args

omit [Fingerprint] in
theorem failures_eq_nil_iff {g : AuthorityGrant} {required_fields : List String} {as_of : String} :
    grant_contract_failures g required_fields as_of = [] ↔
      missingFields required_fields g = [] ∧ g.issued_by ≠ g.actor_role_id ∧
        (g.expires_at = "" ∨ as_of < g.expires_at) := by
  unfold grant_contract_failures
  rw [List.append_eq_nil_iff, List.append_eq_nil_iff, List.map_eq_nil_iff]
  have htext : (if g.expires_at ≠ "" ∧ g.expires_at ≤ as_of then ["GRANT_EXPIRED"] else []) = [] ↔
      g.expires_at = "" ∨ as_of < g.expires_at := by
    split_ifs with h
    · simp only [false_iff, not_or]
      exact ⟨h.1, String.not_lt.mpr h.2⟩
    · simp only [true_iff]
      by_cases hempty : g.expires_at = ""
      · exact .inl hempty
      · exact .inr (String.not_le.mp fun hle => h ⟨hempty, hle⟩)
  have hself : (if g.issued_by = g.actor_role_id then ["GRANT_SELF_ISSUED"] else []) = [] ↔
      g.issued_by ≠ g.actor_role_id := by
    split_ifs with h <;> simp [h]
  rw [htext, hself]
  tauto

variable {bridge : AuthorityBridge} {args : BindArgs}

section
omit [Fingerprint]

theorem valid_eq_nil_iff : bridge.valid args = [] ↔ ¬GrantedByText bridge args := by
  unfold valid GrantedByText
  rw [List.filter_eq_nil_iff]
  simp only [decide_eq_true_eq, failures, failures_eq_nil_iff, not_exists, not_and]

theorem consequentialBlockers_eq_nil_iff : bridge.consequentialBlockers args = [] ↔
      (role args.runtime_role_id).any (·.external_side_effect) = true ∧ GrantedByText bridge args ∧
        (bridge.registry.grant_contract.high_consequence_requires_exact_approval_ref = true →
          args.approval_refs ≠ []) := by
  unfold consequentialBlockers
  rw [List.append_eq_nil_iff, List.append_eq_nil_iff, and_assoc]
  refine and_congr ?_ (and_congr ?_ ?_)
  · split_ifs with h <;> simp [h]
  · rw [← not_iff_not, ← valid_eq_nil_iff]
    split_ifs with h <;> simp [h]
  · split_ifs with h
    · simp [h.1, h.2]
    · simpa using h

theorem blockers_eq_nil_iff (h : args.side_effect_class.consequential = true) :
    bridge.blockers args = [] ↔ Unblocked bridge args ∧ GrantedByText bridge args := by
  unfold blockers
  simp only [h, if_true, List.append_eq_nil_iff, consequentialBlockers_eq_nil_iff]
  constructor
  · rintro ⟨⟨⟨-, hspecialist⟩, hexternal, hgrant, happroval⟩, hcreated⟩
    refine ⟨⟨hexternal, ?_, happroval, ?_⟩, hgrant⟩
    · cases hs : bridge.specialist args.runtime_role_id with
      | none => simp [hs] at hspecialist
      | some r => rfl
    · intro hsame
      simp [hsame] at hcreated
  · rintro ⟨⟨hexternal, hspecialist, happroval, hcreated⟩, hgrant⟩
    refine ⟨⟨⟨?_, ?_⟩, hexternal, hgrant, happroval⟩, by simp [hcreated]⟩
    · cases hr : role args.runtime_role_id with
      | none => simp [hr] at hexternal
      | some contract => rfl
    · cases hs : bridge.specialist args.runtime_role_id with
      | none => simp [hs] at hspecialist
      | some r => rfl

end

/-- A consequential binding that resolves has live authority, exactly when: where nothing but the grants can block it
    and some grant is good by its text, an approval is named and some grant is good by its instant. -/
theorem live_authority_iff (bridge : AuthorityBridge) (args : BindArgs)
    (h : args.side_effect_class.consequential = true) :
    ((bridge.bind args).status = .RESOLVED → LiveAuthority bridge args) ↔
      (Unblocked bridge args → GrantedByText bridge args → args.approval_refs ≠ [] ∧ GrantedByInstant bridge args) := by
  have hstatus : (bridge.bind args).status = .RESOLVED ↔ Unblocked bridge args ∧ GrantedByText bridge args := by
    show statusOf (bridge.blockers args) = .RESOLVED ↔ _
    rw [statusOf_eq_resolved_iff, blockers_eq_nil_iff h]
  rw [hstatus]
  constructor
  · intro hlive hunblocked htext
    have hauthority := hlive ⟨hunblocked, htext⟩
    exact ⟨hauthority.approval, hauthority.grant⟩
  · rintro hgood ⟨hunblocked, htext⟩
    obtain ⟨happroval, hgrant⟩ := hgood hunblocked htext
    exact ⟨hunblocked.external, hunblocked.specialist, happroval, hgrant⟩

end

/-! ## A grant with another offset -/

/-- The project manager of the sealed registry. -/
def projectManager : RuntimeRole where
  role_id := "client-delivery.project-delivery.project-manager"
  title := "Project Manager"
  skill_name := "project-manager"
  department := "client-delivery"
  family := "project-delivery"
  organizational_seniority := "MANAGEMENT"
  capabilities := ["client", "delivery", "project"]

/-- The sealed grant contract, and the one role the example needs. -/
def deliveryBridge : AuthorityBridge where
  registry :=
    { roles := [projectManager]
      grant_contract := { required := ["grant_id", "actor_role_id", "operation", "target", "issued_by", "expires_at"] }
      ids_nodup := by simp }

/-- A release that is granted until a moment. -/
def releaseUntil (expires_at : String) : BindArgs where
  runtime_role_id := "release_manager"
  side_effect_class := .IRREVERSIBLE_WRITE
  operation := "publish"
  target := "site"
  grants := [{
    grant_id := "g1", actor_role_id := "release_manager", operation := "publish", target := "site"
    issued_by := "client", expires_at := expires_at }]
  approval_refs := ["approval:1"]
  as_of := "2026-01-01T06:00:00+00:00"

theorem live_authority_until_noon :
    LiveAuthority deliveryBridge (releaseUntil "2026-01-01T12:00:00+00:00") := by
  refine (@live_authority_iff plainFingerprint deliveryBridge _ rfl).mpr ?_ ?_
  · intro _ _
    unfold GrantedByInstant
    decide +kernel
  · show statusOf (deliveryBridge.blockers (releaseUntil "2026-01-01T12:00:00+00:00")) = .RESOLVED
    decide +kernel

/-- Ten o'clock at an offset of five hours has passed at six, and its text sorts after. -/
theorem expired_grant_resolves : ¬((@bind plainFingerprint deliveryBridge
    (releaseUntil "2026-01-01T10:00:00+05:00")).status = .RESOLVED →
      LiveAuthority deliveryBridge (releaseUntil "2026-01-01T10:00:00+05:00")) := by
  intro h
  have hstatus : statusOf (deliveryBridge.blockers (releaseUntil "2026-01-01T10:00:00+05:00")) = .RESOLVED := by
    decide +kernel
  exact absurd (h hstatus).grant (by unfold GrantedByInstant; decide +kernel)

end AuthorityBridge

end Compiled
