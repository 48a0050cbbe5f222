import MissionControl.Projects.Artifacts

/-! # The lifecycle of a content item

The states of an item and the edges between them, what a move checks, the variant an item is derived as, and the gate
a due item passes. All of it is pure. -/

namespace Content

open Canonical (Value)

/-! ## States -/

inductive ContentState where
  | IDEA | PLANNED | IN_PRODUCTION | REVIEW | APPROVED | READY | SCHEDULED | DUE | PUBLISHING | PUBLISHED | VERIFIED
  | MEASURED | REFRESH_DUE | ARCHIVED
  deriving DecidableEq

namespace ContentState

def value : ContentState → String
  | IDEA => "IDEA"
  | PLANNED => "PLANNED"
  | IN_PRODUCTION => "IN_PRODUCTION"
  | REVIEW => "REVIEW"
  | APPROVED => "APPROVED"
  | READY => "READY"
  | SCHEDULED => "SCHEDULED"
  | DUE => "DUE"
  | PUBLISHING => "PUBLISHING"
  | PUBLISHED => "PUBLISHED"
  | VERIFIED => "VERIFIED"
  | MEASURED => "MEASURED"
  | REFRESH_DUE => "REFRESH_DUE"
  | ARCHIVED => "ARCHIVED"

end ContentState

open ContentState in
def CONTENT_TRANSITIONS : ContentState → List ContentState
  | IDEA => [PLANNED, ARCHIVED]
  | PLANNED => [IN_PRODUCTION, ARCHIVED]
  | IN_PRODUCTION => [REVIEW, ARCHIVED]
  | REVIEW => [APPROVED, IN_PRODUCTION, ARCHIVED]
  | APPROVED => [READY, IN_PRODUCTION, ARCHIVED]
  | READY => [SCHEDULED, IN_PRODUCTION, ARCHIVED]
  | SCHEDULED => [DUE, READY, IN_PRODUCTION]
  | DUE => [PUBLISHING, SCHEDULED, IN_PRODUCTION]
  | PUBLISHING => [PUBLISHED, SCHEDULED]
  | PUBLISHED => [VERIFIED]
  | VERIFIED => [MEASURED, REFRESH_DUE, ARCHIVED]
  | MEASURED => [REFRESH_DUE, ARCHIVED]
  | REFRESH_DUE => [IN_PRODUCTION, ARCHIVED]
  | ARCHIVED => []

open ContentState in
/-- States that may only be entered while an approval bound to the item's exact current version exists. -/
def APPROVAL_BOUND_CONTENT_STATES : List ContentState := [APPROVED, READY, SCHEDULED, DUE, PUBLISHING]

open ContentState in
def CONTENT_REVIEW_STATES : List ContentState := [REVIEW, APPROVED, READY, SCHEDULED, DUE]

def can_transition (current target : ContentState) : Bool := target ∈ CONTENT_TRANSITIONS current

/-- The error's text, or nothing. -/
def assert_content_transition (current target : ContentState) (version : ℕ) (approved_version : Option ℕ)
    (release_blockers : List String) : Except String Unit :=
  if can_transition current target = false then
    .error s!"cannot move content from {current.value} to {target.value}"
  else if target = .APPROVED then
    .ok ()
  else if target ∈ APPROVAL_BOUND_CONTENT_STATES ∧ approved_version ≠ some version then
    let approval := match approved_version with
      | none => "missing"
      | some approved_version => s!"for v{approved_version}"
    .error s!"{target.value} requires an approval bound to v{version}; approval is {approval}"
  else if (target = .READY ∨ target = .SCHEDULED) ∧ release_blockers ≠ [] then
    .error ("release blocked: " ++ ", ".intercalate release_blockers)
  else
    .ok ()

/-- **What a move that is not refused has passed.** -/
theorem of_assert_content_transition {current target : ContentState} {version : ℕ} {approved_version : Option ℕ}
    {release_blockers : List String}
    (h : assert_content_transition current target version approved_version release_blockers = .ok ()) :
    target ∈ CONTENT_TRANSITIONS current ∧
      (target ∈ APPROVAL_BOUND_CONTENT_STATES → target = .APPROVED ∨ approved_version = some version) := by
  unfold assert_content_transition at h
  split at h
  · cases h
  rename_i hedge
  refine ⟨by simpa [can_transition] using hedge, fun hbound => ?_⟩
  split at h
  · rename_i happroved
    exact .inl happroved
  split at h
  · cases h
  · rename_i hversion
    exact .inr (not_not.mp fun hne => hversion ⟨hbound, hne⟩)

/-! ## Kinds and variants -/

inductive ContentKind where
  | ARTICLE | EMAIL | NEWSLETTER | CAROUSEL | SOCIAL_POST | THREAD | VIDEO_SCRIPT | SHORT_VIDEO | REEL | STORY
  | PODCAST_EPISODE | FAQ | LANDING_SECTION | AI_SEARCH_ANSWER | PAID_CREATIVE
  deriving DecidableEq

namespace ContentKind

def value : ContentKind → String
  | ARTICLE => "article"
  | EMAIL => "email"
  | NEWSLETTER => "newsletter"
  | CAROUSEL => "carousel"
  | SOCIAL_POST => "social_post"
  | THREAD => "thread"
  | VIDEO_SCRIPT => "video_script"
  | SHORT_VIDEO => "short_video"
  | REEL => "reel"
  | STORY => "story"
  | PODCAST_EPISODE => "podcast_episode"
  | FAQ => "faq"
  | LANDING_SECTION => "landing_section"
  | AI_SEARCH_ANSWER => "ai_search_answer"
  | PAID_CREATIVE => "paid_creative"

end ContentKind

open ContentKind in
/-- The artifact type of a kind, and its owner. -/
def CONTENT_KIND_ARTIFACT : ContentKind → String × String
  | ARTICLE | EMAIL | NEWSLETTER | SOCIAL_POST | THREAD | VIDEO_SCRIPT | FAQ | LANDING_SECTION | AI_SEARCH_ANSWER =>
    ("copy_variant", "copy")
  | CAROUSEL | STORY | PAID_CREATIVE => ("creative_concept", "creative")
  | SHORT_VIDEO | REEL | PODCAST_EPISODE => ("media_asset", "creative")

inductive Verification where
  | VERIFIED | UNVERIFIED | CONTRADICTED
  deriving DecidableEq

structure Claim where
  claim_id : String
  evidence_refs : List String
  verification : Verification

structure ContentAtom where
  atom_id : String
  tenant_id : String
  project_id : String
  campaign_id : Option String
  title : String
  claims : List Claim
  source_refs : List String
  version : ℕ

/-- A section of a format: a text, or one for each claim that is used. -/
inductive Section where
  | fixed (name : String)
  | claim

structure FormatRule where
  sections : List Section
  claims_per_unit : Option ℕ
  verified_only : Bool := false
  constraints : List String := []

open ContentKind Section in
def FORMAT_RULES : ContentKind → FormatRule
  | ARTICLE => { sections := [fixed "headline", fixed "lede", claim, fixed "sources"], claims_per_unit := none }
  | EMAIL =>
    { sections := [fixed "subject", fixed "preheader", claim, fixed "cta"], claims_per_unit := some 3
      constraints := ["subject<=60 chars", "preheader<=100 chars"] }
  | NEWSLETTER =>
    { sections := [fixed "subject", fixed "intro", claim, fixed "sign_off"], claims_per_unit := none
      constraints := ["subject<=60 chars"] }
  | CAROUSEL =>
    { sections := [fixed "cover_slide", claim, fixed "cta_slide"], claims_per_unit := some 8
      constraints := ["<=10 slides", "one claim per slide"] }
  | SOCIAL_POST => { sections := [fixed "hook", claim, fixed "cta"], claims_per_unit := some 1 }
  | THREAD =>
    { sections := [fixed "hook_post", claim, fixed "closing_post"], claims_per_unit := some 6
      constraints := ["one claim per post"] }
  | VIDEO_SCRIPT =>
    { sections := [fixed "cold_open", claim, fixed "outro"], claims_per_unit := some 5
      constraints := ["spoken-word pacing"] }
  | SHORT_VIDEO =>
    { sections := [fixed "hook_0_3s", claim, fixed "end_card"], claims_per_unit := some 2
      constraints := ["<=60s", "captions burned in"] }
  | REEL =>
    { sections := [fixed "hook_0_3s", claim, fixed "end_card"], claims_per_unit := some 2
      constraints := ["9:16", "<=90s"] }
  | STORY =>
    { sections := [fixed "frame", claim, fixed "sticker_cta"], claims_per_unit := some 3, constraints := ["9:16"] }
  | PODCAST_EPISODE => { sections := [fixed "intro", claim, fixed "outro"], claims_per_unit := none }
  | FAQ =>
    { sections := [claim], claims_per_unit := none, constraints := ["question + direct answer per claim"] }
  | LANDING_SECTION => { sections := [fixed "heading", claim, fixed "cta"], claims_per_unit := some 3 }
  | AI_SEARCH_ANSWER =>
    { sections := [fixed "direct_answer", claim, fixed "citations"], claims_per_unit := none
      verified_only := true, constraints := ["cite every claim"] }
  | PAID_CREATIVE =>
    { sections := [fixed "headline", claim, fixed "cta"], claims_per_unit := some 1
      verified_only := true, constraints := ["platform ad policy review"] }

def CHANNEL_LIMITS : List (String × String) :=
  [("x", "<=280 chars per post"), ("linkedin", "<=3000 chars"), ("instagram", "caption <=2200 chars"),
    ("tiktok", "caption <=2200 chars"), ("youtube", "title <=100 chars"), ("email", "subject <=60 chars"),
    ("web", "semantic HTML headings")]

structure ContentVariantSpec where
  kind : ContentKind
  channel : String
  title : String
  sections : List String
  claim_refs : List String
  constraints : List String
  atom_id : String
  atom_version : ℕ
  release_blockers : List String

def _eligible_claims (atom : ContentAtom) (rule : FormatRule) : List Claim :=
  let claims := atom.claims.filter (·.verification ≠ .CONTRADICTED)
  let claims := if rule.verified_only then claims.filter (·.verification = .VERIFIED) else claims
  match rule.claims_per_unit with
  | none => claims
  | some n => claims.take n

def derive_variant (atom : ContentAtom) (kind : ContentKind) (channel : String) : ContentVariantSpec :=
  let rule := FORMAT_RULES kind
  let used := _eligible_claims atom rule
  { kind
    channel
    title := s!"{atom.title} — {kind.value} for {channel}"
    sections := rule.sections.flatMap fun
      | .claim => used.map fun claim => s!"claim:{claim.claim_id}"
      | .fixed name => [name]
    claim_refs := used.map Claim.claim_id
    constraints := rule.constraints ++ (CHANNEL_LIMITS.lookup channel).toList
    atom_id := atom.atom_id
    atom_version := atom.version
    release_blockers :=
      (if used = [] then ["NO_ELIGIBLE_CLAIMS"] else []) ++
        ((used.filter (·.verification ≠ .VERIFIED)).map fun claim => s!"UNVERIFIED_CLAIM:{claim.claim_id}") ++
        (used.filter (·.evidence_refs = [])).map fun claim => s!"CLAIM_WITHOUT_EVIDENCE:{claim.claim_id}" }

/-- `[str, …]` as JSON. -/
def texts (items : List String) : Value := .list (items.map .str)

/-- `variant.model_dump(mode="json")` -/
def ContentVariantSpec.model_dump (v : ContentVariantSpec) : Value :=
  .dict [("kind", .str v.kind.value), ("channel", .str v.channel), ("title", .str v.title),
    ("sections", texts v.sections), ("claim_refs", texts v.claim_refs), ("constraints", texts v.constraints),
    ("atom_id", .str v.atom_id), ("atom_version", .int v.atom_version),
    ("release_blockers", texts v.release_blockers)]

/-! ## Time -/

/-- A `datetime`: a moment in microseconds, and the offset it is written with, unless it is a naive one. -/
structure Datetime where
  moment : Int
  offset : Option Int
  deriving DecidableEq

/-- `parse_ts` of a text, or the text of its `ValueError`, and `isoformat`. -/
class IsoTime where
  parse_ts : String → Except String Datetime
  isoformat : Datetime → String

/-! ## The gate of a due item -/

/-- What `rights_status` says. -/
structure Rights where
  ok : Bool
  reason : Option String

def requires_rights (kind : ContentKind) : Bool :=
  (CONTENT_KIND_ARTIFACT kind).1 = "media_asset" ∨ (CONTENT_KIND_ARTIFACT kind).1 = "creative_concept"

structure GateInput where
  version : ℕ
  approved_version : Option ℕ
  approval_ref : Option String
  release_blockers : List String
  evidence_fresh_until : Option String
  dependency_statuses : List (String × Agency.ArtifactStatus)
  rights_required : Bool
  rights : Option Rights

/-- What a rights record says against a release. -/
def rightsReasons (rights_required : Bool) (rights : Option Rights) : List String :=
  if rights_required = true ∨ rights.isSome then
    let rights := rights.getD ⟨false, some "RIGHTS_MISSING"⟩
    if rights.ok then [] else [((Projects.given rights.reason).getD "RIGHTS_MISSING")]
  else
    []

/-- The dependencies that stand in the way. -/
def dependencyReasons (statuses : List (String × Agency.ArtifactStatus)) : List String :=
  (statuses.insertionSort (·.1 ≤ ·.1)).filterMap fun x =>
    match x.2 with
    | .invalidated => some s!"DEPENDENCY_INVALIDATED:{x.1}"
    | .review_required => some s!"DEPENDENCY_REVIEW_REQUIRED:{x.1}"
    | .archived => some s!"DEPENDENCY_ARCHIVED:{x.1}"
    | _ => none

variable [IsoTime]

/-- Is the evidence stale? -/
def evidenceReasons (evidence_fresh_until : Option String) (now : Datetime) : Except String (List String) :=
  match Projects.given evidence_fresh_until with
  | none => .ok []
  | some text => (IsoTime.parse_ts text).map fun until_ => if until_.moment < now.moment then ["EVIDENCE_STALE"] else []

/-- Every reason the item may not be published now. -/
def due_gate (item : GateInput) (now : Datetime) : Except String (List String) :=
  (evidenceReasons item.evidence_fresh_until now).map fun evidence =>
    dependencyReasons item.dependency_statuses ++ evidence ++
      item.release_blockers.map (fun blocker => s!"RELEASE_BLOCKER:{blocker}") ++
      rightsReasons item.rights_required item.rights ++
      if Projects.given item.approval_ref = none ∨ item.approved_version ≠ some item.version then
        ["APPROVAL_NOT_BOUND_TO_CURRENT_VERSION"]
      else
        []

end Content
