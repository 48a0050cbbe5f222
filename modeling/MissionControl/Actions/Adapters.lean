import MissionControl.Actions.Budget

/-! # The catalogue and the gateway's own adapters

What the seven sandbox adapters say about an action: its arguments, cost, target
and expected state. What they do to the provider is in `Actions.Gateway`. -/

namespace Actions

open Canonical (Value Sha256 canonical_hash)

def GATEWAY_OWNER : String := "actions.gateway"

/-- The default facts of a catalogue entry. -/
structure RiskProfile where
  operation : OperationKind
  external : Bool := false
  audience : Audience := .NONE
  reversibility : Reversibility := .REVERSIBLE
  data_class : DataClass := .INTERNAL
  notifies : Bool := false
  scopes : List String := []

structure ActionDescriptor where
  id : String
  version : String
  title : String
  provider : String
  risk : RiskProfile
  timeout_seconds : Nat
  environments : List Environment
  dispatch_owner : String
  /-- The hash of the whole entry. -/
  descriptor_hash : String

def ActionDescriptor.ref (d : ActionDescriptor) : String := d.id ++ "@" ++ d.version

/-- The gateway's own adapters. -/
inductive Adapter where
  | SandboxResearchFetch | SandboxCmsDraft | SandboxCmsPublish | SandboxEmailSend | SandboxAdsSpend
  | SandboxStorageDelete | SandboxGovernanceGrant
  deriving DecidableEq

/-- What the gateway takes from outside: the text scanners of its input safety,
    parts of the standard library, the dump pydantic makes of a catalogue entry,
    the entries other dispatchers own, and the configured approver roles. -/
class Deployment where
  lower : String → String
  hostname : String → String
  check_public_url : String → Option String
  has_secrets : Value → Bool
  injection_flags : Value → List String
  model_dump : Adapter → Value
  others : List ActionDescriptor
  foreign : ∀ d ∈ others, d.dispatch_owner ≠ GATEWAY_OWNER
  approver_roles : List String

variable [Sha256] [Deployment]

/-! ## The catalogue -/

namespace Adapter

def all : List Adapter :=
  [SandboxResearchFetch, SandboxCmsDraft, SandboxCmsPublish, SandboxEmailSend, SandboxAdsSpend,
   SandboxStorageDelete, SandboxGovernanceGrant]

def id : Adapter → String
  | SandboxResearchFetch => "sandbox.research.fetch_public"
  | SandboxCmsDraft => "sandbox.cms.create_draft"
  | SandboxCmsPublish => "sandbox.cms.publish_page"
  | SandboxEmailSend => "sandbox.email.send"
  | SandboxAdsSpend => "sandbox.ads.commit_spend"
  | SandboxStorageDelete => "sandbox.storage.delete_assets"
  | SandboxGovernanceGrant => "sandbox.governance.grant_role"

def title : Adapter → String
  | SandboxResearchFetch => "Read a public web page (sandbox fixture; no network)"
  | SandboxCmsDraft => "Create an unpublished CMS draft (sandbox)"
  | SandboxCmsPublish => "Publish a page publicly (sandbox)"
  | SandboxEmailSend => "Send an email to a client (sandbox; nothing leaves this system)"
  | SandboxAdsSpend => "Commit advertising spend (sandbox ledger; no money moves)"
  | SandboxStorageDelete => "Permanently delete assets (sandbox)"
  | SandboxGovernanceGrant => "Grant a role in a sandbox identity store"

def provider : Adapter → String
  | SandboxResearchFetch => "sandbox.web"
  | SandboxCmsDraft => "sandbox.cms"
  | SandboxCmsPublish => "sandbox.cms_publish"
  | SandboxEmailSend => "sandbox.email"
  | SandboxAdsSpend => "sandbox.ads"
  | SandboxStorageDelete => "sandbox.storage"
  | SandboxGovernanceGrant => "sandbox.iam"

def profile : Adapter → RiskProfile
  | SandboxResearchFetch => { operation := .READ, external := true, data_class := .PUBLIC }
  | SandboxCmsDraft => { operation := .WRITE_DRAFT, external := true }
  | SandboxCmsPublish =>
    { operation := .PUBLISH, external := true, audience := .PUBLIC, reversibility := .COMPENSATABLE }
  | SandboxEmailSend =>
    { operation := .COMMUNICATE, external := true, audience := .CLIENT
      reversibility := .IRREVERSIBLE, notifies := true, data_class := .CONFIDENTIAL }
  | SandboxAdsSpend => { operation := .SPEND, external := true, reversibility := .COMPENSATABLE }
  | SandboxStorageDelete =>
    { operation := .DELETE, external := true, reversibility := .IRREVERSIBLE
      data_class := .CONFIDENTIAL }
  | SandboxGovernanceGrant =>
    { operation := .PERMISSION_CHANGE, external := true, reversibility := .COMPENSATABLE }

/-- The catalogue entry of an adapter. -/
def descriptor (a : Adapter) : ActionDescriptor where
  id := a.id
  version := "v1"
  title := a.title
  provider := a.provider
  risk := a.profile
  timeout_seconds := 30
  environments := [.SANDBOX]
  dispatch_owner := GATEWAY_OWNER
  descriptor_hash := canonical_hash (Deployment.model_dump a)

/-- The state its effect has at the provider. -/
def expected_state : Adapter → String
  | SandboxResearchFetch => "READ"
  | SandboxCmsDraft => "DRAFT"
  | SandboxCmsPublish => "PUBLISHED"
  | SandboxEmailSend => "SENT"
  | SandboxAdsSpend => "SPENT"
  | SandboxStorageDelete => "DELETED"
  | SandboxGovernanceGrant => "GRANTED"

/-- The states between which `compensate` moves the effect. -/
def compensation : Adapter → Option (String × String)
  | SandboxCmsDraft => some ("DRAFT", "DELETED")
  | SandboxCmsPublish => some ("PUBLISHED", "UNPUBLISHED")
  | SandboxAdsSpend => some ("SPENT", "REFUNDED")
  | SandboxGovernanceGrant => some ("GRANTED", "REVOKED")
  | SandboxResearchFetch | SandboxEmailSend | SandboxStorageDelete => none

end Adapter

/-- A catalogue entry by its id, with or without its version. -/
def catalog_get (action_id : String) : Except ActionError ActionDescriptor :=
  match (Adapter.all.map Adapter.descriptor ++ Deployment.others).find? fun d =>
      action_id = d.id ∨ action_id = d.ref with
  | some d => .ok d
  | none => .error (.LookupError s!"NOT_IMPLEMENTED: no action {action_id} in the catalogue")

def get_adapter (action_id : String) : Option Adapter := Adapter.all.find? (·.id = action_id)

def _adapter_for (d : ActionDescriptor) : Except ActionError Adapter :=
  if d.dispatch_owner ≠ GATEWAY_OWNER then
    .error (.Gateway .NotDispatchable "NOT_GATEWAY_OWNED" s!"{d.id} is dispatched by {d.dispatch_owner}")
  else
    match get_adapter d.id with
    | some a => .ok a
    | none => .error (.Gateway .NotDispatchable "ADAPTER_MISSING" d.id)

/-- The adapter that dispatches the actions of a capability. -/
def adapterOf (capability_id : String) : Option Adapter :=
  ((catalog_get capability_id).bind _adapter_for).toOption

omit [Sha256] [Deployment] in
theorem Adapter.id_inj (a b : Adapter) : (a.id = b.id ∨ a.id = b.id ++ "@" ++ "v1") ↔ b = a := by
  cases a <;> cases b <;> decide +kernel

theorem catalog_get_id (a : Adapter) : catalog_get a.id = .ok a.descriptor := by
  have hfind : (Adapter.all.map Adapter.descriptor).find?
      (fun d => decide (a.id = d.id ∨ a.id = d.ref)) = some a.descriptor := by
    rw [List.find?_map]
    have hpred : (fun d : ActionDescriptor => decide (a.id = d.id ∨ a.id = d.ref)) ∘
        Adapter.descriptor = fun b => decide (b = a) :=
      funext fun b => decide_eq_decide.mpr (Adapter.id_inj a b)
    rw [hpred]
    cases a <;> rfl
  unfold catalog_get
  rw [List.find?_append, hfind]
  rfl

theorem adapter_of_entry {action_id : String} {d : ActionDescriptor} {a : Adapter}
    (hd : catalog_get action_id = .ok d) (ha : _adapter_for d = .ok a) :
    d = a.descriptor ∧ adapterOf d.id = some a := by
  unfold _adapter_for at ha
  split at ha
  · cases ha
  · rename_i howner
    split at ha
    · rename_i b hb
      cases ha
      have hid : a.id = d.id := by simpa using List.find?_some hb
      have hmem : d ∈ Adapter.all.map Adapter.descriptor := by
        unfold catalog_get at hd
        split at hd
        · rename_i d' hfound
          cases hd
          rcases List.mem_append.mp (List.mem_of_find?_eq_some hfound) with h | h
          · exact h
          · exact absurd (Deployment.foreign d h) howner
        · cases hd
      obtain ⟨b, -, rfl⟩ := List.mem_map.mp hmem
      obtain rfl : b = a := (Adapter.id_inj a b).mp (.inl hid)
      refine ⟨rfl, ?_⟩
      have hadapter : _adapter_for b.descriptor = .ok b := by
        unfold _adapter_for
        rw [if_neg howner]
        show (match get_adapter b.id with
          | some a => Except.ok a
          | none => _) = _
        rw [show get_adapter b.id = some b from hb]
      show ((catalog_get b.id).bind _adapter_for).toOption = some b
      rw [catalog_get_id]
      show (_adapter_for b.descriptor).toOption = some b
      rw [hadapter]
      rfl
    · cases ha

/-! ## Validation -/

/-- `re.fullmatch` of a character class repeated between `lo` and `hi` times. -/
def matchesClass (p : Char → Bool) (lo hi : Nat) (s : List Char) : Bool :=
  s.all p && lo ≤ s.length && s.length ≤ hi

def isLowerAscii (c : Char) : Bool := 97 ≤ c.toNat && c.toNat ≤ 122

def isUpperAscii (c : Char) : Bool := 65 ≤ c.toNat && c.toNat ≤ 90

/-- `[a-z0-9-]`. -/
def isSlug (c : Char) : Bool := isLowerAscii c || c.isDigit || c = '-'

/-- `[A-Za-z0-9_.:-]`. -/
def isUserRef (c : Char) : Bool :=
  isLowerAscii c || isUpperAscii c || c.isDigit || c ∈ ['_', '.', ':', '-']

/-- `[A-Za-z0-9._~-]`. -/
def isUnreserved (c : Char) : Bool :=
  isLowerAscii c || isUpperAscii c || c.isDigit || c ∈ ['.', '_', '~', '-']

/-- The white space of `\s`. -/
def isSpace (c : Char) : Bool :=
  c.toNat ∈ [32, 133, 160, 5760, 8232, 8233, 8239, 8287, 12288] ||
    (9 ≤ c.toNat && c.toNat ≤ 13) || (28 ≤ c.toNat && c.toNat ≤ 31) ||
    (8192 ≤ c.toNat && c.toNat ≤ 8202)

def isControl (c : Char) : Bool := c.toNat < 32 || c.toNat = 127

/-- Normalise a path below a site's root, or refuse it. -/
def safe_relative_path (path : String) : Option String :=
  let cs := path.toList
  let segments := (cs.splitOn '/').filter (· ≠ [])
  if cs = [] ∨ 512 < cs.length ∨ cs.any isControl ∨ Char.ofNat 92 ∈ cs then none
  else if cs.head? ≠ some '/' then none
  else if segments.any fun s => s = ['.'] ∨ s = ['.', '.'] then none
  else if segments.any fun s => !s.all isUnreserved then none
  else some (String.ofList ('/' :: ['/'].intercalate segments))

/-- An address, in lower case: something without white space, `@`, and a domain
    whose last label has two letters or more. -/
def isAddress (addr : List Char) : Bool :=
  match addr.splitOn '@' with
  | [name, domain] =>
    matchesClass (fun c => !isSpace c) 1 64 name &&
      match (domain.splitOn '.').reverse with
      | tld :: rest@(_ :: _) =>
        matchesClass isLowerAscii 2 63 tld &&
          matchesClass (fun c => isSlug c || c = '.') 1 253 (['.'].intercalate rest.reverse)
      | _ => false
  | _ => false

/-- `tuple(sorted(set(...)))`. -/
def sortedSet (ss : List String) : List String := ss.dedup.insertionSort (· ≤ ·)

def GRANTABLE_ROLES : List String := ["viewer", "editor", "reviewer", "approver", "admin"]

/-- A page of `DraftArgs`: site, path, title and body. -/
def validPage (site path title body : String) : Option String :=
  if matchesClass isSlug 3 40 site.toList && 1 ≤ title.length && title.length ≤ 200 &&
      1 ≤ body.length && body.length ≤ 20000 then
    safe_relative_path path
  else none

/-- The constraints of an adapter's argument model, with its normalisations. -/
def checkArgs : Adapter → ActionArgs → Option ActionArgs
  | .SandboxResearchFetch, .fetch url purpose =>
    if 3 ≤ purpose.length && purpose.length ≤ 200 then
      (Deployment.check_public_url url).map (.fetch · purpose)
    else none
  | .SandboxCmsDraft, .draft site path title body =>
    (validPage site path title body).map (.draft site · title body)
  | .SandboxCmsPublish, .publish site path title body =>
    (validPage site path title body).map (.publish site · title body)
  | .SandboxEmailSend, .email recipients subject body =>
    if 1 ≤ recipients.length && recipients.length ≤ 50 && 1 ≤ subject.length &&
        subject.length ≤ 200 && 1 ≤ body.length && body.length ≤ 20000 &&
        recipients.all fun addr => isAddress (Deployment.lower addr).toList then
      some (.email (sortedSet (recipients.map Deployment.lower)) subject body)
    else none
  | .SandboxAdsSpend, .spend campaign amount_minor currency =>
    if matchesClass isSlug 3 60 campaign.toList && 1 ≤ amount_minor &&
        amount_minor ≤ 10000000 && matchesClass isUpperAscii 3 3 currency.toList then
      some (.spend campaign amount_minor currency)
    else none
  | .SandboxStorageDelete, .delete asset_refs =>
    if 1 ≤ asset_refs.length && asset_refs.length ≤ 1000 then some (.delete asset_refs) else none
  | .SandboxGovernanceGrant, .grant user_ref role =>
    if matchesClass isUserRef 1 120 user_ref.toList && role ∈ GRANTABLE_ROLES then
      some (.grant user_ref role)
    else none
  | _, _ => none

namespace Adapter

def validate (a : Adapter) (args : ActionArgs) : Except ActionError ActionArgs :=
  match checkArgs a args with
  | some validated => .ok validated
  | none => .error (.Adapter .ArgsInvalid s!"invalid arguments for {a.id}")

/-! ## What an adapter derives from its arguments -/

structure CostEstimate where
  amount_minor : Nat := 0
  currency : Option String := none

def estimate : Adapter → ActionArgs → CostEstimate
  | SandboxAdsSpend, .spend _ amount_minor currency => ⟨amount_minor, some currency⟩
  | _, _ => {}

/-- Per-request risk facts. -/
structure RequestFacts where
  blast_radius : Nat := 1
  scopes : List String := []
  notifies : Bool := false

def request_facts : Adapter → ActionArgs → RequestFacts
  | SandboxEmailSend, .email recipients _ _ =>
    { blast_radius := recipients.length, notifies := true }
  | SandboxStorageDelete, .delete asset_refs => { blast_radius := asset_refs.length }
  | SandboxGovernanceGrant, .grant _ role => { scopes := ["role:" ++ role] }
  | _, _ => {}

/-- The first `n` characters of a canonical hash. -/
def hashPrefix (n : Nat) (v : Value) : String := String.ofList ((canonical_hash v).toList.take n)

def target_ref : ActionArgs → String
  | .fetch url _ => url
  | .draft site path _ _ => "sandbox-cms://" ++ site ++ path
  | .publish site path _ _ => "sandbox-cms://" ++ site ++ path
  | .email recipients _ _ =>
    "sandbox-mail://" ++ hashPrefix 24 (.dict [("to", .list (recipients.map .str))])
  | .spend campaign _ _ => "sandbox-ads://" ++ campaign
  | .delete asset_refs =>
    "sandbox-storage://" ++
      hashPrefix 24 (.dict [("assets", .list ((asset_refs.insertionSort (· ≤ ·)).map .str))])
  | .grant user_ref _ => "sandbox-iam://" ++ user_ref

/-- The effect plan recorded when the action is prepared. -/
def prepare (a : Adapter) (target_ref payload_hash : String) : List (String × Value) :=
  [("plan", .str s!"{a.id}: {a.expected_state} at {target_ref} (SIMULATED)"),
   ("expected", .dict [("state", .str a.expected_state), ("payload_hash", .str payload_hash)])]

/-- The hosts the sandbox serves fixtures for. -/
def FIXTURES : List String := ["example.com", "example.org"]

/-- The sandbox has no network: a fetch of any other host is refused. -/
def reachable : ActionArgs → Bool
  | .fetch url _ => Deployment.hostname url ∈ FIXTURES
  | _ => true

end Adapter

/-- The key the provider dedupes on. -/
def effect_key (tenant_id capability_ref target_ref payload_hash idempotency_key : String) :
    String :=
  canonical_hash (.dict
    [("tenant", .str tenant_id), ("capability", .str capability_ref), ("target", .str target_ref),
     ("payload", .str payload_hash), ("idempotency_key", .str idempotency_key)])

end Actions
