import MissionControl.Canonical.Value

/-! # The policy of the council

Deterministic rules decide the risk of a mission and whether it needs an approval. A model
may add findings, which can only raise the risk. -/

namespace Council

open Canonical (Value)

def POLICY_VERSION : String := "amc-council-policy/v1"

inductive Severity where
  | LOW
  | MEDIUM
  | HIGH
  | CRITICAL
  deriving DecidableEq, Repr

/-- `SEVERITY_ORDER[severity]` -/
def Severity.order : Severity → Nat
  | .LOW => 0
  | .MEDIUM => 1
  | .HIGH => 2
  | .CRITICAL => 3

def Severity.value : Severity → String
  | .LOW => "LOW"
  | .MEDIUM => "MEDIUM"
  | .HIGH => "HIGH"
  | .CRITICAL => "CRITICAL"

/-- The severity a text names. -/
def Severity.parse (text : String) : Option Severity :=
  [Severity.LOW, .MEDIUM, .HIGH, .CRITICAL].find? (·.value == text)

inductive Sensitivity where
  | READ
  | WRITE
  | SHELL
  | EXTERNAL
  deriving DecidableEq, Repr

def Sensitivity.value : Sensitivity → String
  | .READ => "READ"
  | .WRITE => "WRITE"
  | .SHELL => "SHELL"
  | .EXTERNAL => "EXTERNAL"

/-- A side effect the prototype step wants. -/
structure RequestedAction where
  tool_id : String
  sensitivity : Sensitivity
  target : String
  deriving DecidableEq

inductive Source where
  | POLICY
  | MODEL
  deriving DecidableEq, Repr

def Source.value : Source → String
  | .POLICY => "POLICY"
  | .MODEL => "MODEL"

structure RiskFinding where
  code : String
  severity : Severity
  detail : String
  source : Source
  deriving DecidableEq

structure RiskAssessment where
  level : Severity
  findings : List RiskFinding
  requires_approval : Bool
  blocked : Bool
  requested_actions : List RequestedAction
  narrative : String
  policy_version : String
  deriving DecidableEq

/-! ## As JSON -/

def RequestedAction.dump (a : RequestedAction) : Value :=
  .dict [("tool_id", .str a.tool_id), ("sensitivity", .str a.sensitivity.value), ("target", .str a.target)]

def RiskFinding.dump (f : RiskFinding) : Value :=
  .dict [("code", .str f.code), ("severity", .str f.severity.value), ("detail", .str f.detail),
    ("source", .str f.source.value)]

/-- `model_dump(mode="json")` -/
def RiskAssessment.dump (r : RiskAssessment) : Value :=
  .dict [("level", .str r.level.value), ("findings", .list (r.findings.map (·.dump))),
    ("requires_approval", .bool r.requires_approval), ("blocked", .bool r.blocked),
    ("requested_actions", .list (r.requested_actions.map (·.dump))), ("narrative", .str r.narrative),
    ("policy_version", .str r.policy_version)]

/-! ## The scan -/

/-- The regular expressions of the rules, and `str.upper`. -/
class TextRules where
  secret : String → Bool
  pii : String → Bool
  /-- The pattern of the rule with the code. -/
  rule : String → String → Bool
  upper : String → String

/-- The keyword rules: code, severity and detail. -/
def _RULES : List (String × Severity × String) :=
  [("SHELL_EXECUTION_REQUESTED", .HIGH,
      "Shell or code execution requested; the gateway exposes no shell tool and generated code is never run"),
    ("EXTERNAL_DISPATCH_REQUESTED", .HIGH,
      "External dispatch requested; publication, sending and spend stay disabled without an approved adapter"),
    ("DESTRUCTIVE_OPERATION_REQUESTED", .HIGH, "Destructive data operation requested"),
    ("PRIVILEGE_ESCALATION_REQUESTED", .HIGH, "Privilege escalation or control bypass requested"),
    ("PROMPT_INJECTION_SUSPECTED", .HIGH,
      "Instruction-override text found in the idea; it is treated as data, not instructions")]

/-- The loop of `_max_level`: the first finding of the highest severity decides. -/
def maxFrom (level : Severity) : List RiskFinding → Severity
  | [] => level
  | finding :: findings =>
    maxFrom (if finding.severity.order > level.order then finding.severity else level) findings

def _max_level (findings : List RiskFinding) : Severity := maxFrom .LOW findings

/-- `text[:n]` -/
def clip (n : Nat) (text : String) : String := String.ofList (text.toList.take n)

section

variable [TextRules]

/-- What the rules find in the text. -/
def textFindings (text : String) : List RiskFinding :=
  (if TextRules.secret text then
    [⟨"SECRET_IN_INPUT", .CRITICAL,
      "A credential-shaped value is present in the input; the mission is blocked", .POLICY⟩] else []) ++
  (if TextRules.pii text then
    [⟨"PII_IN_INPUT", .MEDIUM, "Personal data is present; it is redacted from audit logs", .POLICY⟩]
    else []) ++
  (_RULES.filter fun rule => TextRules.rule rule.1 text).map fun rule =>
    ⟨rule.1, rule.2.1, rule.2.2, .POLICY⟩

/-- What the rules find in the requested side effects. -/
def actionFindings (actions : List RequestedAction) : List RiskFinding :=
  (actions.filter fun a => a.sensitivity ≠ .READ).map fun a =>
    ⟨a.sensitivity.value ++ "_ACTION_REQUESTED", .MEDIUM, clip 400 (a.tool_id ++ " -> " ++ a.target), .POLICY⟩

/-- Deterministic risk assessment of the mission input and its requested side effects. -/
def scan (text : String) (actions : List RequestedAction) : RiskAssessment :=
  let findings := textFindings text ++ actionFindings actions
  let level := _max_level findings
  { level := level
    findings := findings
    requires_approval := actions.any (fun a => a.sensitivity ≠ .READ) || Severity.HIGH.order ≤ level.order
    blocked := level = .CRITICAL
    requested_actions := actions
    narrative := ""
    policy_version := POLICY_VERSION }

/-! ## Model findings -/

/-- An entry of `additional_findings` that is an object: its texts, with the defaults
    for what it leaves out. -/
structure RawFinding where
  code : String := "MODEL_FINDING"
  severity : String := "MEDIUM"
  detail : String := ""

/-- What the model answered: the additional findings, `none` for what is no object, and
    the narrative. -/
structure ModelOutput where
  additional_findings : List (Option RawFinding) := []
  narrative : String := ""

/-- `^[A-Z][A-Z0-9_]{2,63}$` -/
def validCode (code : String) : Bool :=
  match code.toList with
  | [] => false
  | c :: cs => c.isUpper && cs.all (fun c => c.isUpper || c.isDigit || c == '_') &&
      decide (2 ≤ cs.length ∧ cs.length ≤ 63)

/-- A finding of the model, unless it does not validate. -/
def RawFinding.validate (raw : RawFinding) : Option RiskFinding :=
  let code := (TextRules.upper (clip 64 raw.code)).replace " " "_"
  let detail := if clip 400 raw.detail = "" then "n/a" else clip 400 raw.detail
  match Severity.parse raw.severity with
  | some severity =>
    if validCode code && decide (3 ≤ detail.length ∧ detail.length ≤ 400) then
      some ⟨code, severity, detail, .MODEL⟩
    else none
  | none => none

/-- Add validated model findings and narrative. -/
def merge_model_findings (policy : RiskAssessment) (model_output : ModelOutput) : RiskAssessment :=
  let extra := (model_output.additional_findings.take 10).filterMap fun raw => raw.bind (·.validate)
  let findings := policy.findings ++ extra
  let level := _max_level findings
  { policy with
    findings := findings
    level := level
    requires_approval := policy.requires_approval || Severity.HIGH.order ≤ level.order
    blocked := policy.blocked || level = .CRITICAL
    narrative := clip 1200 model_output.narrative }

end

/-! ## Risk only goes up -/

theorem le_maxFrom (level : Severity) (findings : List RiskFinding) :
    level.order ≤ (maxFrom level findings).order := by
  induction findings generalizing level with
  | nil => exact le_refl _
  | cons finding findings ih =>
    unfold maxFrom
    refine le_trans ?_ (ih _)
    split
    · rename_i h
      exact le_of_lt h
    · exact le_refl _

theorem maxFrom_append (level : Severity) (findings extra : List RiskFinding) :
    maxFrom level (findings ++ extra) = maxFrom (maxFrom level findings) extra := by
  induction findings generalizing level with
  | nil => rfl
  | cons finding findings ih => exact ih _

theorem _max_level_append (findings extra : List RiskFinding) :
    (_max_level findings).order ≤ (_max_level (findings ++ extra)).order := by
  unfold _max_level
  rw [maxFrom_append]
  exact le_maxFrom _ _

/-- One assessment is at least as strict as another. -/
structure Stricter (policy merged : RiskAssessment) : Prop where
  level : policy.level.order ≤ merged.level.order
  requires_approval : policy.requires_approval = true → merged.requires_approval = true
  blocked : policy.blocked = true → merged.blocked = true

/-- **Model findings only make the assessment of the rules stricter.** -/
theorem merge_stricter [TextRules] (text : String) (actions : List RequestedAction)
    (model_output : ModelOutput) :
    Stricter (scan text actions) (merge_model_findings (scan text actions) model_output) := by
  constructor
  · exact _max_level_append _ _
  · intro h
    show (_ || _) = true
    rw [h, Bool.true_or]
  · intro h
    show (_ || _) = true
    rw [h, Bool.true_or]

end Council
