import MissionControl.Actions.Vocabulary
import Mathlib.Data.List.Sort
import Mathlib.Tactic.Tauto

/-! # Deterministic risk classification

Every class an action earns is kept. A caller-requested class can only raise the
result. -/

namespace Actions

/-- A mutation touching more resources than this is reviewed as critical (R5). -/
def BULK_MUTATION_THRESHOLD : Nat := 25

def GOVERNANCE_SCOPE_PREFIXES : List String :=
  ["governance:", "permission:", "policy:", "role:", "credential:"]

/-- Everything the classification reads. -/
structure RiskFacts where
  operation : OperationKind
  environment : Environment
  data_class : DataClass
  cost_minor : Nat
  currency : Option String
  reversibility : Reversibility
  audience : Audience
  external : Bool
  notifies : Bool
  blast_radius : Nat
  scopes : List String
  dependents : Nat
  requested_class : Option RiskClass

/-- What a rule adds to an assessment. -/
inductive RiskEffect where
  | cls (c : RiskClass)
  | control (c : Control)
  deriving DecidableEq

structure Explanation where
  rule : String
  effect : RiskEffect
  reason : String

structure RiskAssessment where
  policy_version : String
  classes : List RiskClass
  effective : RiskClass
  controls : List Control
  explanations : List Explanation
  requires_approval : Bool
  requires_financial_approval : Bool
  requires_step_up : Bool
  requires_privileged_review : Bool
  live_gated : Bool

def _governance (scopes : List String) : List String :=
  (scopes.filter fun s => GOVERNANCE_SCOPE_PREFIXES.any fun p => p.isPrefixOf s.toLower).insertionSort
    (· ≤ ·)

/-- A list of strings as Python prints it. -/
def listText (ss : List String) : String :=
  "[" ++ ", ".intercalate (ss.map fun s => "'" ++ s ++ "'") ++ "]"

/-- An amount as the cost rule prints it. -/
def costText (cost_minor : Nat) (currency : Option String) : String :=
  s!"has an estimated cost of {cost_minor} minor units" ++
    match currency with
    | some c => if c = "" then "" else " " ++ c
    | none => ""

private def add (rule : String) (c : RiskClass) (reason : String) : Explanation :=
  ⟨rule, .cls c, reason⟩

private def need (rule : String) (c : Control) (reason : String) : Explanation :=
  ⟨rule, .control c, reason⟩

private def on (b : Bool) (e : Explanation) : List Explanation := if b then [e] else []

/-- The classes a list of explanations adds. -/
def addedClasses (why : List Explanation) : List RiskClass :=
  why.filterMap fun e => match e.effect with
    | .cls c => some c
    | .control _ => none

/-- The controls a list of explanations adds. -/
def addedControls (why : List Explanation) : List Control :=
  why.filterMap fun e => match e.effect with
    | .cls _ => none
    | .control c => some c

/-- The rules that look at the facts of the action alone. -/
def factRules (facts : RiskFacts) : List Explanation :=
  let op := facts.operation
  let mutates := op ≠ .READ
  on (op = .READ) (add "RK01" .R0 "reads information without changing it") ++
  on (op = .READ ∧ DataClass.CONFIDENTIAL.rank ≤ facts.data_class.rank)
    (need "RK09" .DATA_ACCESS_CHECK s!"reads {facts.data_class.value.toLower} data") ++
  on (op = .CREATE_LOCAL)
    (add "RK02" .R1 "creates or prepares something inside this system only") ++
  on (op = .WRITE_DRAFT ∨ (facts.external ∧ mutates))
    (add "RK03" .R2 "writes to a system outside this one") ++
  on (op = .PUBLISH ∨ op = .COMMUNICATE)
    (add "RK04" .R3 "makes something visible to an audience or sends a message") ++
  on (Audience.CLIENT.rank ≤ facts.audience.rank ∧ mutates)
    (add "RK04a" .R3 s!"reaches a {facts.audience.value.toLower} audience") ++
  on facts.notifies (add "RK04b" .R3 "triggers a notification to people") ++
  on (op = .SPEND) (add "RK05" .R4 "commits or changes money") ++
  on (0 < facts.cost_minor)
    (add "RK05a" .R4 (costText facts.cost_minor facts.currency)) ++
  (if op = .DELETE ∨ op = .TRANSFER then
    if facts.reversibility = .IRREVERSIBLE ∨ DataClass.CONFIDENTIAL.rank ≤ facts.data_class.rank ∨
        op = .TRANSFER then
      [add "RK06" .R5 "deletes or transfers something that cannot simply be restored"]
    else [add "RK06a" .R2 "removes something recoverable"]
  else []) ++
  on (BULK_MUTATION_THRESHOLD < facts.blast_radius ∧ mutates)
    (add "RK07" .R5 s!"affects {facts.blast_radius} resources (over {BULK_MUTATION_THRESHOLD})") ++
  on (op = .PERMISSION_CHANGE ∨ op = .POLICY_CHANGE)
    (add "RK08" .R6 "changes who or what may authorise future actions") ++
  on (_governance facts.scopes ≠ [])
    (add "RK08a" .R6 ("requests governance scopes " ++ listText (_governance facts.scopes))) ++
  on (facts.reversibility = .IRREVERSIBLE ∧ mutates)
    (need "RK10" .RECOVERY_ANALYSIS "the effect cannot be undone") ++
  on (0 < facts.dependents ∧ mutates)
    (need "RK11" .DEPENDENCY_IMPACT_REVIEW
      s!"{facts.dependents} downstream item(s) depend on the target")

/-- RK12: a requested class counts when it is above every class earned so far. -/
def requestRule (facts : RiskFacts) (classes : List RiskClass) : List Explanation :=
  match facts.requested_class with
  | none => []
  | some r =>
    on (r ∉ classes ∧ ∀ c ∈ classes, c.rank < r.rank)
      (add "RK12" r
        "the requester asked for stricter handling (a request can raise risk, never lower it)")

/-- RK00: an unclassifiable operation is treated as critical. -/
def fallbackRule (classes : List RiskClass) : List Explanation :=
  on (classes = []) (add "RK00" .R5 "the operation could not be classified")

/-- RK13: the gate of the live environment. -/
def liveRule (facts : RiskFacts) : List Explanation :=
  on (facts.environment = .LIVE)
    (need "RK13" .LIVE_GATE "LIVE execution is disabled in this deployment")

/-- The class of highest rank. -/
def effectiveClass (classes : List RiskClass) : RiskClass :=
  (classes.getLast?).getD .R5

/-- The explanations that can add classes, in the order they are given. -/
def classRules (facts : RiskFacts) : List Explanation :=
  let why := factRules facts
  let why := why ++ requestRule facts (addedClasses why)
  why ++ fallbackRule (addedClasses why)

/-- The assessment of an action with these classes for these reasons. -/
def assessment (facts : RiskFacts) (classes : List RiskClass) (why : List Explanation) :
    RiskAssessment where
  policy_version := RISK_POLICY_VERSION
  classes := classes
  effective := effectiveClass classes
  controls := Control.all.filter fun c =>
    c ∈ addedControls why ∨ c ∈ classes.flatMap CLASS_CONTROLS
  explanations := why
  requires_approval := decide (RiskClass.R3.rank ≤ (effectiveClass classes).rank)
  requires_financial_approval := decide (.R4 ∈ classes)
  requires_step_up := decide (.R5 ∈ classes)
  requires_privileged_review := decide (.R6 ∈ classes)
  live_gated := decide (facts.environment = .LIVE)

def assess (facts : RiskFacts) : RiskAssessment :=
  assessment facts (RiskClass.all.filter (· ∈ addedClasses (classRules facts)))
    (classRules facts ++ liveRule facts)

/-- An assessment's flags are read off its own classes. -/
structure RiskAssessment.Coherent (risk : RiskAssessment) : Prop where
  member : risk.effective ≠ .R5 → risk.effective ∈ risk.classes
  approval : risk.requires_approval = true ↔ 3 ≤ risk.effective.rank
  financial : risk.requires_financial_approval = true ↔ .R4 ∈ risk.classes
  privileged : risk.requires_privileged_review = true ↔ .R6 ∈ risk.classes

theorem assess_coherent (facts : RiskFacts) : (assess facts).Coherent := by
  unfold assess
  generalize RiskClass.all.filter _ = classes
  refine ⟨?_, decide_eq_true_iff, decide_eq_true_iff, decide_eq_true_iff⟩
  show effectiveClass classes ≠ .R5 → effectiveClass classes ∈ classes
  unfold effectiveClass
  cases h : classes.getLast? with
  | none => exact fun hne => absurd rfl hne
  | some c => exact fun _ => List.mem_of_getLast? h

/-! ## What the facts alone earn -/

/-- What a deletion removes can be restored. -/
def RiskFacts.Recoverable (facts : RiskFacts) : Prop :=
  facts.reversibility ≠ .IRREVERSIBLE ∧ ¬ DataClass.CONFIDENTIAL.rank ≤ facts.data_class.rank

instance (facts : RiskFacts) : Decidable facts.Recoverable :=
  inferInstanceAs (Decidable (_ ∧ _))

/-- When the facts earn a class, whatever was requested. -/
def RiskFacts.Earns (facts : RiskFacts) : RiskClass → Prop
  | .R0 => facts.operation = .READ
  | .R1 => facts.operation = .CREATE_LOCAL
  | .R2 => (facts.operation = .WRITE_DRAFT ∨ facts.external = true ∧ facts.operation ≠ .READ) ∨
      facts.operation = .DELETE ∧ facts.Recoverable
  | .R3 => ((facts.operation = .PUBLISH ∨ facts.operation = .COMMUNICATE) ∨
      Audience.CLIENT.rank ≤ facts.audience.rank ∧ facts.operation ≠ .READ) ∨ facts.notifies = true
  | .R4 => facts.operation = .SPEND ∨ 0 < facts.cost_minor
  | .R5 => (facts.operation = .TRANSFER ∨ facts.operation = .DELETE ∧ ¬ facts.Recoverable) ∨
      BULK_MUTATION_THRESHOLD < facts.blast_radius ∧ facts.operation ≠ .READ
  | .R6 => (facts.operation = .PERMISSION_CHANGE ∨ facts.operation = .POLICY_CHANGE) ∨
      _governance facts.scopes ≠ []

/-- When the facts need a control of their own. -/
def RiskFacts.Needs (facts : RiskFacts) : Control → Prop
  | .DATA_ACCESS_CHECK => facts.operation = .READ ∧ DataClass.CONFIDENTIAL.rank ≤ facts.data_class.rank
  | .RECOVERY_ANALYSIS => facts.reversibility = .IRREVERSIBLE ∧ facts.operation ≠ .READ
  | .DEPENDENCY_IMPACT_REVIEW => 0 < facts.dependents ∧ facts.operation ≠ .READ
  | _ => False

theorem addedClasses_append (why why' : List Explanation) :
    addedClasses (why ++ why') = addedClasses why ++ addedClasses why' :=
  List.filterMap_append

theorem addedControls_append (why why' : List Explanation) :
    addedControls (why ++ why') = addedControls why ++ addedControls why' :=
  List.filterMap_append

variable {b : Bool} {rule reason : String} {c : RiskClass}

private theorem mem_addedClasses_on_add {c' : RiskClass} :
    c' ∈ addedClasses (on b (add rule c reason)) ↔ b = true ∧ c' = c := by
  cases b <;> simp [on, add, addedClasses]

private theorem addedClasses_on_need {c : Control} : addedClasses (on b (need rule c reason)) = [] := by
  cases b <;> rfl

private theorem mem_addedControls_on_need {c c' : Control} :
    c' ∈ addedControls (on b (need rule c reason)) ↔ b = true ∧ c' = c := by
  cases b <;> simp [on, need, addedControls]

private theorem addedControls_on_add : addedControls (on b (add rule c reason)) = [] := by
  cases b <;> rfl

variable {facts : RiskFacts}

/-- **The classes the facts earn.** -/
theorem mem_addedClasses_factRules : c ∈ addedClasses (factRules facts) ↔ facts.Earns c := by
  -- the rule for deletions and transfers adds one class or another
  have hremoval : c ∈ addedClasses (if facts.operation = .DELETE ∨ facts.operation = .TRANSFER then
        if facts.reversibility = .IRREVERSIBLE ∨ DataClass.CONFIDENTIAL.rank ≤ facts.data_class.rank ∨
            facts.operation = .TRANSFER then
          [add "RK06" .R5 "deletes or transfers something that cannot simply be restored"]
        else [add "RK06a" .R2 "removes something recoverable"]
      else []) ↔ c = .R5 ∧ (facts.operation = .TRANSFER ∨ facts.operation = .DELETE ∧ ¬ facts.Recoverable) ∨
        c = .R2 ∧ facts.operation = .DELETE ∧ facts.Recoverable := by
    have hlost : facts.reversibility = .IRREVERSIBLE ∨ DataClass.CONFIDENTIAL.rank ≤ facts.data_class.rank ∨
        facts.operation = .TRANSFER ↔ facts.operation = .TRANSFER ∨ ¬ facts.Recoverable := by
      unfold RiskFacts.Recoverable
      tauto
    rw [if_congr hlost rfl rfl]
    by_cases hrec : facts.Recoverable
    · cases facts.operation <;> simp [addedClasses, add, hrec, eq_comm]
    · cases facts.operation <;> simp [addedClasses, add, hrec, eq_comm]
  simp only [factRules, addedClasses_append, List.mem_append, mem_addedClasses_on_add, addedClasses_on_need,
    List.not_mem_nil, decide_eq_true_eq, hremoval]
  cases c <;> simp [RiskFacts.Earns]

/-- **The controls the facts need.** -/
theorem mem_addedControls_factRules {c : Control} : c ∈ addedControls (factRules facts) ↔ facts.Needs c := by
  have hremoval : addedControls (if facts.operation = .DELETE ∨ facts.operation = .TRANSFER then
        if facts.reversibility = .IRREVERSIBLE ∨ DataClass.CONFIDENTIAL.rank ≤ facts.data_class.rank ∨
            facts.operation = .TRANSFER then
          [add "RK06" .R5 "deletes or transfers something that cannot simply be restored"]
        else [add "RK06a" .R2 "removes something recoverable"]
      else []) = [] := by
    split
    · split <;> rfl
    · rfl
  simp only [factRules, addedControls_append, List.mem_append, mem_addedControls_on_need, addedControls_on_add,
    List.not_mem_nil, decide_eq_true_eq, hremoval]
  cases c <;> simp [RiskFacts.Needs]

variable {classes : List RiskClass}

theorem mem_requestRule_some {r : RiskClass} (h : facts.requested_class = some r) :
    c ∈ addedClasses (requestRule facts classes) ↔ (r ∉ classes ∧ ∀ d ∈ classes, d.rank < r.rank) ∧ c = r := by
  simp only [requestRule, h, mem_addedClasses_on_add, decide_eq_true_eq]

theorem addedControls_requestRule (facts : RiskFacts) (classes : List RiskClass) :
    addedControls (requestRule facts classes) = [] := by
  unfold requestRule
  cases facts.requested_class with
  | none => rfl
  | some r => exact addedControls_on_add

theorem fallbackRule_of_ne (h : classes ≠ []) : fallbackRule classes = [] := by
  simp [fallbackRule, on, h]

theorem mem_addedControls_liveRule {c : Control} :
    c ∈ addedControls (liveRule facts) ↔ facts.environment = .LIVE ∧ c = .LIVE_GATE := by
  simp only [liveRule, mem_addedControls_on_need, decide_eq_true_eq]

section
variable (facts : RiskFacts) (classes : List RiskClass) (why : List Explanation)

theorem assessment_classes : (assessment facts classes why).classes = classes := rfl

theorem assessment_effective : (assessment facts classes why).effective = effectiveClass classes := rfl

theorem assessment_controls : (assessment facts classes why).controls = Control.all.filter fun c =>
      c ∈ addedControls why ∨ c ∈ classes.flatMap CLASS_CONTROLS := rfl

theorem assess_classes :
    (assess facts).classes = RiskClass.all.filter (· ∈ addedClasses (classRules facts)) := by
  unfold assess
  rw [assessment_classes]

theorem assess_effective : (assess facts).effective = effectiveClass (assess facts).classes := by
  rw [assess_classes]
  unfold assess
  rw [assessment_effective]

theorem assess_controls : (assess facts).controls = Control.all.filter fun c =>
      c ∈ addedControls (classRules facts ++ liveRule facts) ∨ c ∈ (assess facts).classes.flatMap CLASS_CONTROLS := by
  rw [assess_classes]
  unfold assess
  rw [assessment_controls]

end

end Actions
