import Mathlib.Data.List.Basic
import Mathlib.Data.List.Nodup

/-! # Closed vocabularies of the governed action plane -/

namespace Actions

/-- Bumping the policy version invalidates every approval bound to the old one. -/
def RISK_POLICY_VERSION : String := "amc-action-risk/v1"

/-- Governance risk classes of an action's effect. -/
inductive RiskClass where
  | R0  -- view / research
  | R1  -- local create / prepare
  | R2  -- external unpublished draft
  | R3  -- publish / communicate
  | R4  -- spend / budget
  | R5  -- critical asset or data mutation
  | R6  -- governance / permission mutation
  deriving DecidableEq

namespace RiskClass

def rank : RiskClass → Nat
  | R0 => 0 | R1 => 1 | R2 => 2 | R3 => 3 | R4 => 4 | R5 => 5 | R6 => 6

def value : RiskClass → String
  | R0 => "R0" | R1 => "R1" | R2 => "R2" | R3 => "R3" | R4 => "R4" | R5 => "R5" | R6 => "R6"

/-- Every class, lowest rank first. -/
def all : List RiskClass := [R0, R1, R2, R3, R4, R5, R6]

theorem mem_all (c : RiskClass) : c ∈ all := by
  cases c <;> decide

theorem rank_inj {c d : RiskClass} (h : c.rank = d.rank) : c = d := by
  cases c <;> cases d <;> first | rfl | exact absurd h (by decide)

end RiskClass

inductive Environment where
  | LOCAL | SANDBOX | LIVE
  deriving DecidableEq

def Environment.value : Environment → String
  | LOCAL => "LOCAL" | SANDBOX => "SANDBOX" | LIVE => "LIVE"

inductive OperationKind where
  | READ | CREATE_LOCAL | WRITE_DRAFT | PUBLISH | COMMUNICATE | SPEND | DELETE | TRANSFER
  | PERMISSION_CHANGE | POLICY_CHANGE
  deriving DecidableEq

inductive Reversibility where
  | REVERSIBLE | COMPENSATABLE | IRREVERSIBLE
  deriving DecidableEq

def Reversibility.value : Reversibility → String
  | REVERSIBLE => "REVERSIBLE" | COMPENSATABLE => "COMPENSATABLE" | IRREVERSIBLE => "IRREVERSIBLE"

def Reversibility.rank : Reversibility → Nat  -- higher is worse
  | REVERSIBLE => 0 | COMPENSATABLE => 1 | IRREVERSIBLE => 2

inductive Audience where
  | NONE | INTERNAL | CLIENT | PUBLIC
  deriving DecidableEq

def Audience.rank : Audience → Nat
  | NONE => 0 | INTERNAL => 1 | CLIENT => 2 | PUBLIC => 3

def Audience.value : Audience → String
  | NONE => "NONE" | INTERNAL => "INTERNAL" | CLIENT => "CLIENT" | PUBLIC => "PUBLIC"

inductive DataClass where
  | PUBLIC | INTERNAL | CONFIDENTIAL | RESTRICTED
  deriving DecidableEq

def DataClass.rank : DataClass → Nat
  | PUBLIC => 0 | INTERNAL => 1 | CONFIDENTIAL => 2 | RESTRICTED => 3

def DataClass.value : DataClass → String
  | PUBLIC => "PUBLIC" | INTERNAL => "INTERNAL" | CONFIDENTIAL => "CONFIDENTIAL"
  | RESTRICTED => "RESTRICTED"

/-- The controls an action can need, in the order of their names. -/
inductive Control where
  | APPROVAL_EXPIRY | BLAST_RADIUS_REVIEW | BUDGET_RESERVATION | DATA_ACCESS_CHECK
  | DEPENDENCY_IMPACT_REVIEW | EXACT_APPROVAL | FINANCIAL_APPROVAL | IDEMPOTENCY
  | INDEPENDENT_APPROVER | LIVE_GATE | NO_SELF_APPROVAL | OUTPUT_VALIDATION | POLICY_VERSION_PIN
  | PRIVILEGED_REVIEW | PURPOSE_RECORDED | RATE_LIMIT | READ_BACK | RECOVERY_ANALYSIS
  | REVERSIBLE_PLAN | SPEND_RECONCILIATION | STEP_UP_AUTH | TENANT_SCOPE | VERIFIED_TARGET
  | WORK_CONTRACT
  deriving DecidableEq

def Control.all : List Control :=
  [.APPROVAL_EXPIRY, .BLAST_RADIUS_REVIEW, .BUDGET_RESERVATION, .DATA_ACCESS_CHECK,
   .DEPENDENCY_IMPACT_REVIEW, .EXACT_APPROVAL, .FINANCIAL_APPROVAL, .IDEMPOTENCY,
   .INDEPENDENT_APPROVER, .LIVE_GATE, .NO_SELF_APPROVAL, .OUTPUT_VALIDATION, .POLICY_VERSION_PIN,
   .PRIVILEGED_REVIEW, .PURPOSE_RECORDED, .RATE_LIMIT, .READ_BACK, .RECOVERY_ANALYSIS,
   .REVERSIBLE_PLAN, .SPEND_RECONCILIATION, .STEP_UP_AUTH, .TENANT_SCOPE, .VERIFIED_TARGET,
   .WORK_CONTRACT]

theorem Control.mem_all (c : Control) : c ∈ all := by
  cases c <;> decide

/-- Minimum controls per class. An action's controls are the union over every
    class it carries, plus rule-specific controls. -/
def CLASS_CONTROLS : RiskClass → List Control
  | .R0 => [.TENANT_SCOPE, .PURPOSE_RECORDED, .RATE_LIMIT]
  | .R1 => [.TENANT_SCOPE, .WORK_CONTRACT, .OUTPUT_VALIDATION]
  | .R2 => [.TENANT_SCOPE, .VERIFIED_TARGET, .IDEMPOTENCY, .REVERSIBLE_PLAN, .READ_BACK]
  | .R3 => [.TENANT_SCOPE, .EXACT_APPROVAL, .APPROVAL_EXPIRY, .IDEMPOTENCY, .READ_BACK, .LIVE_GATE]
  | .R4 => [.TENANT_SCOPE, .EXACT_APPROVAL, .FINANCIAL_APPROVAL, .BUDGET_RESERVATION,
            .SPEND_RECONCILIATION, .APPROVAL_EXPIRY, .IDEMPOTENCY, .LIVE_GATE]
  | .R5 => [.TENANT_SCOPE, .EXACT_APPROVAL, .STEP_UP_AUTH, .INDEPENDENT_APPROVER,
            .RECOVERY_ANALYSIS, .BLAST_RADIUS_REVIEW, .APPROVAL_EXPIRY, .IDEMPOTENCY, .LIVE_GATE]
  | .R6 => [.TENANT_SCOPE, .EXACT_APPROVAL, .PRIVILEGED_REVIEW, .NO_SELF_APPROVAL,
            .POLICY_VERSION_PIN, .APPROVAL_EXPIRY, .LIVE_GATE]

/-- Upper bound on what may run without a human decision. It never grants
    authority. -/
inductive AutonomyLevel where
  | OBSERVE           -- R0 only
  | DRAFT             -- up to R1
  | PREPARE           -- up to R2 (sandbox drafts)
  | REQUEST_APPROVAL  -- up to R2, and may open approvals for R3+
  deriving DecidableEq

namespace AutonomyLevel

def auto_ceiling : AutonomyLevel → RiskClass
  | OBSERVE => .R0 | DRAFT => .R1 | PREPARE => .R2 | REQUEST_APPROVAL => .R2

def value : AutonomyLevel → String
  | OBSERVE => "OBSERVE" | DRAFT => "DRAFT" | PREPARE => "PREPARE"
  | REQUEST_APPROVAL => "REQUEST_APPROVAL"

end AutonomyLevel

def DEFAULT_AUTONOMY : AutonomyLevel := .DRAFT

end Actions

/-! # The ActionRequest state machine -/

namespace Actions

def MAX_ATTEMPTS : Nat := 3

inductive ActionState where
  | PROPOSED | VALIDATED | PREPARED | AWAITING_APPROVAL | AUTHORIZED | RESERVED | DISPATCHING
  | OBSERVING | VERIFIED | COMPLETED | REJECTED | BLOCKED | EXPIRED | CANCELLED | FAILED | UNKNOWN
  | RECONCILING | NEEDS_HUMAN
  deriving DecidableEq

namespace ActionState

def value : ActionState → String
  | PROPOSED => "PROPOSED" | VALIDATED => "VALIDATED" | PREPARED => "PREPARED"
  | AWAITING_APPROVAL => "AWAITING_APPROVAL" | AUTHORIZED => "AUTHORIZED" | RESERVED => "RESERVED"
  | DISPATCHING => "DISPATCHING" | OBSERVING => "OBSERVING" | VERIFIED => "VERIFIED"
  | COMPLETED => "COMPLETED" | REJECTED => "REJECTED" | BLOCKED => "BLOCKED" | EXPIRED => "EXPIRED"
  | CANCELLED => "CANCELLED" | FAILED => "FAILED" | UNKNOWN => "UNKNOWN"
  | RECONCILING => "RECONCILING" | NEEDS_HUMAN => "NEEDS_HUMAN"

/-- Every state, in the order of the source. -/
def all : List ActionState :=
  [PROPOSED, VALIDATED, PREPARED, AWAITING_APPROVAL, AUTHORIZED, RESERVED, DISPATCHING, OBSERVING,
   VERIFIED, COMPLETED, REJECTED, BLOCKED, EXPIRED, CANCELLED, FAILED, UNKNOWN, RECONCILING,
   NEEDS_HUMAN]

theorem mem_all (s : ActionState) : s ∈ all := by
  cases s <;> decide

variable {b a : ActionState}

theorem value_inj (h : a.value = b.value) : a = b :=
  List.inj_on_of_nodup_map (by decide +kernel) (mem_all a) (mem_all b) h

def PRE_DISPATCH : List ActionState :=
  [PROPOSED, VALIDATED, PREPARED, AWAITING_APPROVAL, AUTHORIZED, RESERVED]

/-- States in which a worker holds a lease on the action. -/
def LEASED : List ActionState := [DISPATCHING, OBSERVING, RECONCILING]

def TERMINAL : List ActionState := [COMPLETED, REJECTED, BLOCKED, EXPIRED, CANCELLED]

/-- The legal edges. `UNKNOWN` only leaves through `RECONCILING`; the edge from
    `FAILED` is the bounded retry. -/
def TRANSITIONS : ActionState → List ActionState
  | PROPOSED => [VALIDATED, REJECTED, BLOCKED, CANCELLED]
  | VALIDATED => [PREPARED, BLOCKED, CANCELLED]
  | PREPARED => [AWAITING_APPROVAL, AUTHORIZED, BLOCKED, CANCELLED, EXPIRED]
  | AWAITING_APPROVAL => [AUTHORIZED, REJECTED, BLOCKED, CANCELLED, EXPIRED]
  | AUTHORIZED => [RESERVED, DISPATCHING, BLOCKED, CANCELLED, EXPIRED]
  | RESERVED => [DISPATCHING, BLOCKED, CANCELLED, EXPIRED]
  | DISPATCHING => [OBSERVING, UNKNOWN, FAILED]
  | OBSERVING => [VERIFIED, FAILED, UNKNOWN]
  | VERIFIED => [COMPLETED]
  | UNKNOWN => [RECONCILING]
  | RECONCILING => [VERIFIED, FAILED, NEEDS_HUMAN, UNKNOWN]
  | NEEDS_HUMAN => [RECONCILING, FAILED]
  | FAILED => [AUTHORIZED]
  | COMPLETED | REJECTED | BLOCKED | EXPIRED | CANCELLED => []

/-- `b` may follow `a`. -/
def Edge (a b : ActionState) : Prop := b ∈ TRANSITIONS a

instance : DecidableRel Edge := fun _ _ => inferInstanceAs (Decidable (_ ∈ _))

theorem not_edge_of_terminal (h : a ∈ TERMINAL) : ¬ Edge a b := by
  cases a <;> simp [TERMINAL, Edge, TRANSITIONS] at h ⊢

end ActionState

end Actions
