import MissionControl.Python.Text

/-! # Methods

A catalog of methods, each with the predicates under which it applies, and the signature of a problem the predicates are
evaluated against. The predicates are a closed, tiny language. -/

namespace Compiled

inductive Slot where
  | MACRO
  | DIAGNOSE
  | DECIDE
  | EXECUTE
  | CONTROL
  | LEARN
  deriving DecidableEq, Repr

/-- `SLOT_ORDER.index(slot)` -/
def Slot.index : Slot → Nat
  | MACRO => 0
  | DIAGNOSE => 1
  | DECIDE => 2
  | EXECUTE => 3
  | CONTROL => 4
  | LEARN => 5

/-! ## Signatures -/

/-- What an attribute of a signature holds: a text, a flag that may be unknown, or a list of texts. -/
inductive Attribute where
  | text (s : String)
  | flag (b : Option Bool)
  | texts (items : List String)
  deriving DecidableEq, Repr

inductive Level where
  | low
  | medium
  | high
  | unknown
  deriving DecidableEq, Repr

inductive Consequence where
  | low
  | medium
  | high
  | critical
  | unknown
  deriving DecidableEq, Repr

inductive Reversibility where
  | reversible
  | partially_reversible
  | irreversible
  | unknown
  deriving DecidableEq, Repr

inductive Externality where
  | internal
  | external
  | unknown
  deriving DecidableEq, Repr

inductive Sensitivity where
  | publicly
  | internal
  | confidential
  | regulated
  | unknown
  deriving DecidableEq, Repr

inductive EvidenceStatus where
  | verified
  | partially
  | unverified
  | conflicting
  | unknown
  deriving DecidableEq, Repr

def Level.value : Level → String
  | low => "low"
  | medium => "medium"
  | high => "high"
  | unknown => "unknown"

def Consequence.value : Consequence → String
  | low => "low"
  | medium => "medium"
  | high => "high"
  | critical => "critical"
  | unknown => "unknown"

def Reversibility.value : Reversibility → String
  | reversible => "reversible"
  | partially_reversible => "partially_reversible"
  | irreversible => "irreversible"
  | unknown => "unknown"

def Externality.value : Externality → String
  | internal => "internal"
  | external => "external"
  | unknown => "unknown"

def Sensitivity.value : Sensitivity → String
  | publicly => "public"
  | internal => "internal"
  | confidential => "confidential"
  | regulated => "regulated"
  | unknown => "unknown"

def EvidenceStatus.value : EvidenceStatus → String
  | verified => "verified"
  | partially => "partial"
  | unverified => "unverified"
  | conflicting => "conflicting"
  | unknown => "unknown"

/-- Multi-label, evidence-backed description of a problem. `others` are the attributes of the object that are no fields of
    it. -/
structure ProblemSignature where
  objective : String
  desired_outcome : String := ""
  problem_families : List String := []
  domains : List String := []
  current_state_known : Option Bool := none
  target_state_known : Option Bool := none
  process_exists : Option Bool := none
  root_cause_known : Option Bool := none
  solution_known : Option Bool := none
  measurement_available : Option Bool := none
  uncertainty : Level := .unknown
  reversibility : Reversibility := .unknown
  consequence : Consequence := .unknown
  externality : Externality := .unknown
  data_sensitivity : Sensitivity := .unknown
  system_coupling : Level := .unknown
  time_pressure : Level := .unknown
  change_adoption_required : Option Bool := none
  evidence_status : EvidenceStatus := .unknown
  constraints : List String := []
  non_goals : List String := []
  observations : List String := []
  others : String → Option Attribute := fun _ => none

/-- `getattr(signature, name)`, unless it is an `AttributeError`. -/
def ProblemSignature.getattr (signature : ProblemSignature) : String → Option Attribute
  | "objective" => some (.text signature.objective)
  | "desired_outcome" => some (.text signature.desired_outcome)
  | "problem_families" => some (.texts signature.problem_families)
  | "domains" => some (.texts signature.domains)
  | "current_state_known" => some (.flag signature.current_state_known)
  | "target_state_known" => some (.flag signature.target_state_known)
  | "process_exists" => some (.flag signature.process_exists)
  | "root_cause_known" => some (.flag signature.root_cause_known)
  | "solution_known" => some (.flag signature.solution_known)
  | "measurement_available" => some (.flag signature.measurement_available)
  | "uncertainty" => some (.text signature.uncertainty.value)
  | "reversibility" => some (.text signature.reversibility.value)
  | "consequence" => some (.text signature.consequence.value)
  | "externality" => some (.text signature.externality.value)
  | "data_sensitivity" => some (.text signature.data_sensitivity.value)
  | "system_coupling" => some (.text signature.system_coupling.value)
  | "time_pressure" => some (.text signature.time_pressure.value)
  | "change_adoption_required" => some (.flag signature.change_adoption_required)
  | "evidence_status" => some (.text signature.evidence_status.value)
  | "constraints" => some (.texts signature.constraints)
  | "non_goals" => some (.texts signature.non_goals)
  | "observations" => some (.texts signature.observations)
  | name => signature.others name

/-! ## Predicates -/

inductive Predicate where
  | compare (field : String) (equal : Bool) (value : String)
  | isIn (field : String) (choices : List String)
  | observed (arg : String)
  | notObserved (arg : String)
  | family (arg : String)
  | domain (arg : String)
  deriving DecidableEq, Repr

/-- `[a-z_]` -/
def isFieldChar (c : Char) : Bool := ('a' ≤ c && c ≤ 'z') || c == '_'

/-- `[A-Za-z0-9_\-]` -/
def isValueChar (c : Char) : Bool :=
  ('A' ≤ c && c ≤ 'Z') || ('a' ≤ c && c ≤ 'z') || ('0' ≤ c && c ≤ '9') || c == '_' || c == '-'

/-- `[A-Za-z0-9_|\-]` -/
def isChoiceChar (c : Char) : Bool := isValueChar c || c == '|'

/-- A non-empty text of a class. -/
def wordOf (p : Char → Bool) (cs : List Char) : Option String :=
  if cs ≠ [] ∧ cs.all p then some (String.ofList cs) else none

/-- What `_PRED` matches up to the end of the text. What follows a name is in no class of names, so a name is the
    longest that fits. -/
def parseLine (cs : List Char) : Option Predicate :=
  let name := cs.takeWhile isFieldChar
  match name, cs.dropWhile isFieldChar with
  | _ :: _, '=' :: '=' :: value => (wordOf isValueChar value).map (.compare (String.ofList name) true)
  | _ :: _, '!' :: '=' :: value => (wordOf isValueChar value).map (.compare (String.ofList name) false)
  | _ :: _, ' ' :: 'i' :: 'n' :: ' ' :: choices =>
    (wordOf isChoiceChar choices).map fun text =>
      .isIn (String.ofList name) ((Python.split '|' text.toList).map String.ofList)
  | _ :: _, ':' :: arg =>
    match String.ofList name with
    | "observed" => (wordOf isValueChar arg).map .observed
    | "not_observed" => (wordOf isValueChar arg).map .notObserved
    | "family" => (wordOf isValueChar arg).map .family
    | "domain" => (wordOf isValueChar arg).map .domain
    | _ => none
  | _, _ => none

/-- `_PRED.match(text)`: a `$` also matches before a newline that ends the text. -/
def matchPredicate (text : String) : Option Predicate :=
  match parseLine text.toList with
  | some predicate => some predicate
  | none => if text.toList.getLast? = some '\n' then parseLine text.toList.dropLast else none

/-- `_literal(raw)` -/
def _literal (raw : String) : Attribute :=
  if raw = "true" then .flag (some true) else if raw = "false" then .flag (some false) else .text raw

/-- `value is not None and str(value) in choices`. The text of a list has a bracket in it, and no choice has. -/
def amongChoices (choices : List String) : Attribute → Bool
  | .text s => choices.contains s
  | .flag (some true) => choices.contains "True"
  | .flag (some false) => choices.contains "False"
  | .flag none => false
  | .texts _ => false

/-- Whether a predicate holds, unless it cannot be parsed or names an attribute there is not. -/
def evaluate_predicate (predicate : String) (signature : ProblemSignature) : Option Bool :=
  match matchPredicate predicate with
  | none => none
  | some (.observed arg) => some (signature.observations.contains arg)
  | some (.notObserved arg) => some (!signature.observations.contains arg)
  | some (.family arg) => some (signature.problem_families.contains arg)
  | some (.domain arg) => some (signature.domains.contains arg)
  | some (.isIn field choices) => (signature.getattr field).map (amongChoices choices)
  | some (.compare field true value) => (signature.getattr field).map (· == _literal value)
  | some (.compare field false value) => (signature.getattr field).map (· != _literal value)

def all_hold (signature : ProblemSignature) : List String → Option Bool
  | [] => some true
  | p :: predicates => do if ← evaluate_predicate p signature then all_hold signature predicates else some false

def any_holds (signature : ProblemSignature) : List String → Option Bool
  | [] => some false
  | p :: predicates => do if ← evaluate_predicate p signature then some true else any_holds signature predicates

/-! ## The catalog -/

structure MethodSpec where
  method_id : String
  family : String
  secondary_families : List String := []
  slot : Slot
  applicability_predicates : List String := []
  contraindications : List String := []
  expected_outputs : List String
  conflicts_with : List String := []
  effort : Nat
  deriving DecidableEq

/-- The methods of a catalog are keyed by their identifiers. -/
structure MethodCatalog where
  methods : List MethodSpec
  ids_nodup : (methods.map (·.method_id)).Nodup

namespace MethodCatalog

variable (catalog : MethodCatalog)

/-- `catalog.methods.get(id)` -/
def method? (id : String) : Option MethodSpec := catalog.methods.find? (·.method_id == id)

/-- `catalog.methods[id].expected_outputs` -/
def expected_outputs (id : String) : List String := ((catalog.method? id).map (·.expected_outputs)).getD []

/-- `catalog.methods[id].conflicts_with` -/
def conflicts_with (id : String) : List String := ((catalog.method? id).map (·.conflicts_with)).getD []

/-- `catalog.methods[id].effort` -/
def effort (id : String) : Nat := ((catalog.method? id).map (·.effort)).getD 0

variable {catalog} {method : MethodSpec}

end MethodCatalog

end Compiled
