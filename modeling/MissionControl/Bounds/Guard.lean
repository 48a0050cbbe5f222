import MissionControl.Python.Text
import Mathlib

/-! # The session guard

A guard stands in front of every tool call of one session. It admits a call or
refuses it, and is told the outcome of the calls it admitted. Refusals that show an
anomaly are strikes; enough strikes halt the session. -/

namespace Bounds

/-- Readings of a clock, and durations between them. Of a difference only its
    monotonicity is used, which rounding preserves. -/
class Clock (τ : Type) extends LinearOrder τ, Zero τ, NatCast τ, Sub τ where
  sub_le_sub : ∀ {a b : τ} (c : τ), a ≤ b → a - c ≤ b - c
  sub_le_sub_swap : ∀ {a b : τ} (c : τ), a ≤ b → c - b ≤ c - a
  natCast_pos : ∀ {n : ℕ}, 0 < n → (0 : τ) < (n : τ)
  /-- `f"{seconds:g}"` -/
  format_g : τ → String

/-- Whole seconds. -/
@[reducible] def instClockInt : Clock ℤ where
  toLinearOrder := Int.instLinearOrder
  sub_le_sub c h := Int.sub_le_sub_right h c
  sub_le_sub_swap c h := Int.sub_le_sub_left h c
  natCast_pos h := Int.natCast_pos.mpr h
  format_g := toString

-- integers are seconds in this namespace only
attribute [scoped instance] instClockInt

/-! ## Limits -/

def MAX_DEPTH : Int := 12
def RETRY_LIMIT : Int := 3
def SESSION_TIMEOUT_S : ℕ := 300
def MAX_CALLS : Int := 60
def FAILURE_THRESHOLD : Int := 3
def COOLDOWN_S : ℕ := 60
def MAX_STRIKES : Int := 3
def WINDOW_S : ℕ := 10
def MAX_CALLS_PER_WINDOW : Int := 20
def MAX_NOVEL_TOOLS : Int := 8
def DRIFT_WINDOW : Int := 3
def MIN_DRIFT_TERMS : ℕ := 3
def MAX_CONSECUTIVE_REFUSALS : Int := 5
def MAX_SESSION_SPAWNS : Int := 2

variable {τ : Type} [Clock τ]

structure Limits (τ : Type) [Clock τ] where
  max_depth : Int := MAX_DEPTH
  retry_limit : Int := RETRY_LIMIT
  session_timeout_s : τ := (SESSION_TIMEOUT_S : τ)
  max_calls : Int := MAX_CALLS
  failure_threshold : Int := FAILURE_THRESHOLD
  cooldown_s : τ := (COOLDOWN_S : τ)
  max_strikes : Int := MAX_STRIKES
  window_s : τ := (WINDOW_S : τ)
  max_calls_per_window : Int := MAX_CALLS_PER_WINDOW
  max_novel_tools : Int := MAX_NOVEL_TOOLS
  drift_window : Int := DRIFT_WINDOW
  max_consecutive_refusals : Int := MAX_CONSECUTIVE_REFUSALS
  max_session_spawns : Int := MAX_SESSION_SPAWNS

/-- `__post_init__`: the limits the constructor admits, or the text it raises. -/
def Limits.post_init (l : Limits τ) : Except String Unit :=
  if ¬ (1 ≤ l.max_depth ∧ l.max_depth ≤ 12) then
    .error "max_depth must be between 1 and 12"
  else if ¬ (0 ≤ l.retry_limit ∧ l.retry_limit ≤ 3) then
    .error "retry_limit must be between 0 and 3"
  else if l.session_timeout_s ≤ 0 ∨ l.max_calls < 1 ∨ l.failure_threshold < 1 ∨ l.cooldown_s ≤ 0 then
    .error "limits must be positive"
  else if l.max_strikes < 1 ∨ l.window_s ≤ 0 ∨ l.max_calls_per_window < 1 ∨ l.max_novel_tools < 1 then
    .error "anomaly limits must be positive"
  else if l.drift_window < 1 ∨ l.max_consecutive_refusals < 1 ∨ l.max_session_spawns < 0 then
    .error "anomaly limits must be positive"
  else
    .ok ()

def Limits.max_identical (l : Limits τ) : Int := l.retry_limit + 1

/-! ## Refusals -/

inductive Code where
  | SESSION_HALTED | SESSION_TIMEOUT | DEPTH_EXCEEDED | CALL_BUDGET_EXHAUSTED | LOOP_DETECTED
  | CIRCUIT_OPEN | VELOCITY_EXCEEDED | TOOL_SPRAWL | GOAL_DRIFT | REFUSAL_STREAK
  | REPLICATION_DETECTED
  deriving DecidableEq

def Code.value : Code → String
  | SESSION_HALTED => "SESSION_HALTED"
  | SESSION_TIMEOUT => "SESSION_TIMEOUT"
  | DEPTH_EXCEEDED => "DEPTH_EXCEEDED"
  | CALL_BUDGET_EXHAUSTED => "CALL_BUDGET_EXHAUSTED"
  | LOOP_DETECTED => "LOOP_DETECTED"
  | CIRCUIT_OPEN => "CIRCUIT_OPEN"
  | VELOCITY_EXCEEDED => "VELOCITY_EXCEEDED"
  | TOOL_SPRAWL => "TOOL_SPRAWL"
  | GOAL_DRIFT => "GOAL_DRIFT"
  | REFUSAL_STREAK => "REFUSAL_STREAK"
  | REPLICATION_DETECTED => "REPLICATION_DETECTED"

def STRIKE_CODES : List Code :=
  [.VELOCITY_EXCEEDED, .TOOL_SPRAWL, .GOAL_DRIFT, .REFUSAL_STREAK, .REPLICATION_DETECTED]

structure BoundViolation where
  code : Code
  detail : String

/-- `str(exc)` -/
def BoundViolation.text (exc : BoundViolation) : String := exc.code.value ++ ": " ++ exc.detail

/-! ## The guard -/

inductive BreakerState where
  | CLOSED | OPEN | HALF_OPEN
  deriving DecidableEq

structure Breaker (τ : Type) [Clock τ] where
  state : BreakerState := .CLOSED
  failures : Int := 0
  opened_at : τ := 0
  probing : Bool := false

/-- What a cleared halt leaves behind. -/
structure Clear where
  owner : String
  note : String
  halt_reason : String
  strikes : List Code

/-- The state of a guard. Its limits passed the constructor's checks. -/
structure SessionGuard (τ : Type) [Clock τ] where
  limits : Limits τ
  checked : limits.post_init = .ok ()
  started : τ
  calls : Int
  identical : String × String → Int
  breakers : String → Option (Breaker τ)
  seen_tools : List String
  window : List τ
  drift_run : Int
  refusal_run : Int
  spawns : Int
  strikes : List Code
  halted : Bool
  halt_reason : String
  clears : List Clear

/-- A new guard: `limits` the constructor admits, and the clock as it reads now. -/
def SessionGuard.new (limits : Limits τ) (checked : limits.post_init = .ok ()) (now : τ) :
    SessionGuard τ where
  limits
  checked
  started := now
  calls := 0
  identical := fun _ => 0
  breakers := fun _ => none
  seen_tools := []
  window := []
  drift_run := 0
  refusal_run := 0
  spawns := 0
  strikes := []
  halted := false
  halt_reason := ""
  clears := []

namespace SessionGuard

/-- `self._breakers.get(node, _Breaker())` -/
def breaker (g : SessionGuard τ) (node : String) : Breaker τ := (g.breakers node).getD {}

def breaker_state (g : SessionGuard τ) (node : String) : BreakerState := (g.breaker node).state

/-- `self._breakers[node] = breaker` -/
def setBreaker (g : SessionGuard τ) (node : String) (b : Breaker τ) : SessionGuard τ :=
  { g with breakers := Function.update g.breakers node (some b) }

end SessionGuard

/-! ## Goal terms -/

def STOP : List String :=
  ["that", "this", "with", "from", "into", "have", "will", "should", "about", "their", "there",
   "which", "where", "when", "what", "them", "they", "then", "than", "also", "make", "need"]

/-- The content terms of a text: runs of at least four letters, in lower case. -/
def objective_terms (text : String) : List String :=
  let letters := Python.runs (fun c => 'a' ≤ c && c ≤ 'z') (text.toList.flatMap Python.lowerLetters)
  (((letters.filter (4 ≤ ·.length)).map String.ofList).filter (· ∉ STOP)).dedup

/-! ## Admission -/

/-- The arguments of `admit`. -/
structure Call where
  node : String
  args_hash : String
  depth : Int := 1
  objective : List String := []
  text : String := ""
  spawns_session : Bool := false

namespace SessionGuard

/-- An open breaker that has cooled down admits one probe. A refusal here changes
    nothing. -/
def _check_bounds (g : SessionGuard τ) (now : τ) (c : Call) :
    Except BoundViolation (SessionGuard τ) :=
  if g.limits.session_timeout_s < now - g.started then
    .error ⟨.SESSION_TIMEOUT, s!"session exceeded {Clock.format_g g.limits.session_timeout_s}s"⟩
  else if g.limits.max_depth < c.depth then
    .error ⟨.DEPTH_EXCEEDED, s!"depth {c.depth} > {g.limits.max_depth}"⟩
  else if g.limits.max_calls ≤ g.calls then
    .error ⟨.CALL_BUDGET_EXHAUSTED, s!"{g.limits.max_calls} calls already admitted"⟩
  else if g.limits.max_identical < g.identical (c.node, c.args_hash) + 1 then
    .error ⟨.LOOP_DETECTED,
      s!"{c.node} repeated with identical arguments more than {g.limits.max_identical} times"⟩
  else
    let breaker := g.breaker c.node
    if breaker.state = .OPEN then
      if now - breaker.opened_at < g.limits.cooldown_s then
        .error ⟨.CIRCUIT_OPEN, s!"{c.node} is cooling down"⟩
      else
        .ok (g.setBreaker c.node { breaker with state := .HALF_OPEN, probing := false })
    else if breaker.state = .HALF_OPEN ∧ breaker.probing then
      .error ⟨.CIRCUIT_OPEN, s!"{c.node} is already probing after cooldown"⟩
    else
      .ok (g.setBreaker c.node breaker)

/-- The drift run a call would leave. -/
def nextDrift (g : SessionGuard τ) (c : Call) : Int :=
  let terms := objective_terms c.text
  if c.objective ≠ [] ∧ MIN_DRIFT_TERMS ≤ terms.length then
    if terms.any (· ∈ c.objective) then 0 else g.drift_run + 1
  else
    g.drift_run

/-- The admissions of the last `window_s` seconds. -/
def recent (g : SessionGuard τ) (now : τ) : List τ :=
  g.window.filter fun t => now - t ≤ g.limits.window_s

/-- What the call's drift run will be, once it is admitted. The drift run itself is
    limited only where this call was compared with the objective. -/
def _check_anomalies (g : SessionGuard τ) (now : τ) (c : Call) : Except BoundViolation Int :=
  if g.limits.max_calls_per_window ≤ (g.recent now).length then
    .error ⟨.VELOCITY_EXCEEDED,
      s!"more than {g.limits.max_calls_per_window} calls in {Clock.format_g g.limits.window_s}s"⟩
  else if c.node ∉ g.seen_tools ∧ g.limits.max_novel_tools ≤ g.seen_tools.length then
    .error ⟨.TOOL_SPRAWL,
      s!"more than {g.limits.max_novel_tools} distinct tools in one session"⟩
  else if c.spawns_session ∧ g.limits.max_session_spawns ≤ g.spawns then
    .error ⟨.REPLICATION_DETECTED, "session-spawning calls exceed the session allowance"⟩
  else if c.objective ≠ [] ∧ MIN_DRIFT_TERMS ≤ (objective_terms c.text).length ∧
      g.limits.drift_window ≤ g.nextDrift c then
    .error ⟨.GOAL_DRIFT, s!"{g.nextDrift c} consecutive calls share no term with the objective"⟩
  else
    .ok (g.nextDrift c)

def _strike (g : SessionGuard τ) (code : Code) : SessionGuard τ :=
  let strikes := g.strikes ++ [code]
  if ¬ g.halted ∧ g.limits.max_strikes ≤ strikes.length then
    { g with strikes, halted := true, halt_reason := ", ".intercalate (strikes.map Code.value) }
  else
    { g with strikes }

/-- The handler of `admit`: a refusal lengthens the run of refusals and may be a strike. -/
def refuse (g : SessionGuard τ) (exc : BoundViolation) : SessionGuard τ :=
  let g := { g with refusal_run := g.refusal_run + 1 }
  if exc.code ∈ STRIKE_CODES then
    g._strike exc.code
  else if g.limits.max_consecutive_refusals ≤ g.refusal_run then
    g._strike .REFUSAL_STREAK
  else
    g

/-- The last part of `admit`: every check passed. -/
def commit (g : SessionGuard τ) (now : τ) (c : Call) (drift_run : Int) : SessionGuard τ :=
  let breaker := g.breaker c.node
  { g with
    window := (g.window ++ [now]).dropWhile fun t => g.limits.window_s < now - t
    seen_tools := if c.node ∈ g.seen_tools then g.seen_tools else g.seen_tools ++ [c.node]
    drift_run
    spawns := g.spawns + if c.spawns_session then 1 else 0
    refusal_run := 0
    breakers := Function.update g.breakers c.node
      (some (if breaker.state = .HALF_OPEN then { breaker with probing := true } else breaker))
    identical := Function.update g.identical (c.node, c.args_hash)
      (g.identical (c.node, c.args_hash) + 1)
    calls := g.calls + 1 }

/-- `admit`, with the clock as the checks and the commit read it. -/
def admitCall (g : SessionGuard τ) (c : Call) (bounds_now anomalies_now commit_now : τ) :
    SessionGuard τ × Except BoundViolation Unit :=
  if g.halted then
    (g, .error ⟨.SESSION_HALTED, "session halted: " ++ g.halt_reason⟩)
  else
    match g._check_bounds bounds_now c with
    | .error exc => (g.refuse exc, .error exc)
    | .ok g =>
      match g._check_anomalies anomalies_now c with
      | .error exc => (g.refuse exc, .error exc)
      | .ok drift_run => (g.commit commit_now c drift_run, .ok ())

/-! ## Outcomes and clears -/

/-- `owner` is nothing where it is not a string. -/
def clear_halt (g : SessionGuard τ) (owner : Option String) (note : String) :
    SessionGuard τ × Except String Clear :=
  match owner with
  | none => (g, .error "clear_halt needs a named human owner")
  | some owner =>
    if Python.blank owner ∨
        (Python.strip owner).toLower ∈ ["service", "system", "agent"] then
      (g, .error "clear_halt needs a named human owner")
    else if Python.blank note then
      (g, .error "clear_halt needs a note explaining the decision")
    else
      let record : Clear :=
        { owner := Python.strip owner
          note := String.ofList ((Python.strip note).toList.take 300)
          halt_reason := g.halt_reason
          strikes := g.strikes }
      ({ g with
          clears := g.clears ++ [record]
          halted := false
          halt_reason := ""
          strikes := []
          refusal_run := 0
          drift_run := 0 }, .ok record)

/-- The outcome of a call that was admitted; the clock is read where a breaker opens. -/
def record (g : SessionGuard τ) (node : String) (ok : Bool) (now : τ) : SessionGuard τ :=
  let breaker := g.breaker node
  if ok then
    g.setBreaker node { breaker with state := .CLOSED, failures := 0, probing := false }
  else
    let breaker := { breaker with failures := breaker.failures + 1, probing := false }
    if breaker.state = .HALF_OPEN ∨ g.limits.failure_threshold ≤ breaker.failures then
      g.setBreaker node { breaker with state := .OPEN, opened_at := now }
    else
      g.setBreaker node breaker

end SessionGuard

theorem Limits.default_admitted : ({} : Limits τ).post_init = .ok () := by
  have hpos : ∀ {n : ℕ}, 0 < n → ¬ ((n : τ) ≤ 0) := fun h => not_le.mpr (Clock.natCast_pos h)
  have htimeout : ¬ ((SESSION_TIMEOUT_S : τ) ≤ 0) := hpos (by decide)
  have hcooldown : ¬ ((COOLDOWN_S : τ) ≤ 0) := hpos (by decide)
  have hwindow : ¬ ((WINDOW_S : τ) ≤ 0) := hpos (by decide)
  simp [Limits.post_init, htimeout, hcooldown, hwindow, MAX_DEPTH, RETRY_LIMIT, MAX_CALLS,
    FAILURE_THRESHOLD, MAX_STRIKES, MAX_CALLS_PER_WINDOW, MAX_NOVEL_TOOLS, DRIFT_WINDOW,
    MAX_CONSECUTIVE_REFUSALS, MAX_SESSION_SPAWNS]

end Bounds
