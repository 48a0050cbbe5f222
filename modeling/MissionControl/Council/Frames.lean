import MissionControl.Council.Service
import MissionControl.Interleaving.Discipline

/-! # What the programs call

Only `_drive` takes and gives back the lease, and only there does an engine call begin and
end. Everything else a request does, the engines included, is made of other calls. -/

namespace Council

open Canonical
open Interleaving (Program)
open Interleaving.Program (Only only_ret only_raise only_perform)

/-- The calls that `_drive` alone makes. -/
def Call.ofDrive : Call → Bool
  | .acquire_lease .. | .release_lease _ | .engine_begins | .engine_ends => true
  | _ => false

/-- A call of any other part. -/
def Call.Plain (c : Call) : Prop := c.ofDrive = false

instance (c : Call) : Decidable c.Plain := inferInstanceAs (Decidable (_ = _))

/-- A program without leases and engine calls. -/
abbrev Plainly {α : Type} (p : CouncilProgram α) : Prop := p.Only Call.Plain

/-- A call that writes no state of the council. -/
def Call.Unbound (c : Call) : Prop :=
  match c with
  | .append_checkpoint _ | .put_state _ | .write_scaffold .. => False
  | _ => True

/-- A call of an engine: it reads the row, asks the seats and writes checkpoints. -/
def Call.ofEngine : Call → Bool
  | .get_mission_row | .append_checkpoint _ | .get_state | .put_state _ | .george | .fable _ | .arty => true
  | _ => false

/-- A program of an engine. -/
abbrev Seated {α : Type} (p : CouncilProgram α) : Prop := p.Only fun (c : Call) => c.ofEngine = true

/-- A call that takes no mission out of its cancellation. -/
def Call.KeepsCancelled (c : Call) : Prop :=
  match c with
  | .compare_and_set_run_status .cancelled _ => False
  | _ => True

/-- A program that takes no mission out of its cancellation. -/
abbrev Lasting {α : Type} (p : CouncilProgram α) : Prop := p.Only Call.KeepsCancelled

/-- A program that only keeps the books: rows, statuses and approvals. -/
abbrev Booked {α : Type} (p : CouncilProgram α) : Prop :=
  p.Only fun (c : Call) => c.Plain ∧ c.Unbound

/-- A booked program that is lasting. -/
abbrev Orderly {α : Type} (p : CouncilProgram α) : Prop :=
  p.Only fun (c : Call) => (c.Plain ∧ c.Unbound) ∧ c.KeepsCancelled

/-- A plain program that is lasting. -/
abbrev Durably {α : Type} (p : CouncilProgram α) : Prop := p.Only fun (c : Call) => c.Plain ∧ c.KeepsCancelled

variable {α β : Type}

variable {c : Call} {f : c.Resp → CouncilProgram α}

theorem Plainly.call (hc : c.Plain) (hf : ∀ a, Plainly (f a)) : Plainly ((perform c).bind f) :=
  Only.bind (only_perform hc) hf

theorem Plainly.perform (hc : c.Plain) : Plainly (perform c) := only_perform hc

variable {p : CouncilProgram α}

theorem Seated.bind {f : α → CouncilProgram β} (hp : Seated p) (hf : ∀ a, Seated (f a)) : Seated (p.bind f) :=
  Only.bind hp hf

theorem Seated.call (hc : c.ofEngine = true) (hf : ∀ a, Seated (f a)) : Seated ((Council.perform c).bind f) :=
  Only.bind (only_perform hc) hf

theorem Seated.perform (hc : c.ofEngine = true) : Seated (Council.perform c) := only_perform hc

theorem plain_of_ofEngine (h : c.ofEngine = true) : c.Plain := by
  cases c <;> first | rfl | exact Bool.noConfusion h

theorem keepsCancelled_of_ofEngine (h : c.ofEngine = true) : c.KeepsCancelled := by
  cases c <;> trivial

theorem keepsCancelled_of_open {current new : RunStatus} (h : ¬current.terminal = true) :
    (Call.compare_and_set_run_status current new).KeepsCancelled := by
  cases current <;> trivial

theorem Seated.plainly (hp : Seated p) : Plainly p := hp.mono fun _ => plain_of_ofEngine

theorem Seated.lasting (hp : Seated p) : Lasting p :=
  hp.mono fun _ => keepsCancelled_of_ofEngine

theorem Booked.unbound (hp : Booked p) : p.Only Call.Unbound :=
  hp.mono fun _ h => h.2

theorem Orderly.booked (hp : Orderly p) : Booked p := hp.mono fun _ h => h.1

theorem Orderly.durably (hp : Orderly p) : Durably p := hp.mono fun _ h => ⟨h.1.1, h.2⟩

theorem Durably.plainly (hp : Durably p) : Plainly p := hp.mono fun _ h => h.1

theorem Durably.lasting (hp : Durably p) : Lasting p := hp.mono fun _ h => h.2

theorem Orderly.bind {f : α → CouncilProgram β} (hp : Orderly p) (hf : ∀ a, Orderly (f a)) : Orderly (p.bind f) :=
  Only.bind hp hf

theorem Orderly.call (hc : (c.Plain ∧ c.Unbound) ∧ c.KeepsCancelled) (hf : ∀ a, Orderly (f a)) :
    Orderly ((Council.perform c).bind f) :=
  Only.bind (only_perform hc) hf

theorem Orderly.perform (hc : (c.Plain ∧ c.Unbound) ∧ c.KeepsCancelled) : Orderly (Council.perform c) :=
  only_perform hc

theorem Durably.bind {f : α → CouncilProgram β} (hp : Durably p) (hf : ∀ a, Durably (f a)) :
    Durably (p.bind f) :=
  Only.bind hp hf

theorem Durably.call (hc : c.Plain ∧ c.KeepsCancelled) (hf : ∀ a, Durably (f a)) :
    Durably ((Council.perform c).bind f) :=
  Only.bind (only_perform hc) hf

theorem Durably.perform (hc : c.Plain ∧ c.KeepsCancelled) : Durably (Council.perform c) := only_perform hc

/-! ## The engines -/

theorem seated_seat_started : Seated seat_started := by
  refine Seated.call rfl fun row => ?_
  split
  · exact only_raise _
  · exact only_ret _

theorem seated_apply_strategy (state : CouncilState) (output : Value) : Seated (apply_strategy state output) :=
  Seated.call rfl fun _ => only_ret _

theorem seated_apply_audit (state : CouncilState) (output : RiskAssessment) :
    Seated (apply_audit state output) :=
  Seated.call rfl fun _ => only_ret _

theorem seated_apply_scaffold (state : CouncilState) (output : Scaffold) :
    Seated (apply_scaffold state output) :=
  Seated.call rfl fun _ => only_ret _

theorem seated_finish (state : CouncilState) (terminal : Option Terminal) : Seated (finish state terminal) := by
  refine Seated.call rfl fun _ => ?_
  cases terminal with
  | none => exact only_raise _
  | some terminal => exact only_ret _

theorem seated_prototype_step (state : CouncilState) : Seated (prototype_step state) := by
  apply seated_seat_started.bind
  intro _
  refine Seated.call rfl ?_
  exact seated_apply_scaffold state

theorem seated_strategy_step (state : CouncilState) : Seated (strategy_step state) := by
  apply seated_seat_started.bind
  intro _
  refine Seated.call rfl ?_
  exact seated_apply_strategy state

theorem seated_retrying {node : CouncilProgram α} (h : Seated node) : Seated (retrying node) := by
  apply Seated.bind (Only.attempt h)
  intro r
  match r with
  | .ok a => exact only_ret _
  | .error (.seatFailed code) =>
    show Seated (if code = "SEAT_TIMEOUT" then node else fail (.seatFailed code))
    split
    · exact h
    · exact only_raise _
  | .error .cancelled => exact only_raise _
  | .error .engineError => exact only_raise _
  | .error (.denied code) => exact only_raise _
  | .error (.mission code) => exact only_raise _

theorem seated_attempts {seats : CouncilProgram α} (h : Seated seats) (n : Nat) :
    Seated (attempts seats n) := by
  induction n with
  | zero => exact only_raise _
  | succ n ih =>
    apply Seated.bind (Only.attempt h)
    intro r
    match r with
    | .ok a => exact only_ret _
    | .error (.seatFailed code) => exact ih
    | .error .cancelled => exact only_raise _
    | .error .engineError => exact only_raise _
    | .error (.denied code) => exact only_raise _
    | .error (.mission code) => exact only_raise _

theorem seated_fromTerminal (terminal : Terminal) (state : CouncilState) :
    Seated (fromTerminal terminal state) :=
  Seated.perform rfl

theorem seated_fromArty (state : CouncilState) : Seated (fromArty state) := by
  apply (seated_retrying (seated_prototype_step state)).bind
  intro state
  refine Seated.call rfl fun _ => ?_
  exact seated_fromTerminal _ _

theorem seated_onState {run : CouncilState → CouncilProgram EngineStep} (h : ∀ state, Seated (run state))
    (state : Option CouncilState) : Seated (onState state run) := by
  cases state with
  | none => exact only_raise _
  | some state => exact h state

section

variable [Sha256]

theorem seated_await_gate (state : CouncilState) : Seated (await_gate state) :=
  Seated.call rfl fun _ => only_ret _

theorem seated_fromGate (state : CouncilState) (decision : Option Decision) :
    Seated (fromGate state decision) := by
  cases decision with
  | none => exact Seated.perform rfl
  | some decision =>
    show Seated (if _ then _ else _)
    split
    · exact Seated.call rfl fun _ => seated_fromArty _
    · exact Seated.call rfl fun _ => seated_fromTerminal _ _

section

variable [TextRules]

omit [Sha256] in
theorem seated_audit_step (state : CouncilState) : Seated (audit_step state) := by
  apply seated_seat_started.bind
  intro _
  refine Seated.call rfl fun output => ?_
  exact seated_apply_audit state _

theorem seated_fromFable (state : CouncilState) : Seated (fromFable state) := by
  apply (seated_retrying (seated_audit_step state)).bind
  intro state
  cases state.risk with
  | none => exact only_raise _
  | some risk =>
    refine Seated.call rfl fun _ => ?_
    split
    · exact seated_fromTerminal _ _
    · split
      · exact seated_fromGate _ _
      · exact seated_fromArty _

theorem seated_fromGeorge (state : CouncilState) : Seated (fromGeorge state) := by
  apply (seated_retrying (seated_strategy_step state)).bind
  intro state
  refine Seated.call rfl fun _ => ?_
  exact seated_fromFable _

theorem seated_fromNode (state : CouncilState) (decision : Option Decision) (n : Node) :
    Seated (fromNode state decision n) := by
  cases n with
  | george => exact seated_fromGeorge _
  | fable => exact seated_fromFable _
  | sentinel_gate => exact seated_fromGate _ _
  | arty => exact seated_fromArty _
  | complete => exact seated_fromTerminal _ _
  | rejected => exact seated_fromTerminal _ _
  | blocked => exact seated_fromTerminal _ _
  | ended => exact only_ret _

theorem seated_invoke_graph (payload : Payload) : Seated (invoke_graph payload) := by
  cases payload with
  | input state => exact Seated.call rfl fun _ => seated_fromGeorge _
  | goOn decision =>
    refine Seated.call rfl fun native => ?_
    cases native with
    | none => exact only_raise _
    | some native => exact seated_fromNode _ _ _

theorem seated_run (payload : Payload) : Seated (_run payload) := by
  apply (seated_invoke_graph payload).bind
  intro _
  refine Seated.call rfl fun native => ?_
  cases native with
  | none => exact only_raise _
  | some native =>
    show Seated (if _ then _ else _)
    split
    · exact seated_await_gate _
    · exact seated_finish _ _

section

variable [Settings]

omit [Sha256] [TextRules] in
theorem seated_prototype (engine : Engine) (state : CouncilState) : Seated (prototype engine state) := by
  cases engine with
  | autogen =>
    have hseat : Seated (do seat_started; perform .arty) :=
      seated_seat_started.bind fun _ => Seated.perform rfl
    exact (seated_attempts hseat _).bind (seated_apply_scaffold state)
  | langgraph => exact seated_prototype_step state
  | crewai => exact seated_prototype_step state

omit [Sha256] [TextRules] in
theorem seated_phase_b (engine : Engine) (state : CouncilState) : Seated (_phase_b engine state) :=
  (seated_prototype engine state).bind fun state => seated_finish state _

omit [TextRules] in
theorem seated_route (engine : Engine) (state : CouncilState) : Seated (_route engine state) := by
  unfold _route
  split
  · exact only_raise _
  · split
    · exact seated_finish _ _
    · split
      · exact seated_await_gate _
      · exact seated_phase_b _ _

omit [Sha256] in
theorem seated_strategyAndAudit (engine : Engine) (state : CouncilState) :
    Seated (strategyAndAudit engine state) := by
  have hcrew : Seated ((strategy_step state).bind audit_step) :=
    (seated_strategy_step state).bind seated_audit_step
  cases engine with
  | autogen =>
    have hseats : Seated (do
        seat_started
        let strategy ← perform .george
        let output ← perform (.fable (policy_for state))
        return (strategy, output)) :=
      seated_seat_started.bind fun _ => Seated.call rfl fun _ => Seated.call rfl fun _ => only_ret _
    apply (seated_attempts hseats _).bind
    intro said
    apply (seated_apply_strategy _ _).bind
    intro state
    exact seated_seat_started.bind fun _ => seated_apply_audit _ _
  | langgraph => exact hcrew
  | crewai => exact hcrew

theorem seated_phase_a (engine : Engine) (state : CouncilState) : Seated (_phase_a engine state) :=
  (seated_strategyAndAudit engine state).bind (seated_route engine)

omit [TextRules] in
theorem seated_resume_phase (engine : Engine) (state : CouncilState) (decision : Decision) :
    Seated (resume_phase engine state decision) := by
  show Seated (if _ then _ else _)
  split
  · exact seated_phase_b _ _
  · exact seated_finish _ _

theorem seated_recover_phase (engine : Engine) (state : CouncilState) :
    Seated (recover_phase engine state) := by
  unfold recover_phase
  split
  · exact seated_finish _ _
  · split
    · exact seated_phase_b _ _
    · exact seated_finish _ _
  · exact seated_await_gate _
  · split
    · exact seated_route _ _
    · exact seated_phase_a _ _

theorem seated_start (engine : Engine) (state : Option CouncilState) : Seated (engine.start state) := by
  apply seated_onState
  intro state
  cases engine with
  | langgraph => exact seated_run _
  | crewai => exact seated_phase_a _ _
  | autogen => exact seated_phase_a _ _

theorem seated_resume (engine : Engine) (decision : Decision) (state : Option CouncilState) :
    Seated (engine.resume decision state) := by
  cases engine with
  | langgraph => exact seated_run _
  | crewai => exact seated_onState (fun state => seated_resume_phase _ state _) state
  | autogen => exact seated_onState (fun state => seated_resume_phase _ state _) state

theorem seated_recover_graph (state : Option CouncilState) : Seated (recover_graph state) := by
  refine Seated.call rfl fun native => ?_
  cases native with
  | none => exact seated_start _ _
  | some native =>
    show Seated (if _ then _ else if _ then _ else _)
    split
    · exact seated_await_gate _
    · split
      · exact seated_finish _ _
      · exact seated_run _

theorem seated_recover (engine : Engine) (state : Option CouncilState) : Seated (engine.recover state) := by
  cases engine with
  | langgraph => exact seated_recover_graph state
  | crewai => exact seated_onState (seated_recover_phase _) state
  | autogen => exact seated_onState (seated_recover_phase _) state

theorem plainly_start (engine : Engine) (state : Option CouncilState) : Plainly (engine.start state) :=
  (seated_start engine state).plainly

theorem plainly_resume (engine : Engine) (decision : Decision) (state : Option CouncilState) :
    Plainly (engine.resume decision state) :=
  (seated_resume engine decision state).plainly

theorem plainly_recover (engine : Engine) (state : Option CouncilState) : Plainly (engine.recover state) :=
  (seated_recover engine state).plainly

end

end

/-! ## Settling -/

section
omit [Sha256]

theorem orderly_transition (to_status : RunStatus) : Orderly (_transition to_status) := by
  refine Orderly.call ⟨⟨rfl, trivial⟩, trivial⟩ fun current => ?_
  split
  · exact only_ret _
  · split
    · exact only_ret _
    · rename_i hopen
      exact Orderly.perform ⟨⟨rfl, trivial⟩, keepsCancelled_of_open hopen⟩

theorem orderly_fail (code : String) : Orderly (_fail code) :=
  Orderly.call ⟨⟨rfl, trivial⟩, trivial⟩ fun _ => Orderly.call ⟨⟨rfl, trivial⟩, trivial⟩ fun _ => (orderly_transition _).bind fun _ => only_ret _

theorem orderly_check_approval (row : MissionRow) (requested : List RequestedAction)
    (approval_id : String) : Orderly (_check_approval row requested approval_id) := by
  unfold _check_approval
  split
  · exact only_raise _
  · refine Orderly.call ⟨⟨rfl, trivial⟩, trivial⟩ fun approval => ?_
    cases approval with
    | none => exact only_raise _
    | some approval =>
      dsimp only
      split
      · exact only_raise _
      · exact only_ret _

end

theorem durably_invoke (row : MissionRow) (state : CouncilState) (approval_id : String) :
    Durably (invoke row state approval_id) := by
  refine Durably.call ⟨rfl, trivial⟩ fun _ => ?_
  apply (orderly_check_approval _ _ _).durably.bind
  intro _
  exact Durably.call ⟨rfl, trivial⟩ fun _ => Durably.perform ⟨rfl, trivial⟩

section
omit [Sha256]

theorem orderly_rowApproval (row : MissionRow) : Orderly (rowApproval row) := by
  unfold rowApproval
  split
  · exact Orderly.perform ⟨⟨rfl, trivial⟩, trivial⟩
  · exact only_ret _

theorem orderly_gateApproval (row : MissionRow) (gate : Gate) : Orderly (gateApproval row gate) := by
  have hnew : Orderly (do
      return some (← perform (.create_approval_request gate.subject_hash))) :=
    Orderly.call ⟨⟨rfl, trivial⟩, trivial⟩ fun _ => only_ret _
  apply (orderly_rowApproval row).bind
  intro existing
  cases existing with
  | none => exact hnew
  | some approval =>
    show Orderly (if _ then if _ then _ else _ else _)
    split
    · split
      · exact only_ret _
      · exact Orderly.call ⟨⟨rfl, trivial⟩, trivial⟩ fun _ => hnew
    · exact hnew

theorem orderly_complete : Orderly complete :=
  Orderly.call ⟨⟨rfl, trivial⟩, trivial⟩ fun _ => Orderly.call ⟨⟨rfl, trivial⟩, trivial⟩ fun _ => (orderly_transition _).bind fun _ => only_ret _

theorem orderly_applyGate (row : MissionRow) (gate : Gate) : Orderly (applyGate row gate) := by
  apply (orderly_gateApproval row gate).bind
  intro approval_id
  exact Orderly.call ⟨⟨rfl, trivial⟩, trivial⟩ fun _ => (orderly_transition _).bind fun _ => only_ret _

theorem orderly_applyEnded (row : MissionRow) : Orderly (applyEnded row) :=
  Orderly.call ⟨⟨rfl, trivial⟩, trivial⟩ fun _ => (orderly_transition _).bind fun _ => only_ret _

end

theorem durably_applyCompleted (row : MissionRow) (state : CouncilState) :
    Durably (applyCompleted row state) := by
  unfold applyCompleted
  split
  · split
    · split
      · exact (durably_invoke _ _ _).bind fun _ => orderly_complete.durably
      · exact (orderly_fail _).durably
    · exact (orderly_fail _).durably
  · exact orderly_complete.durably

theorem durably_apply (step : EngineStep) : Durably (_apply step) := by
  refine Durably.call ⟨rfl, trivial⟩ fun row => ?_
  obtain ⟨status, state⟩ := step
  cases status with
  | AWAITING_APPROVAL gate => exact (orderly_applyGate row gate).durably
  | COMPLETED => exact durably_applyCompleted _ _
  | REJECTED => exact (orderly_applyEnded row).durably
  | BLOCKED => exact (orderly_applyEnded row).durably

theorem orderly_failed (e : Err) : Orderly (settle (.error e)) := by
  cases e with
  | cancelled => exact (orderly_transition _).bind fun _ => only_ret _
  | seatFailed code => exact orderly_fail _
  | denied code => exact orderly_fail _
  | engineError => exact orderly_fail _
  | mission code => exact orderly_fail _

theorem durably_settle (ended : Except Err EngineStep) : Durably (settle ended) := by
  cases ended with
  | ok step => exact durably_apply step
  | error e => exact (orderly_failed e).durably

end

/-! ## The requests that drive nothing -/

theorem orderly_startResuming (approval : Approval) : Orderly (startResuming approval) := by
  unfold startResuming
  split
  · exact Orderly.perform ⟨⟨rfl, trivial⟩, trivial⟩
  · exact only_ret _

theorem orderly_cancel : Orderly cancel := by
  have hretire (row : MissionRow) : Orderly (retirePending row) := by
    apply (orderly_rowApproval row).bind
    intro approval
    cases approval with
    | none => exact only_ret _
    | some approval =>
      show Orderly (if _ then _ else _)
      split
      · exact Orderly.perform ⟨⟨rfl, trivial⟩, trivial⟩
      · exact only_ret _
  refine Orderly.call ⟨⟨rfl, trivial⟩, trivial⟩ fun row => ?_
  refine Orderly.call ⟨⟨rfl, trivial⟩, trivial⟩ fun status => ?_
  split
  · exact only_raise _
  · rename_i hopen
    refine Orderly.call ⟨⟨rfl, trivial⟩, trivial⟩ fun _ => ?_
    split
    · exact (hretire row).bind fun _ =>
        Orderly.call ⟨⟨rfl, trivial⟩, keepsCancelled_of_open hopen⟩ fun _ => only_ret _
    · exact only_ret _

theorem orderly_decide_approval (approval_id reviewer : String) (approve : Bool) :
    Orderly (decide_approval approval_id reviewer approve) := by
  refine Orderly.call ⟨⟨rfl, trivial⟩, trivial⟩ fun approval => ?_
  cases approval with
  | none => exact only_raise _
  | some approval =>
    refine Orderly.call ⟨⟨rfl, trivial⟩, trivial⟩ fun status => ?_
    split
    · exact only_raise _
    · split
      · exact only_raise _
      · refine Orderly.call ⟨⟨rfl, trivial⟩, trivial⟩ fun resolved => ?_
        split
        · split
          · exact only_ret _
          · refine Orderly.call ⟨⟨rfl, trivial⟩, trivial⟩ fun moved => ?_
            split
            · exact only_ret _
            · exact only_raise _
        · exact only_raise _

end Council
