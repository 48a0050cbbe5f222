import MissionControl.Council.Binding

/-! # The engines keep states sound

From a sound state every engine checkpoints sound states only, and returns one. The seats
before the gate need a state without an approval; the gate and what comes after it do not
touch what the approval binds. -/

namespace Council

open Canonical
open Interleaving

variable [Sha256] [TextRules] [Settings] {mission : Mission}
variable {m m' : CouncilStage} {i : Nat} {state : CouncilState} {α : Type}

/-! ## Seats -/

theorem keeps_apply_strategy (h : Good mission state m) (hopen : Open state m) (output : Value) :
    Keeps mission i m (apply_strategy state output) fun state' m' =>
      (Good mission state' m' ∧ Open state' m') ∧ policy_for state' = policy_for state := by
  have hgood := h.strategy hopen output
  apply keeps_append hgood
  intro m₁ h₁
  apply Keeps.ret
  intro m₂ h₂
  exact ⟨⟨hgood.later (h₁.trans h₂), hopen.later (h₁.trans h₂)⟩, rfl⟩

theorem keeps_apply_audit (h : Good mission state m) (hopen : Open state m) (output : ModelOutput) :
    Keeps mission i m (apply_audit state (merge_model_findings (policy_for state) output))
      fun state' m' => Good mission state' m' := by
  have hgood := h.audited hopen output
  apply keeps_append hgood
  intro m₁ h₁
  apply Keeps.ret
  intro m₂ h₂
  exact hgood.later (h₁.trans h₂)

theorem keeps_apply_scaffold (h : Good mission state m) (output : Scaffold) :
    Keeps mission i m (apply_scaffold state output) fun state' m' => Good mission state' m' := by
  have hgood := h.scaffolded output
  apply keeps_append hgood
  intro m₁ h₁
  apply Keeps.ret
  intro m₂ h₂
  exact hgood.later (h₁.trans h₂)

theorem keeps_finish (h : Good mission state m) (terminal : Option Terminal) :
    Keeps mission i m (finish state terminal) fun step m' => Good mission step.state m' := by
  have hgood := h.ended terminal
  apply keeps_append hgood
  intro m₁ h₁
  cases terminal with
  | none => exact Keeps.raise
  | some terminal =>
    apply Keeps.ret
    intro m₂ h₂
    exact hgood.later (h₁.trans h₂)

theorem keeps_await_gate (h : Good mission state m) :
    Keeps mission i m (await_gate state) fun step m' => Good mission step.state m' := by
  have hgood := h.gated (some (gate_request state))
  apply keeps_append hgood
  intro m₁ h₁
  apply Keeps.ret
  intro m₂ h₂
  exact hgood.later (h₁.trans h₂)

variable {P : α → CouncilStage → Prop}

theorem keeps_asked {c : Call} {f : c.Resp → CouncilProgram α} (hc : c.Unbound)
    (hf : ∀ r m', Later m m' → Keeps mission i m' (f r) P) : Keeps mission i m ((perform c).bind f) P := by
  refine Keeps.call (fun m' _ _ => binds_of_unbound hc) ?_
  intro m' o r h _ _ _
  exact hf r _ (h.trans (later_perform c o))

theorem keeps_strategy_step (h : Good mission state m) (hopen : Open state m) :
    Keeps mission i m (strategy_step state) fun state' m' =>
      Good mission state' m' ∧ Open state' m' := by
  apply keeps_seat_started.bind
  intro _ m₁ h₁ _
  refine keeps_asked trivial fun output m₂ h₂ => ?_
  have hstep := keeps_apply_strategy (i := i) (h.later (h₁.trans h₂)) (hopen.later (h₁.trans h₂)) output
  exact hstep.mono fun _ _ _ hstate => hstate.1

theorem keeps_audit_step (h : Good mission state m) (hopen : Open state m) :
    Keeps mission i m (audit_step state) fun state' m' => Good mission state' m' := by
  apply keeps_seat_started.bind
  intro _ m₁ h₁ _
  refine keeps_asked trivial fun output m₂ h₂ => ?_
  exact keeps_apply_audit (h.later (h₁.trans h₂)) (hopen.later (h₁.trans h₂)) output

theorem keeps_prototype_step (h : Good mission state m) :
    Keeps mission i m (prototype_step state) fun state' m' => Good mission state' m' := by
  apply keeps_seat_started.bind
  intro _ m₁ h₁ _
  refine keeps_asked trivial fun output m₂ h₂ => ?_
  exact keeps_apply_scaffold (h.later (h₁.trans h₂)) output

theorem keeps_retrying {node : CouncilProgram α} (hnode : ∀ m', Later m m' → Keeps mission i m' node P)
    (hP : ∀ a m₁ m₂, Later m₁ m₂ → P a m₁ → P a m₂) : Keeps mission i m (retrying node) P := by
  refine Keeps.attempt_bind (hnode m (.refl m)) ?_ ?_
  · intro a m₁ _ ha
    exact Keeps.ret fun m₂ h₂ => hP a m₁ m₂ h₂ ha
  · intro e m₁ h₁
    cases e with
    | seatFailed code =>
      show Keeps mission i m₁ (if code = "SEAT_TIMEOUT" then node else fail (.seatFailed code)) P
      split
      · exact hnode m₁ h₁
      · exact Keeps.raise
    | cancelled => exact Keeps.raise
    | engineError => exact Keeps.raise
    | denied code => exact Keeps.raise
    | mission code => exact Keeps.raise

theorem keeps_attempts {seats : CouncilProgram α} (hseats : ∀ m', Later m m' → Keeps mission i m' seats P)
    (hP : ∀ a m₁ m₂, Later m₁ m₂ → P a m₁ → P a m₂) (n : Nat) : Keeps mission i m (attempts seats n) P := by
  induction n generalizing m with
  | zero => exact Keeps.raise
  | succ n ih =>
    refine Keeps.attempt_bind (hseats m (.refl m)) ?_ ?_
    · intro a m₁ _ ha
      exact Keeps.ret fun m₂ h₂ => hP a m₁ m₂ h₂ ha
    · intro e m₁ h₁
      cases e with
      | seatFailed code => exact ih fun m' h' => hseats m' (h₁.trans h')
      | cancelled => exact Keeps.raise
      | engineError => exact Keeps.raise
      | denied code => exact Keeps.raise
      | mission code => exact Keeps.raise

/-! ## The graph engine -/

variable {native : Native}

variable {f : Unit → CouncilProgram α}

theorem keeps_put (h : Good mission native.values m) (hlate : native.next.early = false)
    (hf : ∀ m', Later m m' → Keeps mission i m' (f ()) P) :
    Keeps mission i m ((perform (.put_state native)).bind f) P := by
  refine Keeps.call ?_ fun m' o _ h' _ _ _ => hf _ (h'.trans (later_perform _ o))
  intro m' h' _ hclean
  refine ⟨h.later h' hclean, fun hearly => ?_⟩
  rw [hlate] at hearly
  cases hearly

theorem keeps_put_open (h : Good mission native.values m) (hopen : Open native.values m)
    (hf : ∀ m', Later m m' → Keeps mission i m' (f ()) P) :
    Keeps mission i m ((perform (.put_state native)).bind f) P := by
  refine Keeps.call ?_ fun m' o _ h' _ _ _ => hf _ (h'.trans (later_perform _ o))
  intro m' h' _ hclean
  exact ⟨h.later h' hclean, fun _ => hopen.later h' hclean⟩

theorem keeps_fromTerminal (h : Good mission state m) (terminal : Terminal) :
    Keeps mission i m (fromTerminal terminal state) fun _ _ => True := by
  refine Keeps.perform ?_ fun _ _ _ _ _ _ _ _ => trivial
  intro m' h' _ hclean
  refine ⟨(h.ended (some terminal)).later h' hclean, fun hearly => ?_⟩
  cases hearly

omit [Settings] in
theorem Good.stable : ∀ (state : CouncilState) m₁ m₂, Later m₁ m₂ → Good mission state m₁ →
    Good mission state m₂ :=
  fun _ _ _ hlater h => h.later hlater

theorem keeps_fromArty (h : Good mission state m) : Keeps mission i m (fromArty state) fun _ _ => True := by
  have hseat := keeps_retrying (m := m) (i := i)
    (fun m' h' => keeps_prototype_step (h.later h')) Good.stable
  apply hseat.bind
  intro state m₁ _ hgood
  refine keeps_put hgood rfl fun m₂ h₂ => ?_
  exact keeps_fromTerminal (hgood.later h₂) .COMPLETED

/-- The decision is one on the approval it names. -/
def Certified (decision : Decision) (m : CouncilStage) : Prop :=
  ∃ a, findApproval m.world.approvals decision.approval_id = some a ∧
    a.subject_hash = decision.subject_hash

variable {decision : Decision}

omit [Sha256] [TextRules] [Settings] in
theorem Certified.later (h : Certified decision m) (hlater : Later m m') : Certified decision m' := by
  obtain ⟨a, ha, hhash⟩ := h
  obtain ⟨a', ha', hnext⟩ := hlater.world.approvals _ a ha
  exact ⟨a', ha', hnext.subject_hash.trans hhash⟩

omit [Settings] in
/-- **What the gate applies binds the state it is applied to.** -/
theorem Good.applied (h : Good mission state m) (hsettled : Settled mission m.world)
    (hcertified : Certified decision m) (gate : Option Gate) :
    Good mission { state with gate := gate, decision := some (applied state decision) } m := by
  intro hclean
  have hsound := h hclean
  refine ⟨hsound.mission_id, hsound.requested_actions, hsound.risk, ?_⟩
  cases hmatches : decision_matches state decision with
  | false => exact .inl hmatches
  | true =>
    obtain ⟨a, ha, hhash⟩ := hcertified
    refine .inr ⟨hsettled, Council.applied state decision, a, rfl, ha, ?_⟩
    simp only [decision_matches, Bool.and_eq_true, beq_iff_eq] at hmatches
    exact hhash.trans hmatches.1.2

theorem keeps_fromGate (h : Good mission state m) (hsettled : Settled mission m.world)
    {decision : Option Decision} (hcertified : ∀ d, decision = some d → Certified d m) :
    Keeps mission i m (fromGate state decision) fun _ _ => True := by
  cases decision with
  | none =>
    refine Keeps.perform ?_ fun _ _ _ _ _ _ _ _ => trivial
    intro m' h' _ hclean
    refine ⟨h.later h' hclean, fun hearly => ?_⟩
    cases hearly
  | some decision =>
    have hgood := h.applied hsettled (hcertified decision rfl) (some (gate_request state))
    show Keeps mission i m (if _ then _ else _) _
    split
    · exact keeps_put hgood rfl fun m₁ h₁ => keeps_fromArty (hgood.later h₁)
    · exact keeps_put hgood rfl fun m₁ h₁ =>
        keeps_fromTerminal (hgood.later h₁) .REJECTED

theorem keeps_fromFable (h : Good mission state m) (hopen : Open state m)
    (hsettled : Settled mission m.world) : Keeps mission i m (fromFable state) fun _ _ => True := by
  have hseat := keeps_retrying (m := m) (i := i)
    (fun m' h' => keeps_audit_step (h.later h') (hopen.later h')) Good.stable
  apply hseat.bind
  intro state m₁ h₁ hgood
  cases hrisk : state.risk with
  | none =>
    exact Keeps.raise
  | some risk =>
    have hlate : (_after_fable risk).early = false := by
      unfold _after_fable
      split
      · rfl
      · split <;> rfl
    refine keeps_put hgood hlate fun m₂ h₂ => ?_
    split
    · exact keeps_fromTerminal (hgood.later h₂) .BLOCKED
    · split
      · exact keeps_fromGate (hgood.later h₂) (hsettled.onward (h₁.trans h₂).world) (by simp)
      · exact keeps_fromArty (hgood.later h₂)

theorem keeps_fromGeorge (h : Good mission state m) (hopen : Open state m)
    (hsettled : Settled mission m.world) : Keeps mission i m (fromGeorge state) fun _ _ => True := by
  have hseat := keeps_retrying (m := m) (i := i)
    (fun m' h' => keeps_strategy_step (h.later h') (hopen.later h'))
    (fun state m₁ m₂ h₂ hstate => ⟨hstate.1.later h₂, hstate.2.later h₂⟩)
  apply hseat.bind
  intro state m₁ h₁ hstate
  refine keeps_put_open hstate.1 hstate.2 fun m₂ h₂ => ?_
  exact keeps_fromFable (hstate.1.later h₂) (hstate.2.later h₂)
    (hsettled.onward (h₁.trans h₂).world)

theorem keeps_fromNode (h : Clean m → SoundNative mission m.world native) (hsettled : Settled mission m.world)
    {decision : Option Decision} (hcertified : ∀ d, decision = some d → Certified d m) :
    Keeps mission i m (fromNode native.values decision native.next) fun _ _ => True := by
  have hgood : Good mission native.values m := fun hclean => (h hclean).values
  have hopen (hearly : native.next.early = true) : Open native.values m :=
    fun hclean => (h hclean).early hearly
  cases hnext : native.next with
  | george => exact keeps_fromGeorge hgood (hopen (by rw [hnext]; rfl)) hsettled
  | fable => exact keeps_fromFable hgood (hopen (by rw [hnext]; rfl)) hsettled
  | sentinel_gate => exact keeps_fromGate hgood hsettled hcertified
  | arty => exact keeps_fromArty hgood
  | complete => exact keeps_fromTerminal hgood .COMPLETED
  | rejected => exact keeps_fromTerminal hgood .REJECTED
  | blocked => exact keeps_fromTerminal hgood .BLOCKED
  | ended => exact Keeps.ret fun _ _ => trivial

theorem keeps_get_state {f : Option Native → CouncilProgram α}
    (hnone : ∀ m', Later m m' → (Clean m' → mission.engine = .langgraph → ∀ state ∈ m'.world.checkpoints,
      state.approved = false) → Keeps mission i m' (f none) P)
    (hsome : ∀ m' native, Later m m' → (Clean m' → SoundNative mission m'.world native) →
      Settled mission m'.world → Keeps mission i m' (f (some native)) P) :
    Keeps mission i m ((perform .get_state).bind f) P := by
  refine Keeps.call (fun _ _ _ => trivial) ?_
  intro m' o r h _ hbound hr
  cases hr
  have hworld : (m'.perform exec i .get_state o).world = m'.world := rfl
  have hclean : Clean (m'.perform exec i .get_state o) → Clean m' := (later_perform _ o).clean
  have hlater := h.trans (later_perform (i := i) .get_state o)
  cases hnative : m'.world.native with
  | none =>
    apply hnone _ hlater
    intro hclean' hengine state hstate
    rcases (hbound.checkpoints (hclean hclean') state hstate).decided with hopen | ⟨hsettled, -⟩
    · exact hopen
    · have hsome := hsettled hengine
      rw [hnative] at hsome
      cases hsome
  | some native =>
    apply hsome _ native hlater
    · intro hclean'
      exact hbound.native (hclean hclean') native hnative
    · intro _
      rw [hworld, hnative]
      rfl

theorem keeps_goOn {decision : Option Decision} (hcertified : ∀ d, decision = some d → Certified d m) :
    Keeps mission i m (invoke_graph (.goOn decision)) fun _ _ => True := by
  apply keeps_get_state
  · intro m₁ _ _
    exact Keeps.raise
  · intro m₁ native h₁ hnative hsettled
    exact keeps_fromNode hnative hsettled fun d hd => (hcertified d hd).later h₁

theorem keeps_input (h : Good mission state m) (hopen : Open state m) :
    Keeps mission i m (invoke_graph (.input state)) fun _ _ => True := by
  refine Keeps.call ?_ fun m' o _ h' _ _ _ => ?_
  · intro m' h' _ hclean
    exact ⟨h.later h' hclean, fun _ => hopen.later h' hclean⟩
  · have hlater := h'.trans (later_perform (i := i)
      (.put_state { values := state, next := .george }) o)
    exact keeps_fromGeorge (h.later hlater) (hopen.later hlater) fun _ => rfl

theorem keeps_run {payload : Payload} (h : Keeps mission i m (invoke_graph payload) fun _ _ => True) :
    Keeps mission i m (_run payload) fun step m' => Good mission step.state m' := by
  apply h.bind
  intro _ m₁ _ _
  apply keeps_get_state
  · intro m₂ _ _
    exact Keeps.raise
  · intro m₂ native _ hnative _
    have hgood : Good mission native.values m₂ := fun hclean => (hnative hclean).values
    dsimp only
    split
    · exact keeps_await_gate hgood
    · exact keeps_finish hgood _

/-! ## The conversation engines -/

theorem keeps_prototype (engine : Engine) (h : Good mission state m) :
    Keeps mission i m (prototype engine state) fun state' m' => Good mission state' m' := by
  cases engine with
  | autogen =>
    have hseat (m' : CouncilStage) : Keeps mission i m' (do seat_started; perform .arty) fun _ _ => True :=
      keeps_seat_started.bind fun _ _ _ _ => Keeps.perform (fun _ _ _ => trivial) fun _ _ _ _ _ _ _ _ => trivial
    apply (keeps_attempts (fun m' _ => hseat m') (fun _ _ _ _ h => h) _).bind
    intro output m₁ h₁ _
    exact keeps_apply_scaffold (h.later h₁) output
  | langgraph => exact keeps_prototype_step h
  | crewai => exact keeps_prototype_step h

theorem keeps_phase_b (engine : Engine) (h : Good mission state m) :
    Keeps mission i m (_phase_b engine state) fun step m' => Good mission step.state m' := by
  apply (keeps_prototype engine h).bind
  intro state m₁ _ hgood
  exact keeps_finish hgood _

theorem keeps_route (engine : Engine) (h : Good mission state m) :
    Keeps mission i m (_route engine state) fun step m' => Good mission step.state m' := by
  unfold _route
  split
  · exact Keeps.raise
  · split
    · exact keeps_finish h _
    · split
      · exact keeps_await_gate h
      · exact keeps_phase_b engine h

theorem keeps_strategyAndAudit (engine : Engine) (h : Good mission state m) (hopen : Open state m) :
    Keeps mission i m (strategyAndAudit engine state) fun state' m' => Good mission state' m' := by
  have hcrew : Keeps mission i m ((strategy_step state).bind audit_step)
      fun state' m' => Good mission state' m' :=
    (keeps_strategy_step h hopen).bind fun state m₁ _ hstate => keeps_audit_step hstate.1 hstate.2
  cases engine with
  | autogen =>
    have hseats (m' : CouncilStage) : Keeps mission i m' (do
        seat_started
        let strategy ← perform .george
        let output ← perform (.fable (policy_for state))
        return (strategy, output)) fun _ _ => True :=
      keeps_seat_started.bind fun _ _ _ _ => keeps_asked trivial fun _ _ _ => keeps_asked trivial
        fun _ _ _ => Keeps.ret fun _ _ => trivial
    apply (keeps_attempts (fun m' _ => hseats m') (fun _ _ _ _ h => h) _).bind
    intro said m₁ h₁ _
    apply (keeps_apply_strategy (h.later h₁) (hopen.later h₁) said.1).bind
    intro state' m₂ _ ⟨⟨hgood, hopen'⟩, hpolicy⟩
    apply keeps_seat_started.bind
    intro _ m₃ h₃ _
    rw [← hpolicy]
    exact keeps_apply_audit (hgood.later h₃) (hopen'.later h₃) said.2
  | langgraph => exact hcrew
  | crewai => exact hcrew

theorem keeps_phase_a (engine : Engine) (h : Good mission state m) (hopen : Open state m) :
    Keeps mission i m (_phase_a engine state) fun step m' => Good mission step.state m' := by
  apply (keeps_strategyAndAudit engine h hopen).bind
  intro state m₁ _ hgood
  exact keeps_route engine hgood

variable {engine : Engine}

theorem keeps_resume_phase (h : Good mission state m) (hsettled : Settled mission m.world)
    (hcertified : Certified decision m) : Keeps mission i m (resume_phase engine state decision)
      fun step m' => Good mission step.state m' := by
  have hgood := h.applied hsettled hcertified state.gate
  show Keeps mission i m (if _ then _ else _) _
  split
  · exact keeps_phase_b engine hgood
  · exact keeps_finish hgood _

theorem keeps_recover_phase (engine : Engine) (h : Good mission state m) :
    Keeps mission i m (recover_phase engine state) fun step m' => Good mission step.state m' := by
  unfold recover_phase
  split
  · exact keeps_finish h _
  · split
    · exact keeps_phase_b engine h
    · exact keeps_finish h _
  · exact keeps_await_gate h
  · rename_i hdecision _
    split
    · exact keeps_route engine h
    · have happroved : state.approved = false := by
        unfold CouncilState.approved
        rw [hdecision]
        rfl
      have hgood : Good mission { state with strategy := none, risk := none } m := by
        intro hclean
        have hsound := h hclean
        exact ⟨hsound.mission_id, hsound.requested_actions, by simp, .inl happroved⟩
      exact keeps_phase_a engine hgood fun _ => happroved

/-! ## The engine contract -/

theorem keeps_start {state : Option CouncilState} (h : ∀ st, state = some st → Good mission st m ∧ Open st m) :
    Keeps mission i m (engine.start state) fun step m' => Good mission step.state m' := by
  cases state with
  | none => exact Keeps.raise
  | some state =>
    obtain ⟨hgood, hopen⟩ := h state rfl
    cases engine with
    | langgraph => exact keeps_run (keeps_input hgood hopen)
    | crewai => exact keeps_phase_a _ hgood hopen
    | autogen => exact keeps_phase_a _ hgood hopen

theorem keeps_resume {state : Option CouncilState} (h : ∀ st, state = some st → Good mission st m)
    (hcertified : Certified decision m) : Keeps mission i m (mission.engine.resume decision state)
      fun step m' => Good mission step.state m' := by
  have hphase (engine : Engine) (hengine : mission.engine ≠ .langgraph) :
      Keeps mission i m (onState state fun state => resume_phase engine state decision)
        fun step m' => Good mission step.state m' := by
    cases state with
    | none => exact Keeps.raise
    | some state =>
      exact keeps_resume_phase (h state rfl) (fun hgraph => absurd hgraph hengine) hcertified
  cases hengine : mission.engine with
  | langgraph => exact keeps_run (keeps_goOn fun d hd => by cases hd; exact hcertified)
  | crewai => exact hphase _ (by rw [hengine]; decide)
  | autogen => exact hphase _ (by rw [hengine]; decide)

theorem keeps_recover {state : Option CouncilState}
    (h : ∀ st, state = some st → Good mission st m ∧ st ∈ m.world.checkpoints) :
    Keeps mission i m (mission.engine.recover state) fun step m' => Good mission step.state m' := by
  have hphase (engine : Engine) : Keeps mission i m (onState state fun state => recover_phase engine state)
      fun step m' => Good mission step.state m' := by
    cases state with
    | none => exact Keeps.raise
    | some state => exact keeps_recover_phase engine (h state rfl).1
  cases hengine : mission.engine with
  | crewai => exact hphase _
  | autogen => exact hphase _
  | langgraph =>
    apply keeps_get_state
    · intro m₁ h₁ hnone
      apply keeps_start
      intro st hst
      obtain ⟨hgood, hmem⟩ := h st hst
      exact ⟨hgood.later h₁, fun hclean => hnone hclean hengine st (h₁.world.checkpoints st hmem)⟩
    · intro m₁ native _ hnative _
      have hgood : Good mission native.values m₁ := fun hclean => (hnative hclean).values
      dsimp only
      split
      · exact keeps_await_gate hgood
      · split
        · exact keeps_finish hgood _
        · exact keeps_run (keeps_goOn (by simp))

end Council
