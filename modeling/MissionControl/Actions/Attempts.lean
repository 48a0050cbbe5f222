import MissionControl.Actions.Ownership

/-! # The attempts of an action

Which failures lead to another attempt, and how many attempts there are. A failure is retried only
when the worker that recorded it knew the attempt had no effect (`Effectless`): it met a failure the
adapter raises before the effect, or its read-back found none. The invariant says so of every attempt
an action has behind it, and it is proved from what one call does to one row (`RowStep`). -/

namespace Actions

open Canonical (Sha256 mixHash)
open Interleaving (Run visited)
open Relational (Table)

variable [Sha256] [Deployment]

/-! ## What workers recorded about failures -/

/-- Worker `j`, with the trace `t`, moved the action to FAILED from the row `prev`. -/
structure FailedBy (m : Stage) (j : Nat) (t : Trace) (a : TransitionArgs) (prev : ActionRow) : Prop where
  did : ∃ r, t ++ [(⟨.transition a, .ok r⟩ : Interleaving.Program.Exchange Plane)] <+: m.own j
  to_state : a.to_state = .FAILED
  id : a.action_id = prev.action_id
  version : a.expected_version = prev.version

/-- Attempt `k` of the action ended in a failure whose worker knew that it had no effect. -/
def EndedWithoutEffect (m : Stage) (action_id : String) (k : Nat) : Prop :=
  ∃ j t a prev, FailedBy m j t a prev ∧ prev.action_id = action_id ∧ prev.attempts = k ∧
    Effectless t prev

/-- Every failure of the action so far was one whose worker knew that it had no effect. -/
def OnlyEffectless (m : Stage) (action_id : String) : Prop :=
  ∀ j t a r, t ++ [(⟨.transition a, .ok r⟩ : Interleaving.Program.Exchange Plane)] <+: m.own j →
    a.to_state = .FAILED → a.action_id = action_id →
      ∃ prev, FailedBy m j t a prev ∧ prev.action_id = action_id ∧ Effectless t prev

/-- The moves of an action to DISPATCHING, as its log has them. -/
def dispatches (w : World) (action_id : String) : List TransitionEntry :=
  (w.log action_id).filter (·.to_state = .DISPATCHING)

/-- The attempt the row records is over: another one has not begun. -/
def Between (x : ActionRow) : Prop := x.state ∈ ActionState.PRE_DISPATCH ∨ x.state = .FAILED

/-- The states an action is in only after an attempt began. -/
def BEGUN : List ActionState :=
  [.DISPATCHING, .OBSERVING, .VERIFIED, .COMPLETED, .FAILED, .UNKNOWN, .RECONCILING, .NEEDS_HUMAN]

/-- What holds of the attempts of one row. -/
structure Attempted (m : Stage) (x : ActionRow) : Prop where
  counted : (dispatches m.world x.action_id).length = x.attempts
  bounded : x.attempts ≤ MAX_ATTEMPTS
  below : x.state ∈ ActionState.PRE_DISPATCH → x.attempts < MAX_ATTEMPTS
  begun : x.state ∈ BEGUN → 1 ≤ x.attempts
  leased : x.lease_expires_at ≠ none → x.state ∈ LEASES
  failed : x.retry_eligible = true → x.state = .FAILED
  ended : (x.state = .FAILED → x.retry_eligible = true) →
    ∀ k, 1 ≤ k → k < x.attempts ∨ k = x.attempts ∧ Between x →
      EndedWithoutEffect m x.action_id k

/-- What holds of all attempts. -/
structure Attempts (m : Stage) : Prop where
  rows : ∀ x ∈ m.world.action_requests, Attempted m x
  only : ∀ action_id, (∀ x ∈ m.world.action_requests, x.action_id = action_id →
    x.state = .FAILED → x.retry_eligible = true) → OnlyEffectless m action_id

/-! ## What one call does to one row -/

/-- What a call of worker `i` did to the row that is `x` after it. -/
inductive RowStep (i : Nat) (m m' : Stage) (x : ActionRow) : Prop
  | same (mem : x ∈ m.world.action_requests)
      (log : m'.world.log x.action_id = m.world.log x.action_id)
  | inserted (proposed : Proposed x)
      (log : ∃ e : TransitionEntry, e.to_state = .PROPOSED ∧ m'.world.log x.action_id = [e])
  | moved {row : ActionRow} {a : TransitionArgs} {stamp : Moment} (mem : row ∈ m.world.action_requests)
      (id : a.action_id = row.action_id) (version : a.expected_version = row.version)
      (result : x = row.moved a.to_state a.updates stamp)
      (purpose : Purpose (m.own i) m.world row a.to_state a.updates)
      (columns : Columns (m.own i) row a.to_state a.updates)
      (own : m'.own i = m.own i ++ [⟨.transition a, .ok x⟩])
      (log : ∃ e : TransitionEntry, e.to_state = a.to_state ∧
        m'.world.log row.action_id = m.world.log row.action_id ++ [e])
  | annotated {row : ActionRow} (mem : row ∈ m.world.action_requests) (state : row.state = .COMPLETED)
      (result : ∃ outcome stamp, x = row.annotated outcome stamp)
      (log : ∃ e : TransitionEntry, e.to_state = .COMPLETED ∧
        m'.world.log row.action_id = m.world.log row.action_id ++ [e])

section call

variable {direct : Prop} {i : Nat} {m m' : Stage} {c : Call} {ans : Plane.Answer c}

section
omit [Sha256] [Deployment]

theorem own_of_history (hist : m'.history = m.history ++ [⟨i, c, ans⟩]) : m'.own i = m.own i ++ [⟨c, ans⟩] := by
  unfold Interleaving.Stage.own
  rw [hist, List.filterMap_append]
  simp

theorem own_of_history_ne (hist : m'.history = m.history ++ [⟨i, c, ans⟩]) {j : Nat} (h : i ≠ j) :
    m'.own j = m.own j := by
  unfold Interleaving.Stage.own
  rw [hist, List.filterMap_append]
  simp [h]

theorem own_prefix (hist : m'.history = m.history ++ [⟨i, c, ans⟩]) (j : Nat) : m.own j <+: m'.own j := by
  by_cases h : i = j
  · subst h
    rw [own_of_history hist]
    exact List.prefix_append _ _
  · rw [own_of_history_ne hist h]

end

/-- **A call does one of these to each row.** -/
theorem Change.row_step (hs : Sound m.world) (hc : Change direct i m m'.world c ans)
    (hist : m'.history = m.history ++ [⟨i, c, ans⟩]) : ∀ x ∈ m'.world.action_requests, RowStep i m m' x := by
  have hsame : m'.world.action_requests = m.world.action_requests →
      m'.world.action_transitions = m.world.action_transitions →
      ∀ x ∈ m'.world.action_requests, RowStep i m m' x := by
    intro hreq hlog x hx
    rw [hreq] at hx
    refine .same hx ?_
    unfold World.log
    rw [hlog]
  cases hc with
  | quiet _ rest => exact hsame (by rw [rest]) (by rw [rest])
  | insert done proposed =>
    intro x hx
    obtain ⟨e, hid, -, hto, hentry⟩ := done.entry
    rcases (done.requests x).mp hx with hx | rfl
    · refine .same hx ?_
      rw [World.log_append hentry, if_neg (by rw [hid]; exact (done.fresh x hx).symm), List.append_nil]
    · refine .inserted proposed ⟨e, hto.trans proposed.state, ?_⟩
      rw [World.log_append hentry, if_pos hid]
      have hnone : m.world.log x.action_id = [] := by
        unfold World.log
        rw [List.filter_eq_nil_iff]
        intro e' he' hid'
        obtain ⟨y, hy, hyid⟩ := hs.entries e' he'
        exact done.fresh y hy (hyid.trans (of_decide_eq_true hid'))
      rw [hnone, List.nil_append]
  | move done purpose columns =>
    intro x hx
    obtain ⟨e, hid, -, hto, hentry⟩ := done.entry
    rcases (done.requests x).mp hx with rfl | ⟨hx, hne⟩
    · refine .moved done.mem rfl rfl done.result purpose columns (own_of_history hist) ⟨e, hto, ?_⟩
      rw [World.log_append hentry, if_pos hid]
    · refine .same hx ?_
      rw [World.log_append hentry, if_neg (by rw [hid]; exact hne.symm), List.append_nil]
  | annotate done state =>
    intro x hx
    obtain ⟨e, hid, -, hto, hentry⟩ := done.entry
    rcases (done.requests x).mp hx with rfl | ⟨hx, hne⟩
    · refine .annotated done.mem state done.result ⟨e, hto.trans state, ?_⟩
      rw [World.log_append hentry, if_pos hid]
    · refine .same hx ?_
      rw [World.log_append hentry, if_neg (by rw [hid]; exact hne.symm), List.append_nil]
  | reserve done => exact hsame (by rw [done.rest]) (by rw [done.rest])
  | settle done => exact hsame (by rw [done.rest]) (by rw [done.rest])
  | put done => exact hsame (by rw [done.rest]) (by rw [done.rest])
  | alter done => exact hsame (by rw [done.rest]) (by rw [done.rest])

variable {row : ActionRow} {t : Trace}

variable {to_state : ActionState} {u : Updates}

theorem Purpose.eligible {w : World} (h : Purpose t w row to_state u) (hfailed : row.state = .FAILED) :
    row.retry_eligible = true := by
  cases h with
  | plain _ _ hfrom => exact absurd hfailed hfrom
  | retry _ heligible => exact heligible
  | reserve hfrom =>
    rw [hfailed] at hfrom
    cases hfrom
  | lease edge =>
    rw [hfailed] at edge
    exact absurd edge (by decide)
  | failed hlease =>
    rw [hlease.state] at hfailed
    cases hfailed
  | not_applied hread =>
    obtain ⟨_, _, _, _, -, -, hstate, -⟩ := hread
    rw [hstate] at hfailed
    cases hfailed

variable {x : ActionRow}

theorem Change.failed_row (hc : Change direct i m m'.world c ans) (hx : x ∈ m.world.action_requests)
    (hfailed : x.state = .FAILED) : x ∈ m'.world.action_requests ∨ x.retry_eligible = true := by
  have hsame : m'.world.action_requests = m.world.action_requests → x ∈ m'.world.action_requests := by
    intro hreq
    rw [hreq]
    exact hx
  cases hc with
  | quiet _ rest => exact .inl (hsame (by rw [rest]))
  | insert done => exact .inl ((done.requests x).mpr (.inl hx))
  | @move row _ _ _ _ _ _ _ done purpose =>
    by_cases hid : x.action_id = row.action_id
    · have hrow : x = row := Table.eq_of_key hx done.mem hid
      subst hrow
      exact .inr (purpose.eligible hfailed)
    · exact .inl ((done.requests x).mpr (.inr ⟨hx, hid⟩))
  | @annotate row _ _ done state =>
    by_cases hid : x.action_id = row.action_id
    · have hrow : x = row := Table.eq_of_key hx done.mem hid
      subst hrow
      rw [hfailed] at state
      cases state
    · exact .inl ((done.requests x).mpr (.inr ⟨hx, hid⟩))
  | reserve done => exact .inl (hsame (by rw [done.rest]))
  | settle done => exact .inl (hsame (by rw [done.rest]))
  | put done => exact .inl (hsame (by rw [done.rest]))
  | alter done => exact .inl (hsame (by rw [done.rest]))

/-! ## The invariant -/

omit [Sha256] [Deployment] in
theorem FailedBy.later {j : Nat} {a : TransitionArgs} {prev : ActionRow} (h : FailedBy m j t a prev)
    (hown : ∀ j, m.own j <+: m'.own j) : FailedBy m' j t a prev := by
  obtain ⟨⟨r, hr⟩, hto, hid, hversion⟩ := h
  exact ⟨⟨r, hr.trans (hown j)⟩, hto, hid, hversion⟩

theorem EndedWithoutEffect.later {action_id : String} {k : Nat} (h : EndedWithoutEffect m action_id k)
    (hown : ∀ j, m.own j <+: m'.own j) : EndedWithoutEffect m' action_id k := by
  obtain ⟨j, t, a, prev, hfailed, rest⟩ := h
  exact ⟨j, t, a, prev, hfailed.later hown, rest⟩

theorem Attempted.same (h : Attempted m x) (hown : ∀ j, m.own j <+: m'.own j)
    (hlog : m'.world.log x.action_id = m.world.log x.action_id) : Attempted m' x := by
  obtain ⟨hcounted, hbounded, hbelow, hbegun, hleased, hfailed, hended⟩ := h
  refine ⟨?_, hbounded, hbelow, hbegun, hleased, hfailed, fun he k hk hk' => (hended he k hk hk').later hown⟩
  unfold dispatches
  rw [hlog]
  exact hcounted

variable {e : TransitionEntry}

theorem Attempted.inserted (h : Proposed x) (hto : e.to_state = .PROPOSED)
    (hlog : m'.world.log x.action_id = [e]) : Attempted m' x := by
  constructor
  · unfold dispatches
    rw [hlog, h.attempts]
    simp [hto]
  · rw [h.attempts]
    exact Nat.zero_le _
  · intro _
    rw [h.attempts]
    decide
  · intro hbegun
    rw [h.state] at hbegun
    exact absurd hbegun (by decide)
  · intro hlease
    exact absurd h.lease hlease
  · intro he
    rw [h.retry_eligible] at he
    cases he
  · intro _ k hk hk'
    rw [h.attempts] at hk'
    omega

theorem Attempted.annotated {outcome : Outcome} {stamp : Moment} (h : Attempted m row)
    (hown : ∀ j, m.own j <+: m'.own j) (hto : e.to_state = .COMPLETED)
    (hlog : m'.world.log row.action_id = m.world.log row.action_id ++ [e]) :
    Attempted m' (row.annotated outcome stamp) := by
  obtain ⟨hcounted, hbounded, hbelow, hbegun, hleased, hfailed, hended⟩ := h
  refine ⟨?_, hbounded, hbelow, hbegun, hleased, hfailed, fun he k hk hk' => (hended he k hk hk').later hown⟩
  unfold dispatches at hcounted ⊢
  show ((m'.world.log row.action_id).filter _).length = _
  rw [hlog, List.filter_append, List.length_append, hcounted]
  simp [hto, ActionRow.annotated]

variable {s : ActionState}

variable {s' : ActionState}

section
omit [Sha256] [Deployment]

theorem edge_pre_dispatch (h : ActionState.Edge s s') (hs : s' ∈ ActionState.PRE_DISPATCH) :
    s ∈ ActionState.PRE_DISPATCH ∨ s = .FAILED := by
  revert h hs
  cases s <;> cases s' <;> decide

theorem edge_dispatching (h : ActionState.Edge s .DISPATCHING) : s ∈ ActionState.PRE_DISPATCH := by
  revert h
  cases s <;> decide

theorem edge_begun (h : ActionState.Edge s s') (hs : s' ∈ BEGUN) (hd : s' ≠ .DISPATCHING) : s ∈ BEGUN := by
  revert h hs hd
  cases s <;> cases s' <;> decide

theorem not_edge_failed : ¬ ActionState.Edge .FAILED .FAILED := by
  decide

end

theorem Attempted.effectless (h : Attempted m row) (hedge : ActionState.Edge row.state to_state)
    (hcols : Columns t row to_state u) (hto : to_state = .FAILED)
    (heligible : u.retry_eligible.getD row.retry_eligible = true) : Effectless t row := by
  cases hu : u.retry_eligible with
  | none =>
    -- a row that was eligible before was FAILED already, which no edge repeats
    rw [hu] at heligible
    have hfailed := h.failed heligible
    rw [hfailed, hto] at hedge
    exact absurd hedge not_edge_failed
  | some b =>
    rw [hu, Option.getD_some] at heligible
    rw [heligible] at hu
    exact (hcols.eligible hu).2.2

theorem Attempted.moved {a : TransitionArgs} {stamp : Moment} (h : Attempted m row)
    (hid : a.action_id = row.action_id) (hversion : a.expected_version = row.version)
    (hx : x = row.moved a.to_state a.updates stamp)
    (hpurpose : Purpose (m.own i) m.world row a.to_state a.updates)
    (hcols : Columns (m.own i) row a.to_state a.updates) (hown : m'.own i = m.own i ++ [⟨.transition a, .ok x⟩])
    (hlater : ∀ j, m.own j <+: m'.own j) (hto : e.to_state = a.to_state)
    (hlog : m'.world.log row.action_id = m.world.log row.action_id ++ [e]) : Attempted m' x := by
  have hedge := hpurpose.edge
  have hxid : x.action_id = row.action_id := by rw [hx]; rfl
  have hstate : x.state = a.to_state := by rw [hx]; rfl
  have hlease : x.lease_expires_at = a.updates.lease_expires_at.getD row.lease_expires_at := by
    rw [hx]
    rfl
  have hretry : x.retry_eligible = a.updates.retry_eligible.getD row.retry_eligible := by
    rw [hx]
    rfl
  have hattempts : x.attempts = if a.to_state = .DISPATCHING then row.attempts + 1 else row.attempts := by
    have hgetD : x.attempts = a.updates.attempts.getD row.attempts := by rw [hx]; rfl
    rw [hgetD, hcols.attempts]
    split <;> rfl
  constructor
  · unfold dispatches
    rw [hxid, hlog, List.filter_append, List.length_append]
    have hold := h.counted
    unfold dispatches at hold
    rw [hold, hattempts]
    by_cases hd : a.to_state = .DISPATCHING <;> simp [hto, hd]
  · rw [hattempts]
    split
    · rename_i hd
      rw [hd] at hedge
      exact h.below (edge_dispatching hedge)
    · exact h.bounded
  · intro hpre
    rw [hstate] at hpre
    have hnot : a.to_state ≠ .DISPATCHING := by
      intro hd
      rw [hd] at hpre
      exact absurd hpre (by decide)
    rw [hattempts, if_neg hnot]
    rcases edge_pre_dispatch hedge hpre with hfrom | hfrom
    · exact h.below hfrom
    · exact (hcols.bounded hfrom).1
  · intro hbegun
    rw [hstate] at hbegun
    rw [hattempts]
    split
    · exact Nat.le_add_left 1 _
    · rename_i hd
      exact h.begun (edge_begun hedge hbegun hd)
  · intro hne
    rw [hlease] at hne
    rw [hstate]
    rcases hcols.lease with hclear | hleased | ⟨hnone, hfrom⟩
    · rw [hclear] at hne
      exact absurd rfl hne
    · exact hleased
    · rw [hnone] at hne
      exact absurd (h.leased hne) hfrom
  · intro heligible
    rw [hretry] at heligible
    rw [hstate]
    cases hu : a.updates.retry_eligible with
    | none =>
      rw [hu] at heligible
      have hfalse := (hcols.bounded (h.failed heligible)).2
      rw [hu] at hfalse
      cases hfalse
    | some b =>
      rw [hu, Option.getD_some] at heligible
      rw [heligible] at hu
      exact (hcols.eligible hu).1
  · intro heligible k hk hk'
    rw [hxid]
    have hold : ∀ k, 1 ≤ k → k < row.attempts ∨ k = row.attempts ∧ Between row →
        EndedWithoutEffect m' row.action_id k :=
      fun k hk hk' => (h.ended hpurpose.eligible k hk hk').later hlater
    rw [hattempts] at hk'
    unfold Between at hk'
    rw [hstate] at hk' heligible
    by_cases hd : a.to_state = .DISPATCHING
    · -- a new attempt: the ones before it were over
      rw [hd] at hedge hk'
      have hfrom : Between row := .inl (edge_dispatching hedge)
      rw [if_pos rfl] at hk'
      rcases hk' with hlt | ⟨-, hpre | hf⟩
      · refine hold k hk ?_
        rcases Nat.lt_or_ge k row.attempts with hlt' | hge
        · exact .inl hlt'
        · exact .inr ⟨by omega, hfrom⟩
      · exact absurd hpre (by decide)
      · cases hf
    · rw [if_neg hd] at hk'
      rcases hk' with hlt | ⟨hk', hpre | hf⟩
      · exact hold k hk (.inl hlt)
      · exact hold k hk (.inr ⟨hk', edge_pre_dispatch hedge hpre⟩)
      · -- the failure of this attempt
        have heffectless := h.effectless hedge hcols hf (by rw [← hretry]; exact heligible hf)
        refine ⟨i, m.own i, a, row, ⟨⟨x, ?_⟩, hf, hid, hversion⟩, rfl, hk'.symm, heffectless⟩
        rw [hown]

theorem RowStep.attempted (h : ∀ y ∈ m.world.action_requests, Attempted m y)
    (hlater : ∀ j, m.own j <+: m'.own j) (hstep : RowStep i m m' x) : Attempted m' x := by
  cases hstep with
  | same mem log => exact (h x mem).same hlater log
  | inserted proposed log =>
    obtain ⟨e, hto, hlog⟩ := log
    exact .inserted proposed hto hlog
  | moved mem id version result purpose columns own log =>
    obtain ⟨e, hto, hlog⟩ := log
    exact (h _ mem).moved id version result purpose columns own hlater hto hlog
  | annotated mem state result log =>
    obtain ⟨outcome, stamp, rfl⟩ := result
    obtain ⟨e, hto, hlog⟩ := log
    exact (h _ mem).annotated hlater hto hlog

/-- **Every call within its duties keeps the attempts.** -/
theorem Attempts.step (h : Attempts m) (hs : Sound m.world) (hc : Change direct i m m'.world c ans)
    (hist : m'.history = m.history ++ [⟨i, c, ans⟩]) : Attempts m' := by
  have hlater := own_prefix hist
  refine ⟨fun x hx => (hc.row_step hs hist x hx).attempted h.rows hlater, fun action_id hrows => ?_⟩
  have hold : OnlyEffectless m action_id := by
    refine h.only action_id fun x hx hid hfailed => ?_
    rcases hc.failed_row hx hfailed with hx' | heligible
    · exact hrows x hx' hid hfailed
    · exact heligible
  have hkeep : ∀ j t a prev, FailedBy m j t a prev → prev.action_id = action_id → Effectless t prev →
      ∃ prev, FailedBy m' j t a prev ∧ prev.action_id = action_id ∧ Effectless t prev :=
    fun j t a prev hf hid heff => ⟨prev, hf.later hlater, hid, heff⟩
  intro j t a r hpre hto hid
  by_cases hij : i = j
  · subst hij
    rw [own_of_history hist] at hpre
    rcases List.prefix_concat_iff.mp hpre with heq | hpre
    · -- the failure this very call records
      obtain ⟨rfl, hevent⟩ := List.append_inj' heq rfl
      cases hevent
      cases hc with
      | quiet hquiet => exact absurd trivial hquiet
      | @move row r _ _ _ _ u _ done purpose columns =>
        obtain rfl : _ = ActionState.FAILED := hto
        have hresult := done.result
        have hmem : r ∈ m'.world.action_requests := (done.requests r).mpr (.inl rfl)
        have heligible : r.retry_eligible = true := by
          refine hrows r hmem ?_ ?_
          · rw [hresult]
            exact hid
          · rw [hresult]
            rfl
        have heffectless := (h.rows row done.mem).effectless purpose.edge columns rfl
          (by rw [hresult] at heligible; exact heligible)
        refine ⟨row, ⟨⟨r, ?_⟩, rfl, rfl, rfl⟩, hid, heffectless⟩
        rw [own_of_history hist]
    · obtain ⟨prev, hf, hid', heff⟩ := hold i t a r hpre hto hid
      exact hkeep i t a prev hf hid' heff
  · rw [own_of_history_ne hist hij] at hpre
    obtain ⟨prev, hf, hid', heff⟩ := hold j t a r hpre hto hid
    exact hkeep j t a prev hf hid' heff

end call

theorem Attempts.fresh {w : World} (h : Fresh w) : Attempts ⟨w, []⟩ := by
  constructor
  · intro x hx
    change x ∈ w.action_requests at hx
    rw [h.requests] at hx
    exact absurd hx (Table.not_mem_empty x)
  · rintro action_id - j t a r hpre
    exact absurd (List.prefix_nil.mp hpre) (by simp)

variable {w' : World}

theorem Attempts.outside {m : Stage} (h : Attempts m) (hw : Outside m.world w') :
    Attempts { m with world := w' } := by
  have hlog : ∀ action_id, w'.log action_id = m.world.log action_id := by
    intro action_id
    unfold World.log
    rw [hw.transitions]
  constructor
  · intro x hx
    change x ∈ w'.action_requests at hx
    rw [hw.requests] at hx
    exact (h.rows x hx).same (fun j => List.prefix_refl _) (hlog _)
  · intro action_id hrows j t a r hpre hto hid
    have hold : OnlyEffectless m action_id := by
      refine h.only action_id fun x hx => hrows x ?_
      show x ∈ w'.action_requests
      rw [hw.requests]
      exact hx
    obtain ⟨prev, hf, hid', heff⟩ := hold j t a r hpre hto hid
    exact ⟨prev, hf.later fun j => List.prefix_refl _, hid', heff⟩

/-! ## Every run -/

variable {direct : Prop}

theorem run_attempts {w : World} (hw : Fresh w)
    {steps : List (Stage × Interleaving.Action Plane World (Option Fault))} {s : Interleaving.Pool Plane World}
    (run : Run (plane direct) w steps s) : Attempts s.stage := by
  refine Interleaving.Discipline.run_invariant (covers direct) (D := discipline direct)
    (K := fun _ _ => True) hw.sound (.fresh hw) ?_ ?_ run (fun _ _ => trivial)
  · intro m i c o h hs hpre _
    exact h.step hs (Pre.change hpre o) rfl
  · intro m w' h hw'
    exact h.outside hw'

/-- What is so when a failed action is authorised again: `row` is the action before, `r` after. -/
structure CleanRetry (m : Stage) (row r : ActionRow) : Prop where
  begun : 1 ≤ row.attempts
  ended : ∀ k, 1 ≤ k → k ≤ row.attempts → EndedWithoutEffect m row.action_id k
  only : OnlyEffectless m row.action_id
  unnamed : r.budget_reservation_id = none
  released : ∀ res ∈ m.world.action_budget_reservations, res.action_id = row.action_id →
    (∃ j, Adopted m j res.reservation_id) → res.status ≠ .RESERVED

theorem cleanRetry_of_move {i : Nat} {m : Stage} {a : TransitionArgs} {r row : ActionRow} (h : Attempts m)
    (hl : Ledger m) (hs : Sound m.world) (hc : Change direct i m w' (.transition a) (.ok r))
    (hto : a.to_state = .AUTHORIZED) (hrow : row ∈ m.world.action_requests) (hid : row.action_id = a.action_id)
    (hfailed : row.state = .FAILED) : CleanRetry m row r := by
  cases hc with
  | quiet hquiet => exact absurd trivial hquiet
  | @move row' _ _ _ _ _ u _ done purpose columns =>
    obtain rfl : row = row' := Table.eq_of_key hrow done.mem hid
    obtain rfl : _ = ActionState.AUTHORIZED := hto
    have heligible := purpose.eligible hfailed
    have hat := h.rows row hrow
    have hnone := (hs.rows row hrow).retryable hfailed heligible
    refine ⟨hat.begun (by rw [hfailed]; decide), fun k hk hk' => ?_, ?_, ?_, ?_⟩
    · refine hat.ended (fun _ => heligible) k hk ?_
      rcases Nat.lt_or_eq_of_le hk' with hlt | heq
      · exact .inl hlt
      · exact .inr ⟨heq, .inr hfailed⟩
    · refine h.only row.action_id fun x hx hxid _ => ?_
      rw [Table.eq_of_key hx hrow hxid]
      exact heligible
    · have hbudget : u.budget_reservation_id = some none := by
        cases purpose with
        | plain _ _ hfrom => exact absurd hfailed hfrom
        | retry _ _ hid => exact hid
      rw [done.result]
      show u.budget_reservation_id.getD _ = none
      rw [hbudget]
      rfl
    · rintro res hres hresid ⟨j, hadopted⟩ hreserved
      obtain ⟨x, hx, hxid, hname⟩ := hl.kept j _ hadopted res hres rfl hreserved
      obtain rfl : x = row := Table.eq_of_key hx hrow (hxid.trans hresid)
      rw [hnone] at hname
      cases hname

/-- **Only failures known to have had no effect are retried.** In every run, whenever a failed action
    is authorised again, each of its attempts so far ended in a failure whose worker knew that it had
    no effect, and no reservation the action was given still holds money; and at every point each
    action has been dispatched as often as it counts, at most `MAX_ATTEMPTS` times. -/
theorem retry_only_without_effect {direct : Prop} {w : World} (hw : Fresh w)
    {steps : List (Stage × Interleaving.Action Plane World (Option Fault))}
    {s : Interleaving.Pool Plane World} (run : Run (plane direct) w steps s) :
    (∀ m i (a : TransitionArgs) o r, (m, .call i (Call.transition a) o) ∈ steps →
      exec.answer (Call.transition a) o m.world = .ok r → a.to_state = .AUTHORIZED →
        ∀ row ∈ m.world.action_requests, row.action_id = a.action_id → row.state = .FAILED →
          CleanRetry m row r) ∧
    ∀ m ∈ visited steps s, ∀ x ∈ m.world.action_requests,
      (dispatches m.world x.action_id).length = x.attempts ∧ x.attempts ≤ MAX_ATTEMPTS := by
  constructor
  · intro m i a o r hstep hans hto row hrow hid hfailed
    obtain ⟨before, s', run', rfl, -⟩ :=
      run.visited (List.mem_append_left _ (List.mem_map_of_mem hstep))
    have hpre : Pre direct i (.transition a) s'.stage :=
      (Interleaving.Discipline.run_steps (covers direct) (D := discipline direct)
        (K := fun _ _ => True) (J := fun _ => True) hw.sound trivial (fun _ _ _ _ _ _ _ _ => trivial)
        (fun _ _ _ _ => trivial) run (fun _ _ => trivial) hstep).2
    have hc := hpre.change o
    rw [hans] at hc
    exact cleanRetry_of_move (run_attempts hw run') (run_ledger hw run') (run_sound hw run') hc hto
      hrow hid hfailed
  · intro m hm x hx
    obtain ⟨before, s', run', rfl, -⟩ := run.visited hm
    have hat := (run_attempts hw run').rows x hx
    exact ⟨hat.counted, hat.bounded⟩

/-! ## A spend that is retried -/

/-- The first attempt of the spend fails before its effect; worker 2 retries it. -/
def spendRetried : List Move :=
  spendReserved ++ calls 1 1 ++ [.call 1 (some .transient_before_effect)] ++ calls 1 5 ++
    [.start (@Operation.program mixHash fixture (.retry alice (@actionId mixHash "t" "key-0001")))] ++
    calls 2 60

omit [Sha256] [Deployment] in
theorem allowed_spendRetried : ∀ x ∈ spendRetried, x.Allowed (@plane mixHash fixture False) := by
  unfold spendRetried
  simp only [List.forall_mem_append, List.forall_mem_cons]
  have hcalls := @allowed_calls mixHash fixture False
  exact ⟨⟨⟨⟨⟨allowed_spendReserved, hcalls _ _⟩, trivial, by simp⟩, hcalls _ _⟩,
    @allowed_start mixHash fixture _ _ id, by simp⟩, hcalls _ _⟩

omit [Sha256] [Deployment] in
theorem retry_only_without_effect_spend :
    ∃ steps s, Run (@plane mixHash fixture False) spendWorld steps s ∧
      s.stage.world.action_requests.rows.map (fun x => (x.state, x.attempts)) = [(.COMPLETED, 2)] ∧
      (∀ m i (a : TransitionArgs) o r, (m, .call i (Call.transition a) o) ∈ steps →
        (@exec mixHash).answer (Call.transition a) o m.world = .ok r → a.to_state = .AUTHORIZED →
          ∀ row ∈ m.world.action_requests, row.action_id = a.action_id → row.state = .FAILED →
            @CleanRetry mixHash fixture m row r) ∧
      ∀ m ∈ visited steps s, ∀ x ∈ m.world.action_requests,
        (dispatches m.world x.action_id).length = x.attempts ∧ x.attempts ≤ MAX_ATTEMPTS := by
  have run := Interleaving.play_run (w := spendWorld) allowed_spendRetried
  have h := @retry_only_without_effect mixHash fixture _ _ ⟨rfl, rfl, rfl, rfl⟩ _ _ run
  exact ⟨_, _, run, by decide +kernel, h.1, h.2⟩

end Actions
