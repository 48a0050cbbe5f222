import MissionControl.Actions.Triples

/-! # Every operation keeps the discipline

From the clock reading it starts with, every operation meets the duty of each
call it makes, whatever the other workers do in between. -/

namespace Actions

open Canonical (Value Sha256)
open Interleaving (Program)
open Interleaving.Discipline (Returns Safe Ends)
open Interleaving.Program (Only only_perform)
open Relational (Table)
open Gateway (perform fromExcept)

variable [Sha256] [Deployment]

/-! ## Programs that only look

Their calls change nothing but approvals. -/

omit [Sha256] [Deployment] in
theorem only_fromExcept {α : Type} {R : Call → Prop} (r : Except ActionError α) : (fromExcept r).Only R := by
  cases r <;> trivial

omit [Sha256] in
theorem only_authorize_scope (p : Principal) (project_id : String) (write : Bool) :
    (authorize_scope p project_id write).Only Call.Minor := by
  refine Only.bind (only_perform trivial) fun found => ?_
  cases found with
  | none => trivial
  | some tenant_id =>
    dsimp only
    repeat' split
    all_goals trivial

omit [Sha256] in
theorem only_readForWrite (p : Principal) (action_id : String) : (readForWrite p action_id).Only Call.Minor :=
  Only.bind (only_perform trivial) fun _ =>
    Only.bind (only_fromExcept _) fun _ => Only.bind (only_authorize_scope ..) fun _ => trivial

section
omit [Sha256] [Deployment]

theorem only_resolve_dependency (project_id ref : String) :
    (resolve_dependency project_id ref).Only Call.Minor := by
  refine Only.bind (only_perform trivial) fun found => ?_
  cases found with
  | none => trivial
  | some head =>
    dsimp only
    repeat' split
    all_goals trivial

theorem only_resolveEach (project_id : String) (refs : List String) :
    (resolveEach project_id refs).Only Call.Minor := by
  induction refs with
  | nil => trivial
  | cons ref rest ih =>
    exact Only.bind (only_resolve_dependency ..) fun _ => Only.bind ih fun _ => trivial

theorem only_current_dependencies (project_id : String) (pinned : List (String × String)) :
    (current_dependencies project_id pinned).Only Call.Minor := by
  refine Only.bind (Only.attempt (only_resolveEach ..)) fun r => ?_
  split <;> trivial

theorem only_action_approvals (row : ActionRow) : (_action_approvals row).Only Call.Minor := by
  unfold _action_approvals
  split
  · trivial
  · trivial
  · exact Only.bind (only_perform trivial) fun _ => trivial

theorem only_check_approvals (row : ActionRow) (now : Moment) : (check_approvals row now).Only Call.Minor :=
  Only.bind (only_action_approvals row) fun _ => Only.bind (only_perform trivial) fun _ => trivial

theorem only_stale_open_approvals (row : ActionRow) : (stale_open_approvals row).Only Call.Minor := by
  refine Only.bind (only_action_approvals row) fun found => ?_
  induction found with
  | nil => trivial
  | cons a rest ih =>
    unfold staleEach
    split
    · exact Only.bind (only_perform trivial) fun _ => ih
    · exact ih

theorem only_open_approvals (run_id action_id tenant_id project_id binding_hash : String)
    (subjects : List Subject) :
    (open_approvals run_id action_id tenant_id project_id binding_hash subjects).Only
      Call.Minor := by
  induction subjects with
  | nil => trivial
  | cons s rest ih => exact Only.bind (only_perform trivial) fun _ => Only.bind ih fun _ => trivial

theorem only_freeze_reasons (tenant_id project_id : String) :
    (freeze_reasons tenant_id project_id).Only Call.Minor :=
  Only.bind (only_perform trivial) fun _ => Only.bind (only_perform trivial) fun _ => trivial

theorem only_autonomy (project_id : String) : (autonomy project_id).Only Call.Minor :=
  Only.bind (only_perform trivial) fun _ => trivial

theorem only_authorityReasons (row : ActionRow) (now : Moment) :
    (authorityReasons row now).Only Call.Minor := by
  unfold authorityReasons
  split
  · exact Only.bind (only_check_approvals ..) fun _ => trivial
  · refine Only.bind (only_autonomy _) fun level => ?_
    split <;> trivial

theorem only_uncertaintyHolds (row : ActionRow) (now : Moment) :
    (uncertaintyHolds row now).Only Call.Minor := by
  unfold uncertaintyHolds
  split
  · exact Only.bind (Only.bind (only_perform trivial) fun _ => trivial) fun _ => trivial
  · trivial

end

theorem only_preflight (row : ActionRow) (now : Moment) : (preflight row now).Only Call.Minor :=
  Only.bind (only_freeze_reasons ..) fun _ =>
    Only.bind (only_current_dependencies ..) fun _ =>
      Only.bind (only_authorityReasons ..) fun _ =>
        Only.bind (only_uncertaintyHolds ..) fun _ => trivial

omit [Sha256] [Deployment] in
theorem only_requireActiveClient (project_id : String) : (requireActiveClient project_id).Only Call.Minor := by
  refine Only.bind (only_perform trivial) fun found => ?_
  split
  · trivial
  · trivial
  · refine Only.bind (only_perform trivial) fun status => ?_
    cases status with
    | none => trivial
    | some status =>
      dsimp only
      split <;> trivial

theorem only_plan (principal : Principal) (q : ProposeArgs) (now : Moment) :
    (_plan principal q now).Only Call.Minor := by
  refine Only.bind (only_fromExcept _) fun d => Only.bind (only_fromExcept _) fun env =>
    Only.bind (only_authorize_scope ..) fun _ => Only.bind (only_requireActiveClient _) fun _ =>
      Only.bind (only_fromExcept _) fun checked =>
        Only.bind (Only.attempt (only_resolveEach ..)) fun deps => ?_
  split
  · trivial
  · trivial
  · exact Only.bind (only_fromExcept _) fun _ => Only.bind (only_fromExcept _) fun _ =>
      Only.bind (only_autonomy _) fun _ => trivial

omit [Sha256] in
theorem only_sweepScope (principal : Option Principal) (row : ActionRow) :
    (sweepScope principal row).Only Call.Minor := by
  unfold sweepScope
  cases principal with
  | none => trivial
  | some p =>
    dsimp only
    split
    · trivial
    · exact Only.bind (only_authorize_scope ..) fun _ => trivial

section operations

variable {direct : Prop} {i : Nat} {m : Stage} {moment : Moment}

/-- What ends after calls that make no effect. -/
abbrev Calm {α : Type} (direct : Prop) (i : Nat) (m : Stage) : Except ActionError α → Stage → Prop :=
  (discipline direct).Ends Silent i m (Returns fun _ _ => True)

theorem calm {α : Type} {p : Gateway α} {P : α → Stage → Prop}
    (h : (discipline direct).Safe i ((discipline direct).Ends Silent i m (Returns P)) p m) :
    (discipline direct).Safe i (Calm direct i m) p m :=
  Ends.mono h fun r _ _ _ => by cases r <;> trivial

variable {to_state s : ActionState} {row : ActionRow} {now : Moment}

variable {actor reason : String} {u : Updates}

theorem safe_plain {evidence : List (String × Value)} (hk : Known m.world row) (hs : row.state = s)
    (edge : ActionState.Edge s to_state) (hto : to_state ∉ [.RESERVED, .DISPATCHING, .FAILED])
    (hfrom : s ≠ .FAILED) (hid : u.budget_reservation_id = none) (hcols : PlainColumns s to_state u) :
    (discipline direct).Safe i ((discipline direct).Ends Silent i m (Returns fun r m' =>
      Moved i m m' row r (moveArgs row to_state actor reason evidence u now)))
      (_move row to_state actor reason evidence u now) m := by
  subst hs
  refine safe_move hk (fun _ _ => .plain edge hto hfrom hid) fun _ _ => hcols.columns ?_ hfrom
  intro hto'
  rw [hto'] at hto
  exact absurd hto (by decide)

omit [Sha256] [Deployment] in
theorem unleased (ha : u.attempts = none) (hr : u.retry_eligible = none) (hl : u.lease_expires_at = none)
    (hs : s ∉ LEASES) : PlainColumns s to_state u :=
  ⟨ha, by rw [hr]; rfl, .inr (.inr ⟨hl, hs⟩)⟩

/-! ## Proposing -/

variable {t : Trace}

omit [Sha256] [Deployment] in
theorem trace_fromExcept_ok {α : Type} {r : Except ActionError α} {a : α} :
    (fromExcept r).Trace t (.ok a) ↔ t = [] ∧ r = .ok a := by
  cases r with
  | ok b =>
    constructor
    · rintro ⟨rfl, h⟩
      exact ⟨rfl, h.symm⟩
    · rintro ⟨rfl, h⟩
      exact ⟨rfl, h.symm⟩
  | error e =>
    constructor
    · rintro ⟨-, h⟩
      cases h
    · rintro ⟨-, h⟩
      cases h

variable {a : Adapter} {q : ProposeArgs}

variable {validated : ActionArgs}

omit [Sha256] in
theorem checkRequest_ok {d : ActionDescriptor} {env : Environment}
    (h : checkRequest q d env = .ok (a, validated)) :
    _adapter_for d = .ok a ∧ a.validate q.args = .ok validated := by
  unfold checkRequest at h
  split at h
  · cases h
  · cases ha : _adapter_for d with
    | error e =>
      rw [ha] at h
      cases h
    | ok b =>
      rw [ha] at h
      change (if _ then _ else if _ then _ else _) = _ at h
      split at h
      · cases h
      · split at h
        · cases h
        · split at h
          · rename_i v hv
            cases h
            exact ⟨rfl, hv⟩
          · cases h
          · cases h

variable {principal : Principal}

theorem plan_ok {p : Plan} (h : (_plan principal q now).Trace t (.ok p)) :
    ∃ d a env validated deps facts level, catalog_get q.capability_id = .ok d ∧
      _adapter_for d = .ok a ∧ a.validate q.args = .ok validated ∧
      p = makePlan principal q d a env validated deps (assess facts) level now := by
  obtain ⟨d, _, _, -, hd, h⟩ := Program.trace_bind_ok.mp h
  obtain ⟨env, _, _, -, -, h⟩ := Program.trace_bind_ok.mp h
  obtain ⟨_, _, _, -, -, h⟩ := Program.trace_bind_ok.mp h
  obtain ⟨_, _, _, -, -, h⟩ := Program.trace_bind_ok.mp h
  obtain ⟨⟨a, validated⟩, _, _, -, hcheck, h⟩ := Program.trace_bind_ok.mp h
  obtain ⟨r, _, _, -, -, h⟩ := Program.trace_bind_ok.mp h
  obtain ⟨ha, hv⟩ := checkRequest_ok (trace_fromExcept_ok.mp hcheck).2
  split at h
  · obtain ⟨-, h⟩ := h
    cases h
  · obtain ⟨-, h⟩ := h
    cases h
  · rename_i deps
    obtain ⟨requested, _, _, -, -, h⟩ := Program.trace_bind_ok.mp h
    obtain ⟨data_class, _, _, -, -, h⟩ := Program.trace_bind_ok.mp h
    obtain ⟨level, _, _, -, -, -, hp⟩ := Program.trace_bind_ok.mp h
    cases hp
    exact ⟨d, a, env, validated, deps, _, level, (trace_fromExcept_ok.mp hd).2, ha, hv, rfl⟩

theorem makePlan_proposed {risk : RiskAssessment} (hrisk : risk.Coherent)
    (ha : adapterOf a.descriptor.id = some a) (hv : a.validate q.args = .ok validated) (env : Environment)
    (deps : List (String × String)) (level : AutonomyLevel) (now : Moment) (client_id : Option String)
    (moment : Moment) :
    Proposed ((makePlan principal q a.descriptor a env validated deps risk level now).row principal q
      client_id moment) := by
  exact ⟨⟨hrisk, rfl, ite_eq_or_eq _ _ _, rfl, ⟨a, q.args, ha, hv, rfl, rfl, rfl⟩, rfl⟩, rfl, rfl,
    rfl, rfl, rfl, rfl⟩

/-- **What `propose` inserts is well formed.** -/
theorem plan_proposed {p : Plan} (h : (_plan principal q now).Trace t (.ok p)) (client_id : Option String)
    (moment : Moment) : Proposed (p.row principal q client_id moment) := by
  obtain ⟨d, a, env, validated, deps, facts, level, hd, ha, hv, rfl⟩ := plan_ok h
  obtain ⟨rfl, hadapter⟩ := adapter_of_entry hd ha
  exact makePlan_proposed (assess_coherent facts) hadapter hv env deps level now client_id moment

theorem safe_insert {evidence : Option Value} (hp : Proposed row) :
    (discipline direct).Safe i ((discipline direct).Ends Silent i m fun r m' =>
      ∀ x, r = .ok (x, true) → x = row ∧ Known m'.world x)
      (perform (.insert_request row actor reason evidence)) m := by
  refine Safe.mono (Safe.one (R := Silent) (fun _ h => nomatch h) fun m' _ => hp) ?_
  rintro r m' ⟨hwent, hcalled⟩
  refine ⟨hwent, ?_⟩
  rintro x rfl
  obtain ⟨m₁, o, hrely, hpre, hans, hext⟩ := hcalled.call
  have hs : Sound (exec.after _ o m₁.world) := (discipline direct).inv_call o hrely.inv hpre
  rcases insert_done (Interleaving.Exec.of_answer hans) with ⟨hc, -⟩ | ⟨-, rfl, hd⟩
  · cases hc
  · exact ⟨rfl, (Known.of_mem hs ((hd.requests _).mpr (.inr rfl))).later hext⟩

theorem safe_proposePrepared (principal : Principal) (p : Plan) (hk : Known m.world row)
    (hs : row.state = .PREPARED) :
    (discipline direct).Safe i (Calm direct i m) (proposePrepared principal p row moment) m := by
  unfold proposePrepared
  cases p.blockers with
  | cons blocker rest =>
    exact calm (safe_plain hk hs (by decide) (by decide) (by decide) rfl (unleased rfl rfl rfl (by decide)))
  | nil =>
    dsimp only
    split
    · refine Safe.seq (safe_aside (only_open_approvals ..)) fun ids m' hw _ => ?_
      exact calm (safe_plain (hk.went hw) hs (by decide) (by decide) (by decide) rfl
        (unleased rfl rfl rfl (by decide)))
    · exact calm (safe_plain hk hs (by decide) (by decide) (by decide) rfl (unleased rfl rfl rfl (by decide)))

theorem safe_proposeInserted (principal : Principal) (p : Plan) (hk : Known m.world row)
    (hs : row.state = .PROPOSED) :
    (discipline direct).Safe i (Calm direct i m) (proposeInserted principal p row moment) m := by
  refine Safe.seq (safe_plain hk hs (by decide) (by decide) (by decide) rfl (unleased rfl rfl rfl (by decide)))
    fun r m' _ hr => ?_
  refine Safe.seq (safe_plain hr.known (by rw [hr.result]; rfl) (s := .VALIDATED) (by decide)
    (by decide) (by decide) rfl (unleased rfl rfl rfl (by decide))) fun r' m'' _ hr' => ?_
  exact safe_proposePrepared principal p hr'.known (by rw [hr'.result]; rfl)

theorem safe_propose (principal : Principal) (q : ProposeArgs) :
    (discipline direct).Safe i (Calm direct i m) (propose principal q moment) m := by
  unfold propose
  split
  · exact Safe.fails
  · refine Safe.seq (P := fun p _ => ∀ c mo, Proposed (p.row principal q c mo))
      (Ends.mono (safe_minor (only_plan ..)) ?_) fun p m₁ _ hp => ?_
    · rintro (e | p) m' - ⟨t, ht, -⟩
      · trivial
      · exact fun c mo => plan_proposed ht c mo
    refine Safe.seq (safe_aside (only_perform trivial)) fun found m₂ _ _ => ?_
    cases found with
    | some existing =>
      dsimp only
      split
      · exact Safe.fails
      · exact Safe.done fun _ _ => trivial
    | none =>
      refine Safe.seq (safe_aside (only_perform trivial)) fun client_id m₃ _ _ => ?_
      refine Safe.seq_attempt (safe_insert (hp _ _)) fun r m₄ _ hr => ?_
      rcases r with e | ⟨x, created⟩
      · cases e <;> exact Safe.fails
      · cases created with
        | false => exact Safe.done fun _ _ => trivial
        | true =>
          obtain ⟨rfl, hk⟩ := hr x rfl
          refine Safe.seq (safe_proposeInserted principal p hk rfl) fun _ _ _ _ => ?_
          exact Safe.done fun _ _ => trivial

/-! ## Settling, cancelling, expiring -/

/-- What ends with a row the worker knows. -/
abbrev KnownRow : ActionRow → Stage → Prop := fun row m => Known m.world row

theorem done_known (hk : Known m.world row) :
    (discipline direct).Safe i ((discipline direct).Ends Silent i m (Returns KnownRow)) (.ret row) m :=
  Safe.done fun _ hm => hk.later hm.ext

theorem known_move {p : Gateway ActionRow} {a : TransitionArgs}
    (h : (discipline direct).Safe i ((discipline direct).Ends Silent i m (Returns fun r m' =>
      Moved i m m' row r a)) p m) :
    (discipline direct).Safe i ((discipline direct).Ends Silent i m (Returns KnownRow)) p m :=
  Ends.mono h fun r _ _ hr => by
    cases r with
    | ok r => exact Moved.known hr
    | error e => trivial

theorem safe_closeWaiting (actor reason : String) (check : ApprovalCheck) (hk : Known m.world row)
    (hs : row.state = .AWAITING_APPROVAL) (edge : ActionState.Edge .AWAITING_APPROVAL to_state)
    (hto : to_state ∉ [.RESERVED, .DISPATCHING, .FAILED]) :
    (discipline direct).Safe i ((discipline direct).Ends Silent i m (Returns KnownRow))
      (closeWaiting row to_state actor reason check moment) m := by
  refine Safe.seq (safe_plain hk hs edge hto (by decide) rfl (unleased rfl rfl rfl (by decide)))
    fun r m' _ hr => ?_
  refine Safe.seq (safe_aside (only_stale_open_approvals r)) fun _ m'' hw _ => ?_
  exact done_known (hr.known.went hw)

theorem safe_settleWaiting (actor : String) (check : ApprovalCheck) (hk : Known m.world row)
    (hs : row.state = .AWAITING_APPROVAL) :
    (discipline direct).Safe i ((discipline direct).Ends Silent i m (Returns KnownRow))
      (settleWaiting row actor check moment) m := by
  unfold settleWaiting
  split
  · exact safe_closeWaiting _ _ _ hk hs (by decide) (by decide)
  · split
    · exact safe_closeWaiting _ _ _ hk hs (by decide) (by decide)
    · split
      · exact safe_closeWaiting _ _ _ hk hs (by decide) (by decide)
      · split
        · exact known_move (safe_plain hk hs (by decide) (by decide) (by decide) rfl
            (unleased rfl rfl rfl (by decide)))
        · split
          · exact known_move (safe_plain hk hs (by decide) (by decide) (by decide) rfl
              (unleased rfl rfl rfl (by decide)))
          · exact done_known hk

theorem safe_settle_once (action_id actor : String) :
    (discipline direct).Safe i ((discipline direct).Ends Silent i m (Returns KnownRow))
      (_settle action_id actor moment) m := by
  refine Safe.seq (safe_get_request action_id) fun found m' _ hfound => ?_
  cases found with
  | none => exact Safe.fails
  | some row =>
    have hk := hfound row rfl
    dsimp only
    split
    · exact done_known hk
    · rename_i hs
      refine Safe.seq (safe_aside (only_check_approvals row moment)) fun check m'' hw _ => ?_
      exact safe_settleWaiting actor check (hk.went hw) (not_not.mp hs)

theorem safe_settle (action_id actor : String) :
    (discipline direct).Safe i ((discipline direct).Ends Silent i m (Returns KnownRow))
      (settle action_id actor moment) m := by
  refine Safe.seq_attempt (safe_settle_once action_id actor) fun r m' _ hr => ?_
  rcases r with e | row
  · cases e with
    | ActionConflict detail =>
      refine Safe.seq (safe_get_request action_id) fun found m'' _ hfound => ?_
      cases found with
      | none => exact Safe.fails
      | some row =>
        dsimp only
        split
        · exact Safe.fails
        · exact done_known (hfound row rfl)
    | _ => exact Safe.fails
  · exact done_known hr

theorem safe_readForWrite (principal : Principal) (action_id : String) :
    (discipline direct).Safe i ((discipline direct).Ends Silent i m (Returns KnownRow))
      (readForWrite principal action_id) m := by
  refine Safe.seq (safe_get_request action_id) fun found m₁ _ hfound => ?_
  refine Safe.seq (P := KnownRow) (safe_fromExcept fun row m₂ hrow hm => ?_) fun row m₂ _ hk => ?_
  · have hsome : found = some row := by
      cases found with
      | none => cases hrow
      | some x =>
        unfold visible at hrow
        dsimp only at hrow
        split at hrow
        · cases hrow
        · cases hrow
          rfl
    exact (hfound row hsome).later hm.ext
  · refine Safe.seq (safe_aside (only_authorize_scope ..)) fun _ m₃ hw _ => ?_
    exact done_known (hk.went hw)

section
omit [Sha256] [Deployment]

theorem edge_cancelled (h : s ∈ ActionState.PRE_DISPATCH) : ActionState.Edge s .CANCELLED := by
  revert h
  cases s <;> decide

theorem edge_expired (h : s ∈ EXPIRABLE) : ActionState.Edge s .EXPIRED := by
  revert h
  cases s <;> decide

theorem not_leases_of_pre_dispatch (h : s ∈ ActionState.PRE_DISPATCH) : s ∉ LEASES := by
  revert h
  cases s <;> decide

theorem not_leases_of_expirable (h : s ∈ EXPIRABLE) : s ∉ LEASES := by
  revert h
  cases s <;> decide

end

theorem safe_cancel (principal : Principal) (action_id reason : String) :
    (discipline direct).Safe i (Calm direct i m) (cancel principal action_id reason moment) m := by
  refine Safe.seq (safe_readForWrite principal action_id) fun row m₁ _ hk => ?_
  split
  · exact Safe.fails
  · rename_i hs
    have hs := not_not.mp hs
    refine Safe.seq (safe_release hk (by decide)) fun _ m₂ hw _ => ?_
    refine Safe.seq (safe_plain (hk.went hw) rfl (edge_cancelled hs) (by decide) ?_ rfl
      ⟨rfl, rfl, .inr (.inr ⟨rfl, not_leases_of_pre_dispatch hs⟩)⟩) fun r m₃ _ hr => ?_
    · intro he
      rw [he] at hs
      exact absurd hs (by decide)
    · refine Safe.seq (safe_aside (only_stale_open_approvals r)) fun _ m₄ _ _ => ?_
      exact Safe.done fun _ _ => trivial

theorem safe_expireRow (hk : Known m.world row) (hs : row.state ∈ EXPIRABLE) :
    (discipline direct).Safe i (Calm direct i m) (expireRow row moment) m := by
  refine Safe.seq (safe_release hk (by decide)) fun _ m₁ hw _ => ?_
  refine Safe.seq (safe_plain (hk.went hw) rfl (edge_expired hs) (by decide) ?_ rfl
    ⟨rfl, rfl, .inr (.inr ⟨rfl, not_leases_of_expirable hs⟩)⟩) fun r m₂ _ hr => ?_
  · intro he
    rw [he] at hs
    exact absurd hs (by decide)
  · refine Safe.seq (safe_aside (only_stale_open_approvals r)) fun _ m₃ _ _ => ?_
    exact Safe.done fun _ _ => trivial

/-- The rows of a sweep: each is known, and in one of the states. -/
def Swept (w : World) (states : List ActionState) (rows : List ActionRow) : Prop :=
  ∀ row ∈ rows, Known w row ∧ row.state ∈ states

variable {rows : List ActionRow} {w' : World}

omit [Sha256] [Deployment] in
theorem Swept.later {w : World} {states : List ActionState} (h : Swept w states rows) (hw : Later w w') :
    Swept w' states rows :=
  fun row hrow => ⟨(h row hrow).1.later hw, (h row hrow).2⟩

theorem safe_expireEach (principal : Option Principal) (h : Swept m.world EXPIRABLE rows) :
    (discipline direct).Safe i (Calm direct i m) (expireEach principal moment rows) m := by
  induction rows generalizing m with
  | nil => exact Safe.done fun _ _ => trivial
  | cons row rest ih =>
    obtain ⟨hk, hs⟩ := h row List.mem_cons_self
    have hrest : Swept m.world EXPIRABLE rest := fun x hx => h x (List.mem_cons_of_mem _ hx)
    refine Safe.seq (safe_aside (only_sweepScope principal row)) fun inScope m₁ hw₁ _ => ?_
    dsimp only
    split
    · refine Safe.seq_attempt (safe_expireRow (hk.went hw₁) hs) fun r m₂ hw₂ _ => ?_
      have hrest := (hrest.later hw₁.ext).later hw₂.ext
      rcases r with e | id
      · cases e with
        | ActionConflict detail => exact ih hrest
        | _ => exact Safe.fails
      · refine Safe.seq (ih hrest) fun _ m₃ _ _ => ?_
        exact Safe.done fun _ _ => trivial
    · exact ih (hrest.later hw₁.ext)

theorem safe_expire_due (tenant_id : String) (principal : Option Principal) :
    (discipline direct).Safe i (Calm direct i m) (expire_due tenant_id principal moment) m := by
  unfold expire_due
  split
  · exact Safe.fails
  · refine Safe.seq (P := fun rows m' => Swept m'.world EXPIRABLE rows)
      (safe_read (c := .expiring_before tenant_id moment EXPIRABLE) trivial ?_)
      fun rows m' _ hrows => safe_expireEach principal hrows
    intro rows m' w o _ _ hs hexec hw row hrow
    have hrows : expiring_before w tenant_id moment EXPIRABLE = rows := by simpa [exec] using hexec
    subst hrows
    obtain ⟨hmem, hcond⟩ := List.mem_filter.mp ((List.mem_insertionSort _).mp hrow)
    simp only [decide_eq_true_eq] at hcond
    exact ⟨(Known.of_mem hs hmem).later hw, hcond.2.1⟩

/-! ## Observing and completing -/

/-- What an observation says is so of the effect under the action's key. -/
def Observed (w : World) (row : ActionRow) (obs : Observation) : Prop :=
  ∀ s, obs.state = some s → ∃ e, ReadBack w row e ∧ obs.payload_hash = some e.payload_hash ∧
    obs.cost_minor = e.cost_minor ∧ (s = "REFUNDED" → e.state ≠ "SPENT")

variable {obs : Observation}

theorem Observed.later {w : World} (h : Observed w row obs) (hw : Later w w') : Observed w' row obs := by
  intro s hs
  obtain ⟨e, hread, hpayload, hcost, hspent⟩ := h s hs
  obtain ⟨e', he', hf⟩ := hw.effects e hread.mem
  refine ⟨e', ⟨he', hf.tenant_id.trans hread.tenant_id, ?_, hf.idempotency_key.trans hread.key⟩,
    by rw [hf.payload_hash]; exact hpayload, by rw [hf.cost_minor]; exact hcost,
    fun hr hs' => hspent hr (hf.spent hs')⟩
  obtain ⟨a, ha, hp⟩ := hread.provider
  exact ⟨a, ha, hf.provider.trans hp⟩

theorem safe_observe (ha : adapterOf row.capability_id = some a) :
    (discipline direct).Safe i ((discipline direct).Ends Silent i m (Returns fun obs m' =>
      Observed m'.world row obs ∧ (obs.found = false → ∃ t, m'.own i = m.own i ++ t ∧
        Did t (.sandbox_get row.tenant_id a.provider (_ctx row).effect_key) none)))
      (a.observe (_ctx row)) m := by
  refine Safe.seq (P := fun _ m' => m'.own i = m.own i)
    (safe_fromExcept fun _ m' _ hm => hm.own) fun _ m₁ _ hown₁ => ?_
  refine Safe.seq (P := fun fault m' => m'.own i = m.own i ++ [⟨.fault, .ok fault⟩])
    (safe_read (c := .fault) trivial ?_) fun fault m₂ _ hown₂ => ?_
  · intro fault m' w o hcalled _ _ _ _
    rw [hcalled.own, hown₁]
  split
  · exact Safe.fails
  · refine Safe.seq (P := fun found m' => Observed m'.world row (Adapter.observation fault found) ∧
        (found = none → Did (m'.own i) (.sandbox_get row.tenant_id a.provider (_ctx row).effect_key)
          none ∧ ∃ t, m'.own i = m.own i ++ t ∧
            Did t (.sandbox_get row.tenant_id a.provider (_ctx row).effect_key) none))
      (safe_read (c := .sandbox_get row.tenant_id a.provider (_ctx row).effect_key) trivial ?_) ?_
    · intro found m' w o hcalled _ _ hexec hw
      have hfound : sandbox_get w row.tenant_id a.provider (_ctx row).effect_key = found := by
        simpa [exec] using hexec
      refine ⟨?_, ?_⟩
      · cases found with
        | none =>
          intro s hs
          cases hs
        | some e =>
          refine Observed.later (fun s hs => ?_) hw
          obtain ⟨hmem, hkey⟩ := Table.find?_eq_some.mp hfound
          obtain ⟨ht, hp, hk⟩ : e.tenant_id = row.tenant_id ∧ e.provider = a.provider ∧
              e.idempotency_key = (_ctx row).effect_key := by simpa using hkey
          refine ⟨e, ⟨hmem, ht, ⟨a, ha, hp⟩, hk⟩, rfl, rfl, ?_⟩
          rintro rfl hspent
          simp only [Adapter.observation, hspent] at hs
          split at hs <;> simp at hs
      · rintro rfl
        rw [hcalled.own, hown₂, List.append_assoc]
        refine ⟨List.mem_append_right _ ?_, _, rfl, ?_⟩ <;> simp [Did]
    · intro found m₃ _ h
      refine Safe.done fun m₄ hm => ⟨h.1.later hm.ext, fun hf => ?_⟩
      cases found with
      | none =>
        obtain ⟨-, t, ht, hdid⟩ := h.2 rfl
        exact ⟨t, hm.own.trans ht, hdid⟩
      | some e => cases hf

theorem safe_get_reservation (id : Nat) :
    (discipline direct).Safe i ((discipline direct).Ends Silent i m (Returns fun found _ =>
      ∀ r, found = some r → r.reservation_id = id)) (perform (.get_reservation id)) m := by
  refine safe_read (c := .get_reservation id) trivial fun found m' w o _ _ _ hexec _ r hr => ?_
  subst hr
  have hfound : get_reservation w id = some r := by simpa [exec] using hexec
  exact Table.key_of_find? hfound

theorem safe_commitBudget (hk : Known m.world row) (hs : row.state = .VERIFIED)
    (hobs : Observed m.world row obs) (hmatch : _matches row obs a.expected_state = true) :
    (discipline direct).Safe i (Calm direct i m) (commitBudget row obs) m := by
  unfold commitBudget
  cases hname : row.budget_reservation_id with
  | none => exact Safe.done fun _ _ => trivial
  | some id =>
    refine Safe.seq (safe_get_reservation id) fun found m₁ hw hid => ?_
    cases found with
    | none => exact Safe.done fun _ _ => trivial
    | some r =>
      dsimp only
      split
      · refine Safe.seq (safe_settle_reservation fun m₂ hm => ?_) fun _ m₂ _ _ =>
          Safe.done fun _ _ => trivial
        simp only [_matches, Bool.and_eq_true, decide_eq_true_eq] at hmatch
        obtain ⟨⟨-, hstate⟩, hpayload⟩ := hmatch
        obtain ⟨e, hread, hep, hcost, -⟩ := ((hobs.later hw.ext).later hm.ext) _ hstate
        refine .commit ((hk.went hw).later hm.ext).seen hs ?_ hread ?_ rfl rfl ?_
        · rw [hname, ← hid r rfl]
        · rw [hpayload, Option.some.injEq] at hep
          exact hep.symm
        · rw [hcost]
      · exact Safe.done fun _ _ => trivial

theorem safe_complete (actor : String) (hk : Known m.world row) (hs : ActionState.Edge row.state .VERIFIED)
    (hobs : Observed m.world row obs) (hmatch : _matches row obs a.expected_state = true) :
    (discipline direct).Safe i (Calm direct i m) (_complete row obs actor moment) m := by
  have hfrom : row.state ≠ .FAILED := by
    intro he
    rw [he] at hs
    exact absurd hs (by decide)
  refine Safe.seq (safe_plain hk rfl hs (by decide) hfrom rfl ⟨rfl, rfl, .inr (.inl (by decide))⟩)
    fun r m₁ hw hr => ?_
  have hobs₁ : Observed m₁.world r obs := by
    rw [hr.result]
    intro s hstate
    obtain ⟨e, hread, rest⟩ := (hobs.later hw.ext) s hstate
    exact ⟨e, ⟨hread.mem, hread.tenant_id, hread.provider, hread.key⟩, rest⟩
  have hstate : r.state = .VERIFIED := by rw [hr.result]; rfl
  have hmatch₁ : _matches r obs a.expected_state = true := by
    rw [hr.result]
    exact hmatch
  refine Safe.seq (safe_commitBudget hr.known hstate hobs₁ hmatch₁) fun _ m₂ hw₂ _ => ?_
  exact calm (safe_plain (hr.known.went hw₂) hstate (by decide) (by decide) (by decide) rfl
    ⟨rfl, rfl, .inl rfl⟩)

theorem safe_to_unknown (reason actor : String) (obs : Option Observation) (hk : Known m.world row)
    (edge : ActionState.Edge row.state .UNKNOWN) :
    (discipline direct).Safe i (Calm direct i m) (_to_unknown row reason actor obs moment) m := by
  refine calm (safe_plain hk rfl edge (by decide) ?_ rfl ⟨rfl, rfl, .inl rfl⟩)
  intro he
  rw [he] at edge
  exact absurd edge (by decide)

theorem safe_observe_row (actor : String) (hk : Known m.world row) (hs : row.state = .OBSERVING)
    (ha : adapterOf row.capability_id = some a) :
    (discipline direct).Safe i (Calm direct i m) (_observe row a actor moment) m := by
  have hunknown : ActionState.Edge row.state .UNKNOWN := by
    rw [hs]
    decide
  refine Safe.seq (P := fun _ _ => True) (safe_fromExcept fun _ _ _ _ => trivial) fun _ m₁ hw₁ _ => ?_
  refine Safe.seq_attempt (safe_observe ha) fun r m₂ hw₂ hr => ?_
  have hk₂ := (hk.went hw₁).went hw₂
  rcases r with e | obs
  · cases e with
    | Adapter kind detail => exact safe_to_unknown _ _ _ hk₂ hunknown
    | _ => exact Safe.fails
  · dsimp only
    split
    · rename_i hmatch
      exact safe_complete (a := a) actor hk₂ (by rw [hs]; decide) hr.1 hmatch
    · exact safe_to_unknown _ _ _ hk₂ hunknown

/-! ## Dispatching -/

/-- A failure the adapter raised before it sent anything. -/
def Unsent (i : Nat) : Except ActionError DispatchReceipt → Stage → Prop := fun r m =>
  ∀ kind detail, r = .error (.Adapter kind detail) → kind ≠ .OutcomeUnknown → NoPut (m.own i)

/-- A transient failure comes after the fault the adapter raised it for. -/
def Faulted (i : Nat) (m : Stage) : Except ActionError DispatchReceipt → Stage → Prop := fun r m' =>
  ∀ detail, r = .error (.Adapter .TransientBeforeEffect detail) →
    ∃ t, m'.own i = m.own i ++ t ∧ Did t .fault (some .transient_before_effect)

/-- The frame of a program that may send the effect. -/
def Anyhow : Call → Prop := fun _ => True

/-- What is known when `execute` has ended. -/
def Executed (i : Nat) (m : Stage) : Except ActionError DispatchReceipt → Stage → Prop := fun r m' =>
  Unsent i r m' ∧ Faulted i m r m'

theorem unsent_raise {e : ActionError} {m₀ : Stage} (hput : NoPut (m.own i))
    (hfault : ∀ m', m'.own i = m.own i → Faulted i m₀ (.error e) m') :
    (discipline direct).Safe i ((discipline direct).Ends Anyhow i m (Executed i m₀)) (.raise e) m :=
  fun m' hm => ⟨hm.went, fun _ _ _ _ => by rw [hm.own]; exact hput, hfault m' hm.own⟩

omit [Sha256] [Deployment] in
theorem require_sandbox_ne (ctx : EffectContext) (detail : String) :
    Adapter._require_sandbox ctx ≠ .error (.Adapter .TransientBeforeEffect detail) := by
  unfold Adapter._require_sandbox
  split
  · intro h
    cases h
  · intro h
    cases h

/-- **Sending the effect**, by the worker that holds the lease. -/
theorem safe_execute {args : ActionArgs} (hk : Known m.world row) (hlease : Leased (m.own i) row)
    (hput : NoPut (m.own i)) (ha : adapterOf row.capability_id = some a)
    (hargs : a.validate row.args = .ok args) :
    (discipline direct).Safe i ((discipline direct).Ends Anyhow i m (Executed i m))
      (a.execute (_ctx row) args) m := by
  unfold Adapter.execute
  split
  · exact unsent_raise hput fun _ _ _ h => nomatch h
  · cases hsandbox : Adapter._require_sandbox (_ctx row) with
    | error e =>
      refine unsent_raise hput fun _ _ detail h => ?_
      cases h
      exact absurd hsandbox (require_sandbox_ne _ _)
    | ok u =>
      change (discipline direct).Safe i _ ((perform .fault).bind _) m
      have hfault : (discipline direct).Safe i ((discipline direct).Ends Silent i m fun r m' =>
          (discipline direct).Called i .fault m m' r) (perform .fault) m :=
        Safe.one (fun _ h => nomatch h) fun _ _ => trivial
      refine Safe.bind hfault ?_ ?_
      · rintro fault m₁ ⟨hw, hcalled⟩
        refine Ends.after (hw.mono fun _ _ => trivial) ?_
        split
        · refine unsent_raise (hput.went hw) fun m' hsame _ _ => ⟨_, hsame.trans hcalled.own, ?_⟩
          exact List.mem_singleton_self _
        · exact unsent_raise (hput.went hw) fun _ _ _ h => nomatch h
        · exact unsent_raise (hput.went hw) fun _ _ _ h => nomatch h
        · refine Safe.bind (Safe.one (R := Anyhow) trivial fun m₂ hm =>
            ⟨row, a, args, (hk.went hw).seen.later hm.ext, ?_, ?_, ha, hargs, rfl⟩) ?_ ?_
          · rw [hm.own]
            exact hlease.mono hw.prefix
          · rw [hm.own]
            exact hput.went hw
          · rintro ⟨effect, created⟩ m₂ ⟨hw₂, -⟩
            refine Ends.after hw₂ ?_
            dsimp only
            split
            · exact fun _ hm => ⟨hm.went, (fun kind _ h hne => absurd (by cases h; rfl) hne),
                fun _ h => nomatch h⟩
            · refine Safe.bind (Safe.one (R := Anyhow) trivial fun _ _ => trivial) ?_ ?_
              · rintro stamp m₃ ⟨hw₃, -⟩
                exact fun _ hm => ⟨hw₃.trans hm.went, (fun _ _ h _ => nomatch h), fun _ h => nomatch h⟩
              · rintro e m₃ ⟨hw₃, hcalled⟩
                obtain ⟨m₄, o, -, -, hans, -⟩ := hcalled.call
                cases hans
          · rintro e m₂ ⟨hw₂, hcalled⟩
            -- the provider's store has no adapter errors of its own
            suffices hnone : ∀ kind detail, e ≠ .Adapter kind detail from
              ⟨hw₂, fun kind detail he _ => absurd (Except.error.inj he) (hnone kind detail),
                fun detail he => absurd (Except.error.inj he) (hnone _ detail)⟩
            rintro kind detail rfl
            obtain ⟨m₃, o, -, -, hans, -⟩ := hcalled.call
            have : sandbox_put m₃.world (putArgs a (_ctx row) args) = .error (.Adapter kind detail) := by
              change (sandbox_put m₃.world (putArgs a (_ctx row) args)).map Prod.fst = _ at hans
              cases h : sandbox_put m₃.world (putArgs a (_ctx row) args) with
              | ok x => rw [h] at hans; cases hans
              | error e => rw [h] at hans; cases hans; rfl
            unfold sandbox_put at this
            split at this
            · cases this
            · split at this <;> cases this
      · rintro e m₁ ⟨-, hcalled⟩
        obtain ⟨m₂, o, -, -, hans, -⟩ := hcalled.call
        cases hans

end operations

end Actions
