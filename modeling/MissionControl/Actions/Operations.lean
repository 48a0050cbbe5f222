import MissionControl.Actions.Safety

/-! # The operations that reach the provider

Dispatching, retrying, reconciling and compensating keep the discipline too, so
all programs of the plane do (`covers`). -/

namespace Actions

open Canonical (Value Sha256)
open Interleaving (Program)
open Interleaving.Discipline (Returns Safe Ends)
open Interleaving.Program (only_perform)
open Gateway (perform fromExcept)

variable [Sha256] [Deployment]

section operations

variable {direct : Prop} {i : Nat} {m m' : Stage} {moment : Moment}

/-! ## An attempt -/

/-- What ends after any calls. -/
abbrev Loose {α : Type} (direct : Prop) (i : Nat) (m : Stage) :
    Except ActionError α → Stage → Prop :=
  (discipline direct).Ends Anyhow i m (Returns fun _ _ => True)

variable {α : Type} {p : Gateway α} {P : α → Stage → Prop}

theorem loose (h : (discipline direct).Safe i ((discipline direct).Ends Silent i m (Returns P)) p m) :
    (discipline direct).Safe i ((discipline direct).Ends Anyhow i m (Returns P)) p m :=
  h.mono fun _ _ hr => ⟨hr.1.mono fun _ _ => trivial, hr.2⟩

variable {β : Type} {Q : β → Stage → Prop}

theorem seq_silent {f : α → Gateway β}
    (hp : (discipline direct).Safe i ((discipline direct).Ends Silent i m (Returns P)) p m)
    (hf : ∀ a m', (discipline direct).Went Silent i m m' → P a m' →
      (discipline direct).Safe i ((discipline direct).Ends Anyhow i m' (Returns Q)) (f a) m') :
    (discipline direct).Safe i ((discipline direct).Ends Anyhow i m (Returns Q)) (p.bind f) m :=
  Safe.bind hp (fun a m' h => Ends.after (h.1.mono fun _ _ => trivial) (hf a m' h.1 h.2))
    fun _ _ h => ⟨h.1.mono fun _ _ => trivial, trivial⟩

theorem seq_silent_attempt {f : Except ActionError α → Gateway β}
    (hp : (discipline direct).Safe i ((discipline direct).Ends Silent i m (Returns P)) p m)
    (hf : ∀ r m', (discipline direct).Went Silent i m m' → Returns P r m' →
      (discipline direct).Safe i ((discipline direct).Ends Anyhow i m' (Returns Q)) (f r) m') :
    (discipline direct).Safe i ((discipline direct).Ends Anyhow i m (Returns Q)) (p.attempt.bind f) m :=
  Safe.attempt_bind hp fun r m' h => Ends.after (h.1.mono fun _ _ => trivial) (hf r m' h.1 h.2)

theorem safe_silent {c : Call} (hc : Silent c)
    (hp : ∀ m', (discipline direct).Rely i m m' → Pre direct i c m') :
    (discipline direct).Safe i (Calm direct i m) (perform c) m :=
  Safe.mono (Safe.one (D := discipline direct) (R := Silent) hc hp) fun r _ hr =>
    ⟨hr.1, by cases r <;> trivial⟩

theorem safe_adapter {R : Call → Prop} {capability_id : String} {f : ActionDescriptor → Adapter → Gateway β}
    (hf : ∀ d a, adapterOf capability_id = some a →
      (discipline direct).Safe i ((discipline direct).Ends R i m (Returns Q)) (f d a) m) :
    (discipline direct).Safe i ((discipline direct).Ends R i m (Returns Q))
      ((fromExcept (catalog_get capability_id)).bind fun d =>
        (fromExcept (_adapter_for d)).bind fun a => f d a) m := by
  cases hd : catalog_get capability_id with
  | error e => exact Safe.fails
  | ok d =>
    cases ha : _adapter_for d with
    | error e =>
      show (discipline direct).Safe i _ ((fromExcept (_adapter_for d)).bind _) m
      rw [ha]
      exact Safe.fails
    | ok a =>
      show (discipline direct).Safe i _ ((fromExcept (_adapter_for d)).bind _) m
      rw [ha]
      refine hf d a ?_
      unfold adapterOf
      rw [hd]
      show (_adapter_for d).toOption = some a
      rw [ha]
      rfl

variable {row : ActionRow}

theorem Leased.state {t : Trace} (h : Leased t row) : row.state = .DISPATCHING := by
  obtain ⟨_, _, _, _, _, -, -, hstate, -⟩ := h
  exact hstate

/-- **A failure of the attempt**, before anything was sent. -/
theorem safe_failed {actor reason : String} {evidence : List (String × Value)} {u : Updates}
    (hk : Known m.world row) (hlease : Leased (m.own i) row) (hput : NoPut (m.own i))
    (hid : u.budget_reservation_id = some none ∨
      u.budget_reservation_id = none ∧ u.retry_eligible = some false) (ha : u.attempts = none)
    (hl : u.lease_expires_at = some none) (heligible : u.retry_eligible = some true →
      row.attempts < MAX_ATTEMPTS ∧ BeforeEffect (m.own i) row) : (discipline direct).Safe i (Calm direct i m)
      ((_release_budget row .RELEASED).bind fun _ =>
        _move row .FAILED actor reason evidence u moment) m := by
  refine Safe.seq (safe_release hk (by decide)) fun _ m₁ hw hreleased => ?_
  refine calm (safe_move (hk.went hw) (fun m₂ hm => .failed ?_ ?_ ?_ hid) fun m₂ hm => ?_)
  · rw [hm.own]
    exact hlease.mono hw.prefix
  · rw [hm.own]
    exact hput.went hw
  · exact hreleased.later (hk.went hw) hm.ext
  · refine ⟨ha, .inl hl, fun htrue => ?_, fun hfailed => ?_⟩
    · obtain ⟨hbound, hbefore⟩ := heligible htrue
      refine ⟨rfl, hbound, .inl ?_⟩
      rw [hm.own]
      exact hbefore.mono hw.prefix (hput.went hw)
    · rw [hlease.state] at hfailed
      cases hfailed

variable {a : Adapter}

/-- **An attempt**, by the worker that took the lease. -/
theorem safe_execute_and_observe (actor : String) (hk : Known m.world row) (hlease : Leased (m.own i) row)
    (hput : NoPut (m.own i)) (ha : adapterOf row.capability_id = some a) :
    (discipline direct).Safe i (Loose direct i m) (_execute_and_observe row a actor moment) m := by
  have hunknown : ActionState.Edge row.state .UNKNOWN := by
    rw [hlease.state]
    decide
  refine Safe.seq (P := fun args m' => a.validate row.args = .ok args ∧ m'.own i = m.own i)
    (safe_fromExcept fun args m' hargs hm => ⟨hargs, hm.own⟩) ?_
  rintro args m₁ hw₁ ⟨hargs, hown⟩
  refine Safe.seq_attempt (safe_execute (hk.went hw₁) (by rw [hown]; exact hlease)
    (by rw [hown]; exact hput) ha hargs) fun r m₂ hw₂ hdone => ?_
  have hk₂ := (hk.went hw₁).went hw₂
  have hlease₂ : Leased (m₂.own i) row := by
    refine Leased.mono ?_ hw₂.prefix
    rw [hown]
    exact hlease
  rcases r with e | receipt
  · cases e with
    | Adapter kind detail =>
      have hput₂ : kind ≠ .OutcomeUnknown → NoPut (m₂.own i) := hdone.1 kind detail rfl
      cases kind with
      | OutcomeUnknown => exact loose (safe_to_unknown _ _ _ hk₂ hunknown)
      | TransientBeforeEffect =>
        refine loose (safe_failed hk₂ hlease₂ (hput₂ (by decide)) (.inl rfl) rfl rfl fun htrue => ?_)
        obtain ⟨t, ht, hfault⟩ := hdone.2 detail rfl
        have hput₃ := hput₂ (by decide)
        rw [ht, hown] at hput₃ ⊢
        exact ⟨by simpa [failedBefore] using htrue, hlease.beforeEffect hfault hput₃⟩
      | CompensationUnsupported => exact Safe.fails
      | _ =>
        exact loose (safe_failed hk₂ hlease₂ (hput₂ (by decide)) (.inr ⟨rfl, rfl⟩) rfl rfl
          fun h => nomatch h)
    | _ => exact Safe.fails
  · refine Safe.seq (loose (safe_plain hk₂ hlease.state (by decide) (by decide) (by decide) rfl
      ⟨rfl, rfl, .inr (.inl (by decide))⟩))
      fun r m₃ hw₃ hr => ?_
    refine loose (safe_observe_row actor hr.known (by rw [hr.result]; rfl) ?_)
    rw [hr.result]
    exact ha

/-! ## Dispatching -/

/-- What `reserve_budget` leaves behind, for the worker that called it. -/
structure Reserved (i : Nat) (m : Stage) (row : ActionRow) (currency : String) (moment : Moment)
    (res : Reservation) : Prop where
  did : Did (m.own i) (.reserve_budget (reserveArgs row currency moment)) res
  held : ∃ r ∈ m.world.action_budget_reservations, r.reservation_id = res.reservation_id ∧
    ReservedFor row.toActionIdentity r

theorem safe_reserve_budget {currency : String} (hbegan : Began i moment m) (hk : Known m.world row)
    (hs : row.state = .AUTHORIZED) (hcurrency : row.binding.currency = some currency) :
    (discipline direct).Safe i ((discipline direct).Ends Silent i m
      (Returns fun res m' => Reserved i m' row currency moment res))
      (perform (.reserve_budget (reserveArgs row currency moment))) m := by
  refine Safe.mono (Safe.one (R := Silent) (fun _ h => nomatch h) fun m' hm => ?_) ?_
  · exact ⟨Nat.le_trans hbegan.past (Later.now hm.ext),
      .inr ⟨row, currency, moment, hk.seen.later hm.ext, hs, hcurrency, rfl⟩⟩
  · rintro (e | res) m' ⟨hwent, hcalled⟩
    · exact ⟨hwent, trivial⟩
    · refine ⟨hwent, ?_, ?_⟩
      · rw [hcalled.own]
        exact List.mem_append_right _ (List.mem_singleton_self _)
      · obtain ⟨m₁, o, -, -, hans, hext⟩ := hcalled.call
        have hexec : reserve_budget m₁.world (reserveArgs row currency moment) = .ok (res, _) :=
          Interleaving.Exec.of_answer hans
        have hd := reserve_done hexec
        have hfor : ReservedFor row.toActionIdentity res := by
          rw [hd.result]
          exact ⟨rfl, rfl, rfl, rfl, rfl, currency, hcurrency, rfl⟩
        obtain ⟨r, hr, hf⟩ := (Later.reservations hext) res ((hd.reservations res).mpr (.inr rfl))
        exact ⟨r, hr, hf.reservation_id, hfor.follows hf⟩

/-- The row a dispatch goes on with. -/
structure Ready (w : World) (row : ActionRow) (r : ActionRow) : Prop where
  known : Known w r
  identity : r.toActionIdentity = row.toActionIdentity
  state : r.state = .AUTHORIZED ∨ r.state = .RESERVED

theorem safe_reserveSpend (actor : String) (hbegan : Began i moment m) (hk : Known m.world row)
    (hs : row.state = .AUTHORIZED ∨ row.state = .RESERVED) :
    (discipline direct).Safe i ((discipline direct).Ends Silent i m
      (Returns fun r m' => r.2 = true → Ready m'.world row r.1)) (reserveSpend row actor moment) m := by
  unfold reserveSpend
  split
  · rename_i hspend
    cases hcurrency : row.binding.currency with
    | none => exact Safe.fails
    | some currency =>
      refine Safe.seq_attempt (safe_reserve_budget hbegan hk hspend.2 hcurrency)
        fun r m₁ hw₁ hr => ?_
      rcases r with e | res
      · cases e with
        | BudgetExceeded code breaches =>
          refine Safe.seq (safe_plain (hk.went hw₁) hspend.2 (by decide) (by decide) (by decide) rfl
            (unleased rfl rfl rfl (by decide))) fun _ m₂ _ _ => ?_
          exact Safe.done fun _ _ h => nomatch h
        | _ => exact Safe.fails
      · obtain ⟨x, hx, hid, hfor⟩ := hr.held
        have hcols : PlainColumns row.state .RESERVED
            { budget_reservation_id := some (some res.reservation_id) } := by
          rw [hspend.2]
          exact unleased rfl rfl rfl (by decide)
        refine Safe.seq (safe_move (hk.went hw₁) (fun m₂ hm => ?_) fun _ _ =>
          hcols.columns (by decide) (by rw [hspend.2]; decide)) fun r m₂ _ hmoved => ?_
        · obtain ⟨x', hx', hf⟩ := (Later.reservations hm.ext) x hx
          have hdid : Did (m₂.own i) (.reserve_budget (reserveArgs row currency moment)) res := by
            rw [hm.own]
            exact hr.did
          exact .reserve hspend.2 hcurrency hdid hx' (hf.reservation_id.trans hid)
            (hfor.follows hf) rfl
        · refine Safe.done fun m₃ hm _ => ⟨hmoved.known.later hm.ext, ?_, .inr ?_⟩
          · rw [hmoved.result]
            rfl
          · rw [hmoved.result]
            rfl
  · exact Safe.done fun m₁ hm _ => ⟨hk.later hm.ext, rfl, hs⟩

/-- **Taking the lease and making the attempt.** -/
theorem safe_dispatchLeased (principal : Principal) {read : ActionRow} (d : ActionDescriptor) (worker : String)
    (hk : Known m.world row) (hs : row.state = .AUTHORIZED ∨ row.state = .RESERVED) (hput : NoPut (m.own i))
    (hcleared : Cleared (m.own i) read moment) (hread : read.toActionIdentity = row.toActionIdentity)
    (ha : adapterOf row.capability_id = some a) : (discipline direct).Safe i (Loose direct i m)
      (dispatchLeased principal row d a worker moment) m := by
  have edge : ActionState.Edge row.state .DISPATCHING := by
    rcases hs with hs | hs <;> rw [hs] <;> decide
  have hfrom : row.state ≠ .FAILED := by
    rcases hs with hs | hs <;> rw [hs] <;> decide
  refine seq_silent_attempt (safe_move hk (fun m₁ hm => ?_) fun m₁ hm =>
    ⟨rfl, .inr (.inl (by decide)), (fun h => nomatch h), fun h => absurd h hfrom⟩)
    fun r m₁ hw hr => ?_
  · have hcleared₁ : Cleared (m₁.own i) read moment := by
      rw [hm.own]
      exact hcleared
    have hput₁ : NoPut (m₁.own i) := by
      rw [hm.own]
      exact hput
    exact .lease edge hcleared₁ hread hput₁ rfl
  · rcases r with e | x
    · cases e <;> exact Safe.fails
    · refine safe_execute_and_observe principal.user_id hr.known ?_ (hput.went hw) ?_
      · refine ⟨_, m.own i, [], read, moment, ⟨hr.own⟩, rfl, ?_, hcleared, ?_⟩
        · rw [hr.result]
          rfl
        · rw [hr.result]
          exact hread
      · rw [hr.result]
        exact ha

theorem safe_dispatchBlocked (block : List String) (actor : String) (hk : Known m.world row)
    (hs : row.state = .AUTHORIZED ∨ row.state = .RESERVED) :
    (discipline direct).Safe i (Calm direct i m) (dispatchBlocked row block actor moment) m := by
  have edge : ∀ s, s = .EXPIRED ∨ s = .BLOCKED → ActionState.Edge row.state s := by
    rintro s (rfl | rfl) <;> rcases hs with hs | hs <;> rw [hs] <;> decide
  have hto : (if block = ["ACTION_EXPIRED"] then ActionState.EXPIRED else .BLOCKED) = .EXPIRED ∨
      (if block = ["ACTION_EXPIRED"] then ActionState.EXPIRED else .BLOCKED) = .BLOCKED :=
    ite_eq_or_eq _ _ _
  refine Safe.seq (safe_release hk (by decide)) fun _ m₁ hw _ => ?_
  have hlease : row.state ∉ LEASES := by
    rcases hs with hs | hs <;> rw [hs] <;> decide
  refine Safe.seq (safe_plain (hk.went hw) rfl (edge _ hto) ?_ ?_ rfl (unleased rfl rfl rfl hlease))
    fun r m₂ _ _ => ?_
  · rcases hto with hto | hto <;> rw [hto] <;> decide
  · rcases hs with hs | hs <;> rw [hs] <;> decide
  · refine Safe.seq (safe_aside (only_stale_open_approvals r)) fun _ _ _ _ => ?_
    exact Safe.done fun _ _ => trivial

theorem safe_dispatchChecked (principal : Principal) (d : ActionDescriptor) (worker : String)
    {hold block : List String} (hbegan : Began i moment m) (hk : Known m.world row)
    (hs : row.state = .AUTHORIZED ∨ row.state = .RESERVED) (hput : NoPut (m.own i))
    (hcleared : hold = [] → block = [] → Cleared (m.own i) row moment)
    (ha : adapterOf row.capability_id = some a) : (discipline direct).Safe i (Loose direct i m)
      (dispatchChecked principal row d a worker hold block moment) m := by
  unfold dispatchChecked
  split
  · split <;> exact Safe.fails
  · rename_i hhold
    split
    · exact loose (safe_dispatchBlocked block principal.user_id hk hs)
    · rename_i hblock
      have hcl := hcleared (not_not.mp hhold) (not_not.mp hblock)
      refine seq_silent (safe_reserveSpend principal.user_id hbegan hk hs) ?_
      rintro ⟨r, goesOn⟩ m₁ hw hr
      dsimp only
      split
      · rename_i hgo
        have hready := hr hgo
        refine safe_dispatchLeased principal d worker hready.known hready.state (hput.went hw)
          (hcl.mono hw.prefix) hready.identity.symm ?_
        rw [show r.capability_id = row.capability_id from
          congrArg ActionIdentity.capability_id hready.identity]
        exact ha
      · exact Safe.done fun _ _ => trivial

theorem safe_dispatchRow (principal : Principal) (worker_id : Option String) (hbegan : Began i moment m)
    (hk : Known m.world row) (hput : NoPut (m.own i)) :
    (discipline direct).Safe i (Loose direct i m) (dispatchRow principal row worker_id moment) m := by
  unfold dispatchRow
  split
  · exact Safe.fails
  · rename_i hstate
    have hs : row.state = .AUTHORIZED ∨ row.state = .RESERVED := by
      by_contra hno
      rw [not_or] at hno
      exact hstate hno
    refine safe_adapter fun d a ha => ?_
    refine seq_silent (P := fun found m' => found = ([], []) → Cleared (m'.own i) row moment)
      (Ends.mono (safe_minor (only_preflight row moment)) ?_) ?_
    · rintro (e | found) m₁ - ⟨t, ht, hown⟩
      · trivial
      · rintro rfl
        exact ⟨m.own i, t, [], by rw [hown, List.append_nil], hbegan.clock, ht⟩
    · rintro ⟨hold, block⟩ m₁ hw hcleared
      refine safe_dispatchChecked principal d _ (hbegan.went hw) (hk.went hw) hs (hput.went hw) ?_ ha
      rintro rfl rfl
      exact hcleared rfl

theorem safe_dispatch (principal : Principal) (action_id : String) (worker_id : Option String)
    (hbegan : Began i moment m) (hput : NoPut (m.own i)) : (discipline direct).Safe i (Loose direct i m)
      (dispatch principal action_id worker_id moment) m := by
  refine seq_silent (safe_readForWrite principal action_id) fun row m₁ hw₁ hk => ?_
  split
  · refine seq_silent (safe_settle action_id "system:gateway") fun r m₂ hw₂ hk₂ => ?_
    exact safe_dispatchRow principal worker_id ((hbegan.went hw₁).went hw₂) hk₂
      ((hput.went hw₁).went hw₂)
  · exact safe_dispatchRow principal worker_id (hbegan.went hw₁) hk (hput.went hw₁)

/-- **The bounded retry**, and the dispatch it is for. -/
theorem safe_retry (principal : Principal) (action_id : String) (hbegan : Began i moment m)
    (hput : NoPut (m.own i)) :
    (discipline direct).Safe i (Loose direct i m) (retry principal action_id moment) m := by
  refine seq_silent (safe_readForWrite principal action_id) fun row m₁ hw₁ hk => ?_
  split
  · exact Safe.fails
  · rename_i hretry
    rw [not_or, not_not, Bool.not_eq_false] at hretry
    split
    · exact Safe.fails
    · rename_i hbound
      rw [Nat.not_le] at hbound
      have hlease : row.state ∉ LEASES := by
        rw [hretry.1]
        decide
      refine seq_silent (safe_move hk (fun _ _ => .retry hretry.1 hretry.2 rfl) fun _ _ =>
        ⟨rfl, .inr (.inr ⟨rfl, hlease⟩), (fun h => nomatch h), fun _ => ⟨hbound, rfl⟩⟩)
        fun _ m₂ hw₂ _ => ?_
      exact safe_dispatch principal action_id none ((hbegan.went hw₁).went hw₂)
        ((hput.went hw₁).went hw₂)

/-! ## Reconciling -/

/-- **What a reconciliation makes of the read-back.** It calls the action failed
    only after it found no effect. -/
theorem safe_reconcileRead {args : TransitionArgs} {before after : Trace} (actor : String)
    (hk : Known m.world row) (hsince : Since (m.own i) (.transition args) row before after)
    (hto : args.to_state = .RECONCILING) (hs : row.state = .RECONCILING)
    (ha : adapterOf row.capability_id = some a) :
    (discipline direct).Safe i (Calm direct i m) (reconcileRead row a actor moment) m := by
  refine Safe.seq (P := fun _ m' => m'.own i = m.own i)
    (safe_fromExcept fun _ m' _ hm => hm.own) fun _ m₁ hw₁ hown => ?_
  refine Safe.seq_attempt (safe_observe ha) fun r m₂ hw₂ hr => ?_
  have hk₂ := (hk.went hw₁).went hw₂
  rcases r with e | obs
  · cases e with
    | Adapter kind detail =>
      dsimp only
      split
      · exact calm (safe_plain hk₂ hs (by decide) (by decide) (by decide) rfl ⟨rfl, rfl, .inl rfl⟩)
      · exact calm (safe_plain hk₂ hs (by decide) (by decide) (by decide) rfl ⟨rfl, rfl, .inl rfl⟩)
    | _ => exact Safe.fails
  · obtain ⟨hobs, hnone⟩ := hr
    dsimp only
    split
    · rename_i hmatch
      exact safe_complete (a := a) actor hk₂ (by rw [hs]; decide) hobs hmatch
    · split
      · rename_i hfound
        obtain ⟨t, ht, hdid⟩ := hnone (by simpa using hfound)
        have hnot : NotFound (m₂.own i) row := by
          refine ⟨args, before, after ++ t, a, ⟨?_⟩, hto, hs, ha, ?_⟩
          · rw [ht, hown, hsince.split, List.append_assoc, List.cons_append]
          · exact List.mem_append_right _ hdid
        refine Safe.seq (safe_release hk₂ (by decide)) fun _ m₃ hw₃ hreleased => ?_
        refine calm (safe_move (hk₂.went hw₃) (fun m₄ hm => .not_applied ?_ ?_ rfl) fun m₄ hm => ?_)
        · rw [hm.own]
          exact hnot.mono hw₃.prefix
        · exact hreleased.later (hk₂.went hw₃) hm.ext
        · refine ⟨rfl, .inl rfl, fun htrue => ⟨rfl, by simpa [failedBefore] using htrue, .inr ?_⟩,
            fun hfailed => ?_⟩
          · rw [hm.own]
            exact hnot.mono hw₃.prefix
          · rw [hs] at hfailed
            cases hfailed
      · exact calm (safe_plain hk₂ hs (by decide) (by decide) (by decide) rfl ⟨rfl, rfl, .inl rfl⟩)

theorem safe_reconcileRow (actor : String) (byPerson : Bool) (hk : Known m.world row) :
    (discipline direct).Safe i (Calm direct i m) (reconcileRow row actor byPerson moment) m := by
  unfold reconcileRow
  split
  · exact Safe.fails
  · rename_i hstate
    have hs : row.state = .NEEDS_HUMAN ∨ row.state = .UNKNOWN := by
      by_contra hno
      rw [not_or] at hno
      exact hstate ⟨fun h => hno.1 h.1, hno.2⟩
    have edge : ActionState.Edge row.state .RECONCILING := by
      rcases hs with hs | hs <;> rw [hs] <;> decide
    have hfrom : row.state ≠ .FAILED := by
      rcases hs with hs | hs <;> rw [hs] <;> decide
    refine safe_adapter fun d a ha => ?_
    refine Safe.seq_attempt (safe_plain hk rfl edge (by decide) hfrom rfl
      ⟨rfl, rfl, .inr (.inl (by decide))⟩) fun r m₁ _ hr => ?_
    rcases r with e | x
    · cases e <;> exact Safe.fails
    · refine safe_reconcileRead actor hr.known ⟨hr.own⟩ rfl ?_ ?_
      · rw [hr.result]
        rfl
      · rw [hr.result]
        exact ha

theorem safe_reconcile (action_id : String) (principal : Option Principal) :
    (discipline direct).Safe i (Calm direct i m) (reconcile action_id principal moment) m := by
  unfold reconcile
  cases principal with
  | some p =>
    exact Safe.seq (safe_readForWrite p action_id) fun row _ _ hk => safe_reconcileRow _ _ hk
  | none =>
    refine Safe.seq (safe_get_request action_id) fun found m₁ _ hfound => ?_
    cases found with
    | none => exact Safe.fails
    | some row => exact safe_reconcileRow _ _ (hfound row rfl)

omit [Sha256] [Deployment] in
theorem edge_unknown {s : ActionState} (h : s ∈ ActionState.LEASED) : ActionState.Edge s .UNKNOWN := by
  revert h
  cases s <;> decide

theorem safe_recoverEach (principal : Option Principal) {rows : List ActionRow}
    (h : Swept m.world ActionState.LEASED rows) :
    (discipline direct).Safe i (Calm direct i m) (recoverEach principal moment rows) m := by
  induction rows generalizing m with
  | nil => exact Safe.done fun _ _ => trivial
  | cons row rest ih =>
    obtain ⟨hk, hs⟩ := h row List.mem_cons_self
    have hrest : Swept m.world ActionState.LEASED rest := fun x hx =>
      h x (List.mem_cons_of_mem _ hx)
    have hfrom : row.state ≠ .FAILED := by
      intro he
      rw [he] at hs
      exact absurd hs (by decide)
    refine Safe.seq (safe_aside (only_sweepScope principal row)) fun inScope m₁ hw₁ _ => ?_
    dsimp only
    split
    · refine Safe.seq_attempt (safe_plain (hk.went hw₁) rfl (edge_unknown hs) (by decide) hfrom rfl
        ⟨rfl, rfl, .inl rfl⟩) fun r m₂ hw₂ _ => ?_
      have hrest := (hrest.later hw₁.ext).later hw₂.ext
      rcases r with e | x
      · dsimp only
        split
        · exact ih hrest
        · exact Safe.fails
      · refine Safe.seq (safe_reconcile x.action_id principal) fun _ m₃ hw₃ _ => ?_
        refine Safe.seq (ih (hrest.later hw₃.ext)) fun _ _ _ _ => ?_
        exact Safe.done fun _ _ => trivial
    · exact ih (hrest.later hw₁.ext)

theorem safe_recover_stale (principal : Option Principal) :
    (discipline direct).Safe i (Calm direct i m) (recover_stale principal moment) m := by
  refine Safe.seq (P := fun rows m' => Swept m'.world ActionState.LEASED rows)
    (safe_read (c := .leased_past moment ActionState.LEASED (principal.map (·.tenant_id))) trivial ?_)
    fun rows _ _ hrows => safe_recoverEach principal hrows
  intro rows m' w o _ _ hs hexec hw row hrow
  have hrows : leased_past w moment ActionState.LEASED (principal.map (·.tenant_id)) = rows := by
    simpa [exec] using hexec
  subst hrows
  obtain ⟨hmem, hcond⟩ := List.mem_filter.mp ((List.mem_insertionSort _).mp hrow)
  simp only [decide_eq_true_eq] at hcond
  exact ⟨(Known.of_mem hs hmem).later hw, hcond.1⟩

/-! ## Compensating -/

theorem safe_compensate_adapter (ha : adapterOf row.capability_id = some a) :
    (discipline direct).Safe i ((discipline direct).Ends Silent i m
      (Returns fun obs m' => Observed m'.world row obs)) (a.compensate (_ctx row)) m := by
  have hobserve : ∀ m' : Stage, (discipline direct).Safe i ((discipline direct).Ends Silent i m'
      (Returns fun obs m' => Observed m'.world row obs)) (a.observe (_ctx row)) m' := fun m' =>
    Ends.mono (safe_observe ha) fun r _ _ hr => by
      cases r with
      | error e => trivial
      | ok obs => exact hr.1
  unfold Adapter.compensate
  cases hcomp : a.compensation with
  | none => exact Safe.fails
  | some states =>
    obtain ⟨from_state, to_state⟩ := states
    refine Safe.seq (P := fun _ _ => True) (safe_fromExcept fun _ _ _ _ => trivial)
      fun _ m₁ _ _ => ?_
    refine Safe.seq (safe_aside (only_perform trivial)) fun found m₂ _ _ => ?_
    cases found with
    | none => exact Safe.fails
    | some e =>
      dsimp only
      split
      · refine Safe.seq (safe_silent (c := .sandbox_set_state e.effect_id to_state from_state)
          (fun _ h => nomatch h) fun _ _ => ⟨a, hcomp⟩) fun _ m₃ _ _ => hobserve m₃
      · exact hobserve m₂

theorem safe_refundBudget {obs : Observation} (hk : Known m.world row) (hs : row.state = .COMPLETED)
    (hobs : Observed m.world row obs) :
    (discipline direct).Safe i (Calm direct i m) (refundBudget row obs) m := by
  unfold refundBudget
  cases hname : row.budget_reservation_id with
  | none => exact Safe.done fun _ _ => trivial
  | some id =>
    refine Safe.seq (safe_get_reservation id) fun found m₁ hw hid => ?_
    cases found with
    | none => exact Safe.done fun _ _ => trivial
    | some r =>
      dsimp only
      split
      · rename_i hrefund
        refine Safe.seq (safe_settle_reservation fun m₂ hm => ?_) fun _ _ _ _ =>
          Safe.done fun _ _ => trivial
        obtain ⟨e, hread, -, -, hspent⟩ := ((hobs.later hw.ext).later hm.ext) _ hrefund.2
        refine .refund ((hk.went hw).later hm.ext).seen hs ?_ hread (hspent rfl) rfl rfl rfl
        rw [hname, ← hid r rfl]
      · exact Safe.done fun _ _ => trivial

theorem safe_annotate {a : AnnotateArgs} (hk : Known m.world row) (hs : row.state = .COMPLETED)
    (hid : a.action_id = row.action_id) (hver : a.expected_version = row.version) :
    (discipline direct).Safe i (Calm direct i m) (perform (.annotate a)) m :=
  safe_silent (fun _ h => nomatch h) fun _ hm => ⟨row, hk.seen.later hm.ext, hs, hid, hver⟩

theorem safe_compensateRow (actor reason : String) (hk : Known m.world row) (hs : row.state = .COMPLETED)
    (ha : adapterOf row.capability_id = some a) :
    (discipline direct).Safe i (Calm direct i m) (compensateRow row a actor reason) m := by
  refine Safe.seq_attempt (safe_compensate_adapter ha) fun r m₁ hw₁ hobs => ?_
  have hk₁ := hk.went hw₁
  have hunconfirmed : ∀ error detail, (discipline direct).Safe i (Calm direct i m₁)
      (compensateUnconfirmed row actor error detail) m₁ := fun error detail =>
    Safe.seq (safe_annotate hk₁ hs rfl rfl) fun _ _ _ _ => Safe.fails
  rcases r with e | obs
  · cases e with
    | Adapter kind detail =>
      cases kind with
      | CompensationUnsupported => exact Safe.fails
      | _ => exact hunconfirmed _ _
    | _ => exact Safe.fails
  · refine Safe.seq (safe_refundBudget hk₁ hs hobs) fun _ m₂ hw₂ _ => ?_
    exact safe_annotate (hk₁.went hw₂) hs rfl rfl

theorem safe_compensate (principal : Principal) (action_id reason : String) :
    (discipline direct).Safe i (Calm direct i m) (compensate principal action_id reason) m := by
  refine Safe.seq (safe_readForWrite principal action_id) fun row m₁ _ hk => ?_
  split
  · exact Safe.fails
  · split
    · exact Safe.fails
    · split
      · exact Safe.fails
      · rename_i hs
        refine Safe.seq (safe_aside (only_freeze_reasons ..)) fun frozen m₂ hw₂ _ => ?_
        dsimp only
        split
        · exact Safe.fails
        · exact safe_adapter fun d a ha =>
            safe_compensateRow _ reason (hk.went hw₂) (not_not.mp hs) ha

/-! ## The plane -/

theorem safe_body (op : Operation) (hdirect : op.Direct → direct) (hbegan : Began i moment m)
    (hput : NoPut (m.own i)) :
    (discipline direct).Safe i (Interleaving.Discipline.Anything (α := Unit)) (op.body moment) m := by
  cases op with
  | propose principal q => exact (safe_propose principal q).void
  | settle action_id => exact (safe_settle action_id _).void
  | cancel principal action_id reason => exact (safe_cancel principal action_id reason).void
  | expire_due tenant_id principal => exact (safe_expire_due tenant_id principal).void
  | dispatch principal action_id worker_id =>
    exact (safe_dispatch principal action_id worker_id hbegan hput).void
  | reconcile action_id principal => exact (safe_reconcile action_id principal).void
  | recover_stale principal => exact (safe_recover_stale principal).void
  | retry principal action_id => exact (safe_retry principal action_id hbegan hput).void
  | compensate principal action_id reason => exact (safe_compensate principal action_id reason).void
  | reserve_budget a =>
    exact (safe_silent (c := .reserve_budget { a with now := moment }) (fun _ h => nomatch h)
      fun m' hm => ⟨Nat.le_trans hbegan.past (Later.now hm.ext), .inl (hdirect trivial)⟩).void

/-- **Every program of the plane keeps the discipline.** -/
theorem covers (direct : Prop) : (discipline direct).Covers := by
  rintro p ⟨op, hdirect, rfl⟩ i m hown
  refine Safe.bind (Q := (discipline direct).Ends Silent i m (Returns fun moment m' =>
      Began i moment m' ∧ NoPut (m'.own i))) (safe_read (c := .clock) trivial ?_) ?_
    fun _ _ _ => trivial
  · intro moment m' w o hcalled _ _ hexec hw
    have hnow : w.now = moment := by simpa [exec] using hexec
    have hown' : m'.own i = [⟨.clock, .ok moment⟩] := by
      rw [hcalled.own, hown, List.nil_append]
    refine ⟨⟨?_, ?_⟩, ?_⟩
    · rw [hown']
      exact List.mem_singleton_self _
    · rw [← hnow]
      exact hw.now
    · rw [hown']
      intro x hx a ha
      rw [List.mem_singleton.mp hx] at ha
      cases ha
  · rintro moment m' ⟨-, hbegan, hput⟩
    exact safe_body op hdirect hbegan hput

end operations

end Actions
