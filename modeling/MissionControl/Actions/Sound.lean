import MissionControl.Actions.Duties
import MissionControl.Relational.Reach

/-! # What always holds of the action plane

The invariant of the plane (`Sound`), the fact that the world only moves on as
`Later` allows, and the discipline both make: whoever meets the duties of
`Actions.Duties` keeps them. -/

namespace Actions

open Canonical (Sha256)
open Relational (Table Walk)

variable [Sha256] [Deployment]

/-! ## The log of an action -/

/-- An entry leads from one state to another: along an edge, or, as an annotation
    does, from a completed action to itself. -/
structure Leads (s : ActionState) (e : TransitionEntry) (s' : ActionState) : Prop where
  from_state : e.from_state = some s
  to_state : e.to_state = s'
  legal : ActionState.Edge s s' ∨ (s = .COMPLETED ∧ s' = .COMPLETED)

/-- The entries of an action: its proposal, then a walk from there. -/
inductive Logged : List TransitionEntry → ActionState → Prop
  | intro {e : TransitionEntry} {l : List TransitionEntry} {s : ActionState}
      (from_state : e.from_state = none) (to_state : e.to_state = .PROPOSED)
      (walk : Walk Leads .PROPOSED l s) : Logged (e :: l) s

omit [Sha256] [Deployment] in
theorem Logged.snoc {l : List TransitionEntry} {s s' : ActionState} {e : TransitionEntry}
    (h : Logged l s) (he : Leads s e s') : Logged (l ++ [e]) s' := by
  obtain ⟨hfrom, hto, hwalk⟩ := h
  exact .intro hfrom hto (hwalk.snoc he)

/-! ## The invariant -/

/-- The states of an action for which no budget has been reserved. -/
def UNRESERVED : List ActionState :=
  [.PROPOSED, .VALIDATED, .PREPARED, .AWAITING_APPROVAL, .AUTHORIZED]

/-- What holds of each row. -/
structure ActionRow.Sound (w : World) (r : ActionRow) : Prop where
  wellFormed : WellFormed r.toActionIdentity
  named : ∀ id, r.budget_reservation_id = some id →
    ∃ res ∈ w.action_budget_reservations, res.reservation_id = id ∧
      ReservedFor r.toActionIdentity res
  unnamed : r.state ∈ UNRESERVED → r.budget_reservation_id = none
  retryable : r.state = .FAILED → r.retry_eligible = true → r.budget_reservation_id = none
  logged : Logged (w.log r.action_id) r.state
  version : (w.log r.action_id).length = r.version

/-- What holds between any two calls. -/
structure Sound (w : World) : Prop where
  rows : ∀ r ∈ w.action_requests, r.Sound w
  keys : ∀ r ∈ w.action_requests, ∀ r' ∈ w.action_requests, r.tenant_id = r'.tenant_id →
    r.idempotency_key = r'.idempotency_key → r = r'
  committed : ∀ res ∈ w.action_budget_reservations, res.status = .COMMITTED →
    ∃ r ∈ w.action_requests, r.budget_reservation_id = some res.reservation_id ∧ r.state ∈ CHECKED
  effects : ∀ e ∈ w.action_sandbox_effects, ∃ r ∈ w.action_requests, MadeFor r.toActionIdentity e
  entries : ∀ e ∈ w.action_transitions, ∃ r ∈ w.action_requests, r.action_id = e.action_id

/-- A new deployment. -/
structure Fresh (w : World) : Prop where
  requests : w.action_requests = Table.empty
  transitions : w.action_transitions = []
  reservations : w.action_budget_reservations = Table.empty
  effects : w.action_sandbox_effects = Table.empty

variable {w : World}

theorem Fresh.sound (h : Fresh w) : Sound w := by
  constructor
  · rw [h.requests]
    exact fun r hr => absurd hr (Table.not_mem_empty r)
  · rw [h.requests]
    exact fun r hr => absurd hr (Table.not_mem_empty r)
  · rw [h.reservations]
    exact fun r hr => absurd hr (Table.not_mem_empty r)
  · rw [h.effects]
    exact fun e he => absurd he (Table.not_mem_empty e)
  · rw [h.transitions]
    exact fun e he => absurd he List.not_mem_nil

variable {w' : World}

omit [Sha256] [Deployment] in
theorem World.log_append {e : TransitionEntry} (h : w'.action_transitions = w.action_transitions ++ [e])
    (action_id : String) :
    w'.log action_id = w.log action_id ++ if e.action_id = action_id then [e] else [] := by
  unfold World.log
  rw [h, List.filter_append]
  congr 1
  by_cases he : e.action_id = action_id <;> simp [he]

/-! ## Writes to a row -/

/-- The write went on from `row` to `r`, with one more entry in its log. -/
structure RowDone (w w' : World) (row r : ActionRow) : Prop where
  mem : row ∈ w.action_requests
  identity : r.toActionIdentity = row.toActionIdentity
  version : r.version = row.version + 1
  legal : ActionState.Edge row.state r.state ∨ (row.state = .COMPLETED ∧ r.state = .COMPLETED)
  requests : ∀ x, x ∈ w'.action_requests ↔
    x = r ∨ (x ∈ w.action_requests ∧ x.action_id ≠ row.action_id)
  entry : ∃ e, e.action_id = row.action_id ∧ Leads row.state e r.state ∧
    w'.action_transitions = w.action_transitions ++ [e]
  rest : w' = { w with
    action_requests := w'.action_requests, action_transitions := w'.action_transitions }

variable {to_state : ActionState} {t : Trace} {r : ActionRow} {u : Updates}

theorem MoveDone.row {row : ActionRow} {stamp : Moment} (h : MoveDone w w' row r to_state u stamp)
    (hp : Purpose t w row to_state u) : RowDone w w' row r := by
  obtain ⟨e, hid, hfrom, hto, hentry⟩ := h.entry
  have hr := h.result
  subst hr
  exact ⟨h.mem, rfl, rfl, .inl hp.edge, h.requests, ⟨e, hid, ⟨hfrom, hto, .inl hp.edge⟩, hentry⟩, h.rest⟩

omit [Sha256] [Deployment] in
theorem AnnotateDone.row {row : ActionRow} (h : AnnotateDone w w' row r) (hstate : row.state = .COMPLETED) :
    RowDone w w' row r := by
  obtain ⟨e, hid, hfrom, hto, hentry⟩ := h.entry
  obtain ⟨outcome, stamp, hr⟩ := h.result
  subst hr
  exact ⟨h.mem, rfl, rfl, .inr ⟨hstate, hstate⟩, h.requests,
    ⟨e, hid, ⟨hfrom, hto, .inr ⟨hstate, hstate⟩⟩, hentry⟩, h.rest⟩

theorem Purpose.follows {row : ActionRow} (h : Purpose t w row to_state u) (stamp : Moment) :
    row.Follows (row.moved to_state u stamp) := by
  refine ⟨rfl, Nat.le_succ _, fun hv => absurd hv (Nat.succ_ne_self _), fun hs => ?_⟩
  have hnot : ∀ s, s ∉ CHECKED → row.state ≠ s := fun s hn he => hn (he ▸ hs)
  cases h with
  | plain edge hto hfrom hid =>
    refine ⟨?_, ?_⟩
    · show to_state ∈ CHECKED
      revert edge hs
      generalize row.state = s
      cases s <;> cases to_state <;> decide
    · show u.budget_reservation_id.getD _ = _
      rw [hid]
      rfl
  | retry hfrom => exact absurd hfrom (hnot _ (by decide))
  | reserve hfrom => exact absurd hfrom (hnot _ (by decide))
  | lease edge =>
    exfalso
    revert edge hs
    generalize row.state = s
    cases s <;> decide
  | failed hlease =>
    obtain ⟨_, _, _, _, _, -, -, hstate, -⟩ := hlease
    exact absurd hstate (hnot _ (by decide))
  | not_applied hread =>
    obtain ⟨_, _, _, _, -, -, hstate, -⟩ := hread
    exact absurd hstate (hnot _ (by decide))

omit [Sha256] [Deployment] in
theorem ActionRow.follows_annotated (row : ActionRow) (outcome : Outcome) (stamp : Moment) :
    row.Follows (row.annotated outcome stamp) :=
  ⟨rfl, Nat.le_succ _, fun hv => absurd hv (Nat.succ_ne_self _), fun hs => ⟨hs, rfl⟩⟩

omit [Sha256] [Deployment] in
theorem RowDone.later {row : ActionRow} (h : RowDone w w' row r) (hf : row.Follows r) : Later w w' := by
  have hres : w'.action_budget_reservations = w.action_budget_reservations := by rw [h.rest]
  have heff : w'.action_sandbox_effects = w.action_sandbox_effects := by rw [h.rest]
  obtain ⟨e, -, -, hentry⟩ := h.entry
  refine ⟨by rw [h.rest], by rw [h.rest], by rw [h.rest], by rw [hentry]; exact List.prefix_append _ _,
    ?_, ?_, ?_⟩
  · intro x hx
    by_cases hk : x.action_id = row.action_id
    · rw [Table.eq_of_key hx h.mem hk]
      exact ⟨r, (h.requests r).mpr (.inl rfl), hf⟩
    · exact ⟨x, (h.requests x).mpr (.inr ⟨hx, hk⟩), .refl x⟩
  · exact fun x hx => ⟨x, hres ▸ hx, .refl x⟩
  · exact fun e he => ⟨e, heff ▸ he, .refl e⟩

/-- The columns a write changes, in a row that has been written. -/
structure Fits (w : World) (r : ActionRow) : Prop where
  named : ∀ id, r.budget_reservation_id = some id →
    ∃ res ∈ w.action_budget_reservations, res.reservation_id = id ∧
      ReservedFor r.toActionIdentity res
  unnamed : r.state ∈ UNRESERVED → r.budget_reservation_id = none
  retryable : r.state = .FAILED → r.retry_eligible = true → r.budget_reservation_id = none

/-- **A write to a row keeps the invariant.** -/
theorem Sound.row {row : ActionRow} (hs : Sound w) (h : RowDone w w' row r) (hf : row.Follows r)
    (hfit : Fits w r) : Sound w' := by
  have hres : w'.action_budget_reservations = w.action_budget_reservations := by rw [h.rest]
  have heff : w'.action_sandbox_effects = w.action_sandbox_effects := by rw [h.rest]
  have hrow := hs.rows row h.mem
  have hid : r.action_id = row.action_id := congrArg ActionIdentity.action_id h.identity
  have hlater := (h.later hf).requests
  obtain ⟨e, heid, hleads, hentry⟩ := h.entry
  have hlog := World.log_append hentry
  constructor
  · intro x hx
    rcases (h.requests x).mp hx with rfl | ⟨hx, hne⟩
    · have hx' : w'.log x.action_id = w.log row.action_id ++ [e] := by
        rw [hlog, hid, if_pos heid]
      refine ⟨by rw [h.identity]; exact hrow.wellFormed, by rw [hres]; exact hfit.named,
        hfit.unnamed, hfit.retryable, ?_, ?_⟩
      · rw [hx']
        exact hrow.logged.snoc hleads
      · rw [hx', List.length_append, hrow.version, h.version]
        rfl
    · obtain ⟨h₁, h₂, h₃, h₄, h₅, h₆⟩ := hs.rows x hx
      have hx' : w'.log x.action_id = w.log x.action_id := by
        rw [hlog, heid, if_neg (fun he => hne he.symm), List.append_nil]
      exact ⟨h₁, by rw [hres]; exact h₂, h₃, h₄, by rw [hx']; exact h₅, by rw [hx']; exact h₆⟩
  · -- a row that has been written still has the key of the row it was
    have hback : ∀ x ∈ w'.action_requests, ∃ x₀ ∈ w.action_requests, x₀.tenant_id = x.tenant_id ∧
        x₀.idempotency_key = x.idempotency_key ∧ (x₀ = row → x = r) ∧ (x₀ ≠ row → x = x₀) := by
      intro x hx
      rcases (h.requests x).mp hx with rfl | ⟨hx, hne⟩
      · exact ⟨row, h.mem, congrArg ActionIdentity.tenant_id h.identity.symm,
          congrArg ActionIdentity.idempotency_key h.identity.symm, fun _ => rfl, fun hn => absurd rfl hn⟩
      · exact ⟨x, hx, rfl, rfl, fun he => absurd (congrArg (·.action_id) he) hne, fun _ => rfl⟩
    intro x hx y hy ht hk
    obtain ⟨x₀, hx₀, ht₁, hk₁, hx₁, hx₂⟩ := hback x hx
    obtain ⟨y₀, hy₀, ht₂, hk₂, hy₁, hy₂⟩ := hback y hy
    have hsame : x₀ = y₀ :=
      hs.keys x₀ hx₀ y₀ hy₀ (by rw [ht₁, ht₂, ht]) (by rw [hk₁, hk₂, hk])
    by_cases hrow : x₀ = row
    · rw [hx₁ hrow, hy₁ (hsame ▸ hrow)]
    · rw [hx₂ hrow, hy₂ (hsame ▸ hrow), hsame]
  · intro res hmem hst
    rw [hres] at hmem
    obtain ⟨x, hx, hname, hch⟩ := hs.committed res hmem hst
    obtain ⟨x', hx', hfol⟩ := hlater x hx
    obtain ⟨hch', hname'⟩ := hfol.checked hch
    exact ⟨x', hx', hname'.trans hname, hch'⟩
  · intro e he
    rw [heff] at he
    obtain ⟨x, hx, hmade⟩ := hs.effects e he
    obtain ⟨x', hx', hfol⟩ := hlater x hx
    exact ⟨x', hx', by rw [hfol.identity]; exact hmade⟩
  · intro e' he'
    rw [hentry, List.mem_append, List.mem_singleton] at he'
    rcases he' with he' | rfl
    · obtain ⟨x, hx, hxid⟩ := hs.entries e' he'
      obtain ⟨x', hx', hfol⟩ := hlater x hx
      exact ⟨x', hx', (congrArg ActionIdentity.action_id hfol.identity).trans hxid⟩
    · exact ⟨r, (h.requests r).mpr (.inl rfl), hid.trans heid.symm⟩

omit [Sha256] [Deployment] in
theorem unreserved_back {s s' : ActionState} (h : ActionState.Edge s s') (hs : s ≠ .FAILED)
    (hs' : s' ∈ UNRESERVED) : s ∈ UNRESERVED := by
  revert h hs hs'
  cases s <;> cases s' <;> decide

/-- A move leaves the row as the invariant wants it. -/
theorem Purpose.fits {row : ActionRow} (h : Purpose t w row to_state u) (stamp : Moment) (hrow : row.Sound w) :
    Fits w (row.moved to_state u stamp) := by
  have hname : (row.moved to_state u stamp).budget_reservation_id =
      u.budget_reservation_id.getD row.budget_reservation_id := rfl
  have hretry : (row.moved to_state u stamp).retry_eligible = u.retry_eligible.getD row.retry_eligible := rfl
  have hstate : (row.moved to_state u stamp).state = to_state := rfl
  refine ⟨?_, ?_, ?_⟩
  · rw [hname]
    cases h with
    | plain _ _ _ hid => rw [hid]; exact hrow.named
    | retry _ _ hid => rw [hid]; exact fun id h => nomatch h
    | @reserve _ _ _ res r _ _ _ hmem hr hfor hid =>
      rw [hid]
      intro id h
      cases h
      exact ⟨r, hmem, hr, hfor⟩
    | lease _ _ _ _ hid => rw [hid]; exact hrow.named
    | failed _ _ _ hid =>
      rcases hid with hid | ⟨hid, -⟩ <;> rw [hid]
      · exact fun id h => nomatch h
      · exact hrow.named
    | not_applied _ _ hid => rw [hid]; exact fun id h => nomatch h
  · rw [hname, hstate]
    intro hs
    cases h with
    | plain edge _ hfrom hid =>
      rw [hid]
      exact hrow.unnamed (unreserved_back edge hfrom hs)
    | retry _ _ hid => rw [hid]; rfl
    | reserve => exact absurd hs (by decide)
    | lease => exact absurd hs (by decide)
    | failed => exact absurd hs (by decide)
    | not_applied => exact absurd hs (by decide)
  · rw [hname, hstate, hretry]
    intro hs he
    cases h with
    | plain _ hto =>
      rw [hs] at hto
      exact absurd (by decide) hto
    | retry => cases hs
    | reserve => cases hs
    | lease => cases hs
    | failed _ _ _ hid =>
      rcases hid with hid | ⟨hid, hno⟩
      · rw [hid]; rfl
      · rw [hno] at he
        cases he
    | not_applied _ _ hid => rw [hid]; rfl

/-! ## The other writes -/

omit [Sha256] [Deployment] in
theorem InsertDone.later {row : ActionRow} (h : InsertDone w w' row) : Later w w' := by
  have hres : w'.action_budget_reservations = w.action_budget_reservations := by rw [h.rest]
  have heff : w'.action_sandbox_effects = w.action_sandbox_effects := by rw [h.rest]
  obtain ⟨e, -, -, -, hentry⟩ := h.entry
  exact ⟨by rw [h.rest], by rw [h.rest], by rw [h.rest], by rw [hentry]; exact List.prefix_append _ _,
    fun x hx => ⟨x, (h.requests x).mpr (.inl hx), .refl x⟩,
    fun x hx => ⟨x, hres ▸ hx, .refl x⟩, fun e he => ⟨e, heff ▸ he, .refl e⟩⟩

/-- **An insert keeps the invariant.** -/
theorem Sound.insert {w w' : World} {row : ActionRow} (hs : Sound w) (h : InsertDone w w' row)
    (hp : Proposed row) : Sound w' := by
  have hres : w'.action_budget_reservations = w.action_budget_reservations := by rw [h.rest]
  have heff : w'.action_sandbox_effects = w.action_sandbox_effects := by rw [h.rest]
  obtain ⟨e, heid, hefrom, heto, hentry⟩ := h.entry
  have hlog := World.log_append hentry
  -- the log of a row that does not exist yet is empty
  have hempty : w.log row.action_id = [] := by
    unfold World.log
    rw [List.filter_eq_nil_iff]
    intro e he
    obtain ⟨x, hx, hxid⟩ := hs.entries e he
    simpa [← hxid] using h.fresh x hx
  constructor
  · intro x hx
    rcases (h.requests x).mp hx with hx | rfl
    · obtain ⟨h₁, h₂, h₃, h₄, h₅, h₆⟩ := hs.rows x hx
      have hx' : w'.log x.action_id = w.log x.action_id := by
        rw [hlog, heid, if_neg (fun he => h.fresh x hx he.symm), List.append_nil]
      exact ⟨h₁, by rw [hres]; exact h₂, h₃, h₄, by rw [hx']; exact h₅, by rw [hx']; exact h₆⟩
    · refine ⟨hp.wellFormed, ?_, fun _ => hp.unnamed, fun _ _ => hp.unnamed, ?_, ?_⟩
      · rw [hp.unnamed]
        exact fun id h => nomatch h
      · rw [hlog, hempty, if_pos heid, hp.state]
        exact .intro hefrom (heto.trans hp.state) rfl
      · rw [hlog, hempty, if_pos heid, hp.version]
        rfl
  · intro x hx y hy ht hk
    rcases (h.requests x).mp hx with hx | rfl <;> rcases (h.requests y).mp hy with hy | rfl
    · exact hs.keys x hx y hy ht hk
    · exact absurd ⟨ht, hk⟩ (h.newKey x hx)
    · exact absurd ⟨ht.symm, hk.symm⟩ (h.newKey y hy)
    · rfl
  · intro res hmem hst
    obtain ⟨x, hx, hx'⟩ := hs.committed res (hres ▸ hmem) hst
    exact ⟨x, (h.requests x).mpr (.inl hx), hx'⟩
  · intro e he
    obtain ⟨x, hx, hx'⟩ := hs.effects e (heff ▸ he)
    exact ⟨x, (h.requests x).mpr (.inl hx), hx'⟩
  · intro e he
    rw [hentry, List.mem_append, List.mem_singleton] at he
    rcases he with he | rfl
    · obtain ⟨x, hx, hx'⟩ := hs.entries e he
      exact ⟨x, (h.requests x).mpr (.inl hx), hx'⟩
    · exact ⟨row, (h.requests row).mpr (.inr rfl), heid.symm⟩

/-- Writes that leave the rows and their logs alone keep the invariant, as long as
    reservations only follow, new ones are not committed, and effects are the
    actions' own. -/
theorem Sound.side (hs : Sound w) (hl : Later w w') (hreq : w'.action_requests = w.action_requests)
    (htrans : w'.action_transitions = w.action_transitions)
    (hcom : ∀ res ∈ w'.action_budget_reservations, res.status = .COMMITTED →
      ∃ r ∈ w.action_requests, r.budget_reservation_id = some res.reservation_id ∧
        r.state ∈ CHECKED) (heff : ∀ e ∈ w'.action_sandbox_effects, ∃ r ∈ w.action_requests,
      MadeFor r.toActionIdentity e) : Sound w' := by
  have hlog : ∀ id, w'.log id = w.log id := fun id => by unfold World.log; rw [htrans]
  constructor
  · intro x hx
    rw [hreq] at hx
    obtain ⟨h₁, h₂, h₃, h₄, h₅, h₆⟩ := hs.rows x hx
    refine ⟨h₁, ?_, h₃, h₄, by rw [hlog]; exact h₅, by rw [hlog]; exact h₆⟩
    intro id hid
    obtain ⟨res, hmem, hrid, hfor⟩ := h₂ id hid
    obtain ⟨res', hmem', hfol⟩ := hl.reservations res hmem
    exact ⟨res', hmem', hfol.reservation_id.trans hrid, hfor.follows hfol⟩
  · rw [hreq]
    exact hs.keys
  · rw [hreq]
    exact hcom
  · rw [hreq]
    exact heff
  · rw [hreq, htrans]
    exact hs.entries

theorem Sound.old_effects (hs : Sound w) (h : w'.action_sandbox_effects = w.action_sandbox_effects) :
    ∀ e ∈ w'.action_sandbox_effects, ∃ r ∈ w.action_requests, MadeFor r.toActionIdentity e := by
  rw [h]
  exact hs.effects

omit [Sha256] [Deployment] in
theorem Reservation.follows_swept (r : Reservation) (tenant_id : String) (stamp : Moment) :
    r.Follows (r.swept tenant_id stamp) := by
  unfold Reservation.swept
  split
  · exact ⟨rfl, rfl, rfl, rfl, rfl, rfl, rfl, rfl, fun h => nomatch h⟩
  · exact .refl r

omit [Sha256] [Deployment] in
theorem ReserveDone.later {a : ReserveArgs} {r : Reservation} (h : ReserveDone w w' a r) : Later w w' := by
  have hreq : w'.action_requests = w.action_requests := by rw [h.rest]
  have heff : w'.action_sandbox_effects = w.action_sandbox_effects := by rw [h.rest]
  have hlog : w'.action_transitions = w.action_transitions := by rw [h.rest]
  exact ⟨by rw [h.rest], by rw [h.rest], by rw [h.rest], hlog ▸ List.prefix_refl _,
    fun x hx => ⟨x, hreq ▸ hx, .refl x⟩,
    fun x hx => ⟨_, (h.reservations _).mpr (.inl ⟨x, hx, rfl⟩), x.follows_swept _ _⟩,
    fun e he => ⟨e, heff ▸ he, .refl e⟩⟩

theorem Sound.reserve {w w' : World} {a : ReserveArgs} {r : Reservation} (hs : Sound w)
    (h : ReserveDone w w' a r) : Sound w' := by
  refine hs.side h.later (by rw [h.rest]) (by rw [h.rest]) ?_ (hs.old_effects (by rw [h.rest]))
  intro res hmem hst
  rcases (h.reservations res).mp hmem with ⟨x, hx, rfl⟩ | rfl
  · unfold Reservation.swept at hst ⊢
    split at hst
    · cases hst
    · rename_i hn
      rw [if_neg hn]
      exact hs.committed x hx hst
  · rw [h.result] at hst
    cases hst

omit [Sha256] [Deployment] in
theorem SettleDone.later {a : SettleArgs} {r₀ r : Reservation} (h : SettleDone w w' a r₀ r) : Later w w' := by
  have hreq : w'.action_requests = w.action_requests := by rw [h.rest]
  have heff : w'.action_sandbox_effects = w.action_sandbox_effects := by rw [h.rest]
  have hlog : w'.action_transitions = w.action_transitions := by rw [h.rest]
  refine ⟨by rw [h.rest], by rw [h.rest], by rw [h.rest], hlog ▸ List.prefix_refl _,
    fun x hx => ⟨x, hreq ▸ hx, .refl x⟩, ?_, fun e he => ⟨e, heff ▸ he, .refl e⟩⟩
  intro x hx
  by_cases hk : x.reservation_id = a.reservation_id
  · obtain ⟨stamp, hr⟩ := h.result
    have hx₀ : x = r₀ := Table.eq_of_key hx h.mem (hk.trans h.id.symm)
    subst hx₀ hr
    exact ⟨_, (h.reservations _).mpr (.inl rfl), rfl, rfl, rfl, rfl, rfl, rfl, rfl, rfl,
      fun hres => absurd hres h.status⟩
  · exact ⟨x, (h.reservations x).mpr (.inr ⟨hx, hk⟩), .refl x⟩

theorem Sound.settle {w w' : World} {a : SettleArgs} {r₀ r : Reservation} (hs : Sound w)
    (h : SettleDone w w' a r₀ r) (hp : SettlePurpose w a) : Sound w' := by
  refine hs.side h.later (by rw [h.rest]) (by rw [h.rest]) ?_ (hs.old_effects (by rw [h.rest]))
  intro res hmem hst
  rcases (h.reservations res).mp hmem with rfl | ⟨hx, -⟩
  · obtain ⟨stamp, hr⟩ := h.result
    subst hr
    cases hp with
    | release hstatus => rw [show a.status = .COMMITTED from hst] at hstatus; simp at hstatus
    | refund _ _ _ _ _ hstatus => rw [show a.status = .COMMITTED from hst] at hstatus; cases hstatus
    | @commit row _ hseen hstate hname =>
      obtain ⟨x, hx, hfol⟩ := hseen
      obtain ⟨hch, hname'⟩ := hfol.checked (by rw [hstate]; decide)
      refine ⟨x, hx, ?_, hch⟩
      rw [hname', hname, ← h.id]
      rfl
  · exact hs.committed res hx hst

omit [Sha256] [Deployment] in
theorem PutDone.later {a : PutArgs} {e : Effect} (h : PutDone w w' a e) : Later w w' := by
  have hreq : w'.action_requests = w.action_requests := by rw [h.rest]
  have hres : w'.action_budget_reservations = w.action_budget_reservations := by rw [h.rest]
  have hlog : w'.action_transitions = w.action_transitions := by rw [h.rest]
  exact ⟨by rw [h.rest], by rw [h.rest], by rw [h.rest], hlog ▸ List.prefix_refl _,
    fun x hx => ⟨x, hreq ▸ hx, .refl x⟩, fun x hx => ⟨x, hres ▸ hx, .refl x⟩,
    fun x hx => ⟨x, (h.effects x).mpr (.inl hx), .refl x⟩⟩

variable {a : Adapter}

theorem madeFor_put {row : ActionRow} (hf : row.Follows r) {args : ActionArgs}
    (ha : adapterOf row.capability_id = some a) (hargs : a.validate row.args = .ok args) (id : Nat)
    (stamp : Moment) : MadeFor r.toActionIdentity ((putArgs a (_ctx row) args).effect id stamp) := by
  rw [hf.identity]
  exact ⟨rfl, rfl, rfl, rfl, a, args, ha, hargs, rfl, rfl, rfl⟩

theorem Sound.put {w w' : World} {a : Adapter} {row : ActionRow} {args : ActionArgs} {e : Effect}
    (hs : Sound w) (h : PutDone w w' (putArgs a (_ctx row) args) e) (hseen : Seen w row)
    (ha : adapterOf row.capability_id = some a) (hargs : a.validate row.args = .ok args) : Sound w' := by
  refine hs.side h.later (by rw [h.rest]) (by rw [h.rest]) ?_ ?_
  · have hres : w'.action_budget_reservations = w.action_budget_reservations := by rw [h.rest]
    rw [hres]
    exact hs.committed
  · intro x hx
    rcases (h.effects x).mp hx with hx | rfl
    · exact hs.effects x hx
    · obtain ⟨r, hr, hf⟩ := hseen
      rw [h.result]
      exact ⟨r, hr, madeFor_put hf ha hargs _ _⟩

variable {expected_state state : String}

omit [Sha256] [Deployment] in
theorem Effect.follows_changed (e : Effect) (effect_id : Nat) (stamp : Moment) (h : state ≠ "SPENT") :
    e.Follows (e.changed effect_id state expected_state stamp) := by
  unfold Effect.changed
  split
  · exact ⟨rfl, rfl, rfl, rfl, rfl, rfl, rfl, fun hs => absurd hs h⟩
  · exact .refl e

variable {effect_id : Nat}

omit [Sha256] [Deployment] in
theorem ChangeDone.later (h : ChangeDone w w' effect_id state expected_state) (hstate : state ≠ "SPENT") :
    Later w w' := by
  have hreq : w'.action_requests = w.action_requests := by rw [h.rest]
  have hres : w'.action_budget_reservations = w.action_budget_reservations := by rw [h.rest]
  have hlog : w'.action_transitions = w.action_transitions := by rw [h.rest]
  exact ⟨by rw [h.rest], by rw [h.rest], by rw [h.rest], hlog ▸ List.prefix_refl _,
    fun x hx => ⟨x, hreq ▸ hx, .refl x⟩, fun x hx => ⟨x, hres ▸ hx, .refl x⟩,
    fun x hx => ⟨_, (h.effects _).mpr ⟨x, hx, rfl⟩, x.follows_changed _ _ hstate⟩⟩

theorem Sound.change (hs : Sound w) (h : ChangeDone w w' effect_id state expected_state)
    (hstate : state ≠ "SPENT") : Sound w' := by
  refine hs.side (h.later hstate) (by rw [h.rest]) (by rw [h.rest]) ?_ ?_
  · have hres : w'.action_budget_reservations = w.action_budget_reservations := by rw [h.rest]
    rw [hres]
    exact hs.committed
  · intro x hx
    obtain ⟨x₀, hx₀, rfl⟩ := (h.effects x).mp hx
    obtain ⟨r, hr, hmade⟩ := hs.effects x₀ hx₀
    exact ⟨r, hr, hmade.follows (x₀.follows_changed _ _ hstate)⟩

/-! ## The discipline -/

/-- What the world is like after a disciplined call: it only moved on, and the
    invariant still holds. -/
structure Kept (w w' : World) : Prop where
  later : Later w w'
  sound : Sound w'

theorem Kept.elsewhere (hs : Sound w) (h : w' = { w with nextId := w'.nextId, approvals := w'.approvals }) :
    Kept w w' := by
  have hl : Later w w' := by
    have hlog : w'.action_transitions = w.action_transitions := by rw [h]
    refine ⟨by rw [h], by rw [h], by rw [h], hlog ▸ List.prefix_refl _, ?_, ?_, ?_⟩
    all_goals
      rw [h]
      exact fun x hx => ⟨x, hx, .refl x⟩
  exact ⟨hl, hs.side hl (by rw [h]) (by rw [h]) (by rw [h]; exact hs.committed)
    (hs.old_effects (by rw [h]))⟩

omit [Sha256] [Deployment] in
theorem compensation_to {from_state to_state : String} (h : a.compensation = some (from_state, to_state)) :
    to_state ≠ "SPENT" := by
  cases a <;> simp [Adapter.compensation] at h <;> rw [← h.2] <;> decide

variable {direct : Prop}

theorem Change.kept {i : Nat} {c : Call} {ans : Plane.Answer c} {m : Stage} (h : Change direct i m w' c ans)
    (hs : Sound m.world) : Kept m.world w' := by
  cases h with
  | quiet _ rest => exact .elsewhere hs rest
  | insert done proposed => exact ⟨done.later, hs.insert done proposed⟩
  | @move row r to_state _ _ _ u now done purpose =>
    have hf : row.Follows r := by
      rw [done.result]
      exact purpose.follows now
    refine ⟨(done.row purpose).later hf, hs.row (done.row purpose) hf ?_⟩
    rw [done.result]
    exact purpose.fits now (hs.rows row done.mem)
  | @annotate row _ _ done state =>
    obtain ⟨outcome, stamp, rfl⟩ := done.result
    have hf := row.follows_annotated outcome stamp
    have hrow := hs.rows row done.mem
    exact ⟨(done.row state).later hf, hs.row (done.row state) hf
      ⟨hrow.named, hrow.unnamed, hrow.retryable⟩⟩
  | reserve done => exact ⟨done.later, hs.reserve done⟩
  | settle done purpose => exact ⟨done.later, hs.settle done purpose⟩
  | put done seen _ _ entry valid => exact ⟨done.later, hs.put done seen entry valid⟩
  | alter done compensates =>
    obtain ⟨a, ha⟩ := compensates
    exact ⟨done.later (compensation_to ha), hs.change done (compensation_to ha)⟩

/-- **Disciplined calls keep the invariant.** -/
theorem Pre.kept {i : Nat} {c : Call} {m : Stage} (hs : Sound m.world) (hp : Pre direct i c m)
    (o : Option Fault) : Kept m.world (exec.after c o m.world) :=
  (hp.change o).kept hs

theorem Sound.outside (hs : Sound w) (h : Outside w w') : Sound w' := by
  refine hs.side (.outside h) h.requests h.transitions ?_ (hs.old_effects h.effects)
  rw [h.reservations]
  exact hs.committed

/-- The discipline of the action plane. -/
def discipline (direct : Prop) : Interleaving.Discipline (plane direct) where
  Pre i c m := Pre direct i c m
  Ext := Later
  Inv m := Sound m.world
  ext_refl := Later.refl
  ext_trans := Later.trans
  ext_call o hs hp := (hp.kept hs o).later
  ext_env := Later.outside
  inv_call o hs hp := (hp.kept hs o).sound
  inv_env hs hw := hs.outside hw

end Actions
