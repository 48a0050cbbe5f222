import MissionControl.Actions.Budget

/-! # Budget ceilings

Reserving and settling are single transactions, so the ceilings are an invariant
of every interleaving of them. The invariant (`Bounded`) speaks of every later
moment, not only of the present one: a window only loses reservations as the
clock moves on. -/

namespace Actions

open Relational (Table)

/-! ## Usage as a total -/

/-- What one reservation adds to the usage of a scope. -/
def weight (kind : ScopeKind) (tenant_id project_id : String) (client_id : Option String)
    (currency : String) (now : Moment) (r : Reservation) : Nat :=
  if r.tenant_id = tenant_id && r.currency = currency && r.active &&
      inScope kind project_id client_id now r then r.counted
  else 0

theorem _usage_eq_total (w : World) (p : BudgetPolicy) (tenant_id project_id : String)
    (client_id : Option String) (currency : String) (now : Moment) :
    _usage w p tenant_id project_id client_id currency now = w.action_budget_reservations.total
        (weight p.scope_kind tenant_id project_id client_id currency now) := by
  unfold _usage usageRows
  rw [Table.sum_filter]
  rfl

section weight

variable {kind : ScopeKind} {tenant_id project_id : String} {client_id : Option String}
  {currency : String} {now later : Moment}

theorem inScope_later {r : Reservation} (h : now ≤ later)
    (hs : inScope kind project_id client_id later r = true) :
    inScope kind project_id client_id now r = true := by
  cases kind with
  | TENANT_DAY =>
    simp only [inScope, decide_eq_true_eq] at hs ⊢
    exact Nat.le_trans (dayStart_mono h) hs
  | TENANT_MONTH =>
    simp only [inScope, decide_eq_true_eq] at hs ⊢
    exact Nat.le_trans (monthStart_mono h) hs
  | _ => exact hs

theorem weight_later (h : now ≤ later) (r : Reservation) :
    weight kind tenant_id project_id client_id currency later r ≤
      weight kind tenant_id project_id client_id currency now r := by
  unfold weight
  simp only [Bool.and_eq_true]
  split
  · rename_i hl
    rw [if_pos ⟨hl.1, inScope_later h hl.2⟩]
  · exact Nat.zero_le _

theorem weight_le {r r' : Reservation} (htenant : r'.tenant_id = r.tenant_id)
    (hproject : r'.project_id = r.project_id) (hclient : r'.client_id = r.client_id)
    (hcurrency : r'.currency = r.currency) (hcreated : r'.created_at = r.created_at)
    (hactive : r'.active = true → r.active = true ∧ r'.counted ≤ r.counted) :
    weight kind tenant_id project_id client_id currency now r' ≤
      weight kind tenant_id project_id client_id currency now r := by
  have hscope : inScope kind project_id client_id now r' = inScope kind project_id client_id now r := by
    cases kind <;> simp only [inScope, hproject, hclient, hcreated]
  unfold weight
  simp only [htenant, hcurrency, hscope, Bool.and_eq_true]
  split
  · rename_i hr
    obtain ⟨ha, hc⟩ := hactive hr.1.2
    rw [if_pos ⟨⟨hr.1.1, ha⟩, hr.2⟩]
    exact hc
  · exact Nat.zero_le _

end weight

/-! ## The invariant -/

/-- The policies that govern a spend of this project and client. -/
def governing (w : World) (tenant_id project_id : String) (client_id : Option String)
    (currency : String) : List BudgetPolicy :=
  _applicable (policiesFor w tenant_id currency) tenant_id project_id client_id

/-- No ceiling is exceeded, now or at any later moment. -/
structure Bounded (w : World) : Prop where
  usage : ∀ later, w.now ≤ later → ∀ tenant_id project_id client_id currency,
    ∀ p ∈ governing w tenant_id project_id client_id currency, p.scope_kind ≠ .ACTION →
      _usage w p tenant_id project_id client_id currency later ≤ p.ceiling_minor
  single : ∀ r ∈ w.action_budget_reservations,
    ∀ p ∈ governing w r.tenant_id r.project_id r.client_id r.currency, p.scope_kind = .ACTION →
      r.amount_minor ≤ p.ceiling_minor
  committed : ∀ r ∈ w.action_budget_reservations, ∀ m ∈ r.committed_minor, m ≤ r.amount_minor
  covered : ∀ r ∈ w.action_budget_reservations,
    governing w r.tenant_id r.project_id r.client_id r.currency ≠ []

theorem swept_facts (tenant_id : String) (stamp : Moment) (r : Reservation) :
    (r.swept tenant_id stamp).tenant_id = r.tenant_id ∧ (r.swept tenant_id stamp).project_id = r.project_id ∧
    (r.swept tenant_id stamp).client_id = r.client_id ∧ (r.swept tenant_id stamp).action_id = r.action_id ∧
    (r.swept tenant_id stamp).currency = r.currency ∧ (r.swept tenant_id stamp).created_at = r.created_at ∧
    (r.swept tenant_id stamp).amount_minor = r.amount_minor ∧
    (r.swept tenant_id stamp).committed_minor = r.committed_minor ∧
    (r.swept tenant_id stamp).counted ≤ r.counted ∧
    ((r.swept tenant_id stamp).active = true → r.active = true) := by
  unfold Reservation.swept
  split
  · rename_i h
    refine ⟨rfl, rfl, rfl, rfl, rfl, rfl, rfl, rfl, ?_, ?_⟩
    · simp [Reservation.counted, h.2.1]
    · simp [Reservation.active]
  · exact ⟨rfl, rfl, rfl, rfl, rfl, rfl, rfl, rfl, Nat.le_refl _, id⟩

theorem _usage_sweep_le (w : World) (p : BudgetPolicy) (tenant_id : String) (stamp : Moment)
    {t project : String} {client : Option String} {cur : String} {later : Moment} :
    _usage (w.sweep tenant_id stamp) p t project client cur later ≤
      _usage w p t project client cur later := by
  rw [_usage_eq_total, _usage_eq_total]
  apply Table.total_modify_le (Reservation.swept_id tenant_id stamp)
  intro r _
  obtain ⟨h₁, h₂, h₃, -, h₄, h₅, -, -, h₆, h₇⟩ := swept_facts tenant_id stamp r
  exact weight_le h₁ h₂ h₃ h₄ h₅ fun ha => ⟨h₇ ha, h₆⟩

variable {w : World}

theorem Bounded.sweep (h : Bounded w) (tenant_id : String) (stamp : Moment) :
    Bounded (w.sweep tenant_id stamp) := by
  constructor
  · intro later hl t project client cur p hp hk
    exact Nat.le_trans (_usage_sweep_le w p tenant_id stamp)
      (h.usage later hl t project client cur p hp hk)
  all_goals
    intro r hr
    obtain ⟨r₀, hr₀, rfl⟩ := World.mem_sweep.mp hr
    obtain ⟨h₁, h₂, h₃, -, h₄, -, h₆, h₇, -⟩ := swept_facts tenant_id stamp r₀
  · intro p hp hk
    rw [h₁, h₂, h₃, h₄] at hp
    rw [h₆]
    exact h.single r₀ hr₀ p hp hk
  · rw [h₆, h₇]
    exact h.committed r₀ hr₀
  · rw [h₁, h₂, h₃, h₄]
    exact h.covered r₀ hr₀

/-! ## Reserving keeps the ceilings -/

variable {w' : World} {r : Reservation}

theorem reserve_budget_ok {a : ReserveArgs} (h : reserve_budget w a = .ok (r, w')) :
    0 ≤ a.amount_minor ∧ r = a.reservation w.nextId a.amount_minor.toNat ∧
    governing w a.tenant_id a.project_id a.client_id a.currency.toUpper ≠ [] ∧
    breaches (w.sweep a.tenant_id a.now)
      (governing w a.tenant_id a.project_id a.client_id a.currency.toUpper) a a.currency.toUpper
      a.amount_minor.toNat = [] ∧
    ∃ hnew : (w.sweep a.tenant_id a.now).action_budget_reservations.find? r.reservation_id = none,
      w' = { w.sweep a.tenant_id a.now with
        nextId := w.nextId + 1
        action_budget_reservations :=
          (w.sweep a.tenant_id a.now).action_budget_reservations.insert r hnew } := by
  unfold reserve_budget at h
  split at h
  · cases h
  · rename_i hpos
    dsimp only at h
    split at h
    · cases h
    · rename_i hgov
      split at h
      · cases h
      · rename_i hbreach
        split at h
        · rename_i hnew
          obtain ⟨rfl, rfl⟩ : a.reservation w.nextId a.amount_minor.toNat = r ∧ _ := by
            simpa using h
          exact ⟨by omega, rfl, hgov, not_not.mp hbreach, hnew, rfl⟩
        · cases h

variable {p : BudgetPolicy}

theorem room_of_breaches {applicable : List BudgetPolicy} {a : ReserveArgs} {currency : String} {amount : Nat}
    (h : breaches w applicable a currency amount = []) (hp : p ∈ applicable) : (if p.scope_kind = .ACTION then 0
      else _usage w p a.tenant_id a.project_id a.client_id currency a.now) + amount ≤
        p.ceiling_minor := by
  by_contra hlt
  have hmem : _ ∈ breaches w applicable a currency amount :=
    List.mem_filterMap.mpr ⟨p, hp, if_pos (Nat.lt_of_not_le hlt)⟩
  rw [h] at hmem
  cases hmem

variable {c₁ : Option String} {t₁ p₁ c : String}

theorem weight_same_scope {t₂ p₂ : String} {c₂ : Option String} (h₁ : p ∈ governing w t₁ p₁ c₁ c)
    (h₂ : p ∈ governing w t₂ p₂ c₂ c) (hk : p.scope_kind ≠ .ACTION) (now : Moment) (r : Reservation) :
    weight p.scope_kind t₁ p₁ c₁ c now r = weight p.scope_kind t₂ p₂ c₂ c now r := by
  simp only [governing, _applicable, policiesFor, List.mem_filter, decide_eq_true_eq] at h₁ h₂
  obtain ⟨⟨-, ht₁, -⟩, hs₁⟩ := h₁
  obtain ⟨⟨-, ht₂, -⟩, hs₂⟩ := h₂
  have htenant : t₁ = t₂ := ht₁.symm.trans ht₂
  subst htenant
  unfold weight
  cases hkind : p.scope_kind with
  | ACTION => exact absurd hkind hk
  | PROJECT =>
    simp only [hkind, decide_eq_true_eq] at hs₁ hs₂
    simp only [inScope, ← hs₁, ← hs₂]
  | CLIENT =>
    simp only [hkind, Bool.and_eq_true, decide_eq_true_eq] at hs₁ hs₂
    simp only [inScope, hs₁.1, hs₂.1]
  | TENANT_DAY => rfl
  | TENANT_MONTH => rfl

theorem governing_of_weight (h₁ : p ∈ governing w t₁ p₁ c₁ c) (hk : p.scope_kind ≠ .ACTION) {now : Moment}
    (hw : weight p.scope_kind t₁ p₁ c₁ c now r ≠ 0) :
    r.currency = c ∧ p ∈ governing w r.tenant_id r.project_id r.client_id r.currency := by
  unfold weight at hw
  have hcond := of_not_not fun hn => hw (if_neg hn)
  simp only [Bool.and_eq_true, decide_eq_true_eq] at hcond
  obtain ⟨⟨⟨ht, hc⟩, -⟩, hs⟩ := hcond
  refine ⟨hc, ?_⟩
  rw [ht, hc]
  simp only [governing, _applicable, List.mem_filter] at h₁ ⊢
  refine ⟨h₁.1, ?_⟩
  have hs₁ := h₁.2
  cases hkind : p.scope_kind with
  | ACTION => exact absurd hkind hk
  | PROJECT =>
    simp only [hkind, inScope, decide_eq_true_eq] at hs hs₁ ⊢
    rw [hs₁, hs]
  | CLIENT =>
    simp only [hkind, inScope, Bool.and_eq_true, decide_eq_true_eq] at hs hs₁ ⊢
    exact ⟨hs.2.trans hs₁.1, hs₁.2⟩
  | TENANT_DAY => simpa [hkind] using hs₁
  | TENANT_MONTH => simpa [hkind] using hs₁

theorem reservation_counted (a : ReserveArgs) (id amount : Nat) :
    (a.reservation id amount).counted = amount := by
  simp [Reservation.counted, ReserveArgs.reservation]

theorem Bounded.reserve {a : ReserveArgs} (h : Bounded w) (hnow : a.now ≤ w.now)
    (hr : reserve_budget w a = .ok (r, w')) : Bounded w' := by
  obtain ⟨-, rfl, hgov, hroom, hnew, rfl⟩ := reserve_budget_ok hr
  have hs := h.sweep a.tenant_id a.now
  have hmem : ∀ {r'}, r' ∈ (w.sweep a.tenant_id a.now).action_budget_reservations.insert _ hnew →
      r' ∈ (w.sweep a.tenant_id a.now).action_budget_reservations ∨
        r' = a.reservation w.nextId a.amount_minor.toNat := Table.mem_insert.mp
  constructor
  · intro later hl t project client cur p hp hk
    rw [_usage_eq_total]
    show ((w.sweep a.tenant_id a.now).action_budget_reservations.insert _ hnew).total _ ≤ _
    rw [Table.total_insert]
    by_cases hz : weight p.scope_kind t project client cur later
        (a.reservation w.nextId a.amount_minor.toNat) = 0
    · rw [hz, Nat.add_zero, ← _usage_eq_total]
      exact hs.usage later hl t project client cur p hp hk
    · -- the new row is in the policy's scope, so the check has looked at the policy
      obtain ⟨hcur, hp'⟩ := governing_of_weight hp hk hz
      subst hcur
      have hle := room_of_breaches hroom hp'
      rw [if_neg hk, _usage_eq_total] at hle
      refine Nat.le_trans (Nat.add_le_add ?_ ?_) hle
      · refine Table.total_le fun r' _ => ?_
        rw [weight_same_scope hp hp' hk]
        exact weight_later (Nat.le_trans hnow hl) r'
      · unfold weight
        split
        · exact Nat.le_of_eq (reservation_counted _ _ _)
        · exact Nat.zero_le _
  all_goals
    intro r' hr'
    rcases hmem hr' with hr' | rfl
  · exact hs.single r' hr'
  · intro p hp hk
    have hle := room_of_breaches hroom hp
    rwa [if_pos hk, Nat.zero_add] at hle
  · exact hs.committed r' hr'
  · intro m hm
    cases hm
  · exact hs.covered r' hr'
  · exact hgov

/-! ## Settling keeps the ceilings -/

variable {a : SettleArgs}

theorem settle_reservation_ok (h : settle_reservation w a = .ok (r, w')) : a.status ≠ .RESERVED ∧ ∃ current,
      w.action_budget_reservations.find? a.reservation_id = some current ∧
      current.status = a.expected_status ∧ r = current.settled a w.now ∧ w' = { w with
        action_budget_reservations :=
          w.action_budget_reservations.update a.reservation_id (·.settled a w.now)
            (Reservation.settled_id a w.now) } := by
  unfold settle_reservation at h
  split at h
  · cases h
  · rename_i hstatus
    split at h
    · cases h
    · rename_i current hcur
      split at h
      · cases h
      · rename_i hexp
        split at h
        · cases h
        · obtain ⟨rfl, rfl⟩ : current.settled a w.now = r ∧ _ := by simpa using h
          exact ⟨hstatus, current, hcur, not_not.mp hexp, rfl, rfl⟩

/-- The settlements the gateway makes: a RESERVED reservation is committed (not
    above its amount), released or expired, and a COMMITTED one is refunded. -/
structure GatewaySettle (w : World) (a : SettleArgs) : Prop where
  status : a.expected_status = .RESERVED ∧ a.status ∈ [.COMMITTED, .RELEASED, .EXPIRED] ∨
    a.expected_status = .COMMITTED ∧ a.status = .REFUNDED
  amount : ∀ c ∈ a.committed_minor, ∀ r ∈ w.action_budget_reservations,
    r.reservation_id = a.reservation_id → c.toNat ≤ r.amount_minor

theorem counted_le (h : ∀ m ∈ r.committed_minor, m ≤ r.amount_minor) : r.counted ≤ r.amount_minor := by
  unfold Reservation.counted
  split
  · cases hm : r.committed_minor with
    | none => exact Nat.le_refl _
    | some m => exact h m hm
  · exact Nat.le_refl _

theorem settled_committed (ha : GatewaySettle w a) (hr : r ∈ w.action_budget_reservations)
    (hid : r.reservation_id = a.reservation_id) (h : ∀ m ∈ r.committed_minor, m ≤ r.amount_minor) :
    ∀ m ∈ (r.settled a w.now).committed_minor, m ≤ r.amount_minor := by
  intro m hm
  cases hc : a.committed_minor with
  | none => exact h m (by simpa [Reservation.settled, hc] using hm)
  | some c =>
    have hcm : c.toNat = m := by simpa [Reservation.settled, hc] using hm
    rw [← hcm]
    exact ha.amount c hc r hr hid

theorem settled_active (ha : GatewaySettle w a) (hr : r ∈ w.action_budget_reservations)
    (hid : r.reservation_id = a.reservation_id) (hexp : r.status = a.expected_status)
    (h : ∀ m ∈ r.committed_minor, m ≤ r.amount_minor) (hactive : (r.settled a w.now).active = true) :
    r.active = true ∧ (r.settled a w.now).counted ≤ r.counted := by
  rcases ha.status with ⟨hres, -⟩ | ⟨-, hto⟩
  · have hstatus : r.status = .RESERVED := hexp.trans hres
    have hamount : r.counted = r.amount_minor := by simp [Reservation.counted, hstatus]
    refine ⟨by simp [Reservation.active, hstatus], ?_⟩
    rw [hamount]
    exact counted_le (r := r.settled a w.now) (settled_committed ha hr hid h)
  · simp [Reservation.active, Reservation.settled, hto] at hactive

theorem Bounded.settle (h : Bounded w) (ha : GatewaySettle w a) (hr : settle_reservation w a = .ok (r, w')) :
    Bounded w' := by
  obtain ⟨-, current, hcur, hexp, rfl, rfl⟩ := settle_reservation_ok hr
  obtain ⟨hmem, hid⟩ := Table.find?_eq_some.mp hcur
  have hback : ∀ {r'}, r' ∈ w.action_budget_reservations.update a.reservation_id
      (·.settled a w.now) (Reservation.settled_id a w.now) → ∃ r₀ ∈ w.action_budget_reservations,
        r' = r₀ ∨ (r₀.reservation_id = a.reservation_id ∧ r' = r₀.settled a w.now) := by
    intro r' hr'
    rcases (Table.mem_update (Reservation.settled_id a w.now)).mp hr' with ⟨r₀, hr₀, hk, rfl⟩ | ⟨hr', -⟩
    · exact ⟨r₀, hr₀, .inr ⟨hk, rfl⟩⟩
    · exact ⟨r', hr', .inl rfl⟩
  constructor
  · intro later hl t project client cur p hp hk
    refine Nat.le_trans ?_ (h.usage later hl t project client cur p hp hk)
    rw [_usage_eq_total, _usage_eq_total]
    refine Table.total_update_le (Reservation.settled_id a w.now) fun r₀ hr₀ hk₀ => ?_
    have hsame : r₀ = current := Table.eq_of_key hr₀ hmem (hk₀.trans hid.symm)
    refine weight_le rfl rfl rfl rfl rfl fun hactive => ?_
    exact settled_active ha hr₀ hk₀ (hsame ▸ hexp) (h.committed r₀ hr₀) hactive
  all_goals
    intro r' hr'
    obtain ⟨r₀, hr₀, rfl | ⟨hk₀, rfl⟩⟩ := hback hr'
  · exact h.single r' hr₀
  · exact h.single r₀ hr₀
  · exact h.committed r' hr₀
  · exact settled_committed ha hr₀ hk₀ (h.committed r₀ hr₀)
  · exact h.covered r' hr₀
  · exact h.covered r₀ hr₀

/-! ## Every run of the budget -/

/-- One step of the budget: the clock moves on, or one transaction runs. A
    reservation is dated with a clock value that has been read, so not later than
    the present. -/
inductive BudgetStep : World → World → Prop where
  | clock {w : World} (t : Moment) (h : w.now ≤ t) : BudgetStep w { w with now := t }
  | reserve {w : World} (a : ReserveArgs) (h : a.now ≤ w.now) :
      BudgetStep w (committed w (reserve_budget w a))
  | settle {w : World} (a : SettleArgs) (h : GatewaySettle w a) :
      BudgetStep w (committed w (settle_reservation w a))

/-- The worlds that any interleaving of such steps reaches. -/
inductive BudgetRun (w₀ : World) : World → Prop where
  | init : BudgetRun w₀ w₀
  | step {w w' : World} (run : BudgetRun w₀ w) (step : BudgetStep w w') : BudgetRun w₀ w'

theorem Bounded.step (h : Bounded w) (hs : BudgetStep w w') : Bounded w' := by
  cases hs with
  | clock t ht =>
    exact ⟨fun later hl => h.usage later (Nat.le_trans ht hl), h.single, h.committed, h.covered⟩
  | reserve a ha =>
    cases hr : reserve_budget w a with
    | ok res => exact h.reserve ha hr
    | error e => exact h
  | settle a ha =>
    cases hr : settle_reservation w a with
    | ok res => exact h.settle ha hr
    | error e => exact h

theorem Bounded.run {w₀ : World} (h : Bounded w₀) (run : BudgetRun w₀ w) : Bounded w := by
  induction run with
  | init => exact h
  | step _ step ih => exact ih.step step

theorem bounded_of_empty (h : w.action_budget_reservations.rows = []) : Bounded w := by
  have hnone : ∀ r, r ∉ w.action_budget_reservations := by
    intro r hr
    rw [← Table.mem_rows, h] at hr
    cases hr
  constructor
  · intro later _ t project client cur p _ _
    simp [_usage, usageRows, h]
  all_goals exact fun r hr => absurd hr (hnone r)

theorem BudgetRun.policies {w₀ : World} (run : BudgetRun w₀ w) :
    w.action_budget_policies = w₀.action_budget_policies := by
  induction run with
  | init => rfl
  | step _ step ih =>
    rw [← ih]
    cases step with
    | clock t ht => rfl
    | reserve a ha =>
      cases hr : reserve_budget _ a with
      | ok res =>
        obtain ⟨_, _, _, _, _, hw⟩ := reserve_budget_ok hr
        simp only [committed, hw, World.sweep]
      | error e => rfl
    | settle a ha =>
      cases hr : settle_reservation _ a with
      | ok res =>
        obtain ⟨-, current, -, -, -, hw⟩ := settle_reservation_ok hr
        simp only [committed, hw]
      | error e => rfl

/-- The project and the client a policy's scope is about. -/
def BudgetPolicy.Covers (p : BudgetPolicy) (project_id : String) (client_id : Option String) :
    Prop :=
  match p.scope_kind with
  | .ACTION => p.scope_ref = "*" ∨ p.scope_ref = project_id
  | .PROJECT => p.scope_ref = project_id
  | .CLIENT => p.scope_ref ≠ "" ∧ client_id = some p.scope_ref
  | .TENANT_DAY | .TENANT_MONTH => True

/-- Every window policy names its own tenant. -/
def WindowsNameTenant (policies : List BudgetPolicy) : Prop :=
  ∀ p ∈ policies, p.scope_kind = .TENANT_DAY ∨ p.scope_kind = .TENANT_MONTH →
    p.scope_ref = p.tenant_id

theorem governing_of_covers {project_id : String} {client_id : Option String}
    (hw : WindowsNameTenant w.action_budget_policies) (hp : p ∈ w.action_budget_policies)
    (hc : p.Covers project_id client_id) : p ∈ governing w p.tenant_id project_id client_id p.currency := by
  simp only [governing, _applicable, policiesFor, List.mem_filter, decide_eq_true_eq]
  refine ⟨⟨hp, trivial, trivial⟩, ?_⟩
  unfold BudgetPolicy.Covers at hc
  cases hkind : p.scope_kind with
  | ACTION => simpa [hkind] using hc
  | PROJECT => simpa [hkind] using hc
  | CLIENT => simpa [hkind, and_comm] using hc
  | TENANT_DAY => simpa using hw p hp (.inl hkind)
  | TENANT_MONTH => simpa using hw p hp (.inr hkind)

/-- **Ceiling enforcement.** In every world that any interleaving of reservations,
    settlements and clock movements reaches from one without reservations: the
    usage of every policy is within its ceiling at the present moment, every
    active reservation is within each `ACTION` ceiling over it, every reservation
    has a policy that governs it, and a refused reservation changes none. -/
theorem ceilings_enforced {w₀ w : World} (hempty : w₀.action_budget_reservations.rows = [])
    (hwin : WindowsNameTenant w₀.action_budget_policies) (run : BudgetRun w₀ w) :
    (∀ p ∈ w₀.action_budget_policies, p.scope_kind ≠ .ACTION → ∀ project_id client_id,
      p.Covers project_id client_id →
        _usage w p p.tenant_id project_id client_id p.currency w.now ≤ p.ceiling_minor) ∧
    (∀ r ∈ w.action_budget_reservations, r.active = true →
      ∀ p ∈ w₀.action_budget_policies, p.scope_kind = .ACTION → p.tenant_id = r.tenant_id →
        p.currency = r.currency → p.Covers r.project_id r.client_id →
          r.amount_minor ≤ p.ceiling_minor ∧ r.counted ≤ p.ceiling_minor) ∧
    (∀ r ∈ w.action_budget_reservations,
      governing w r.tenant_id r.project_id r.client_id r.currency ≠ []) ∧
    (∀ a e, reserve_budget w a = .error e →
      (committed w (reserve_budget w a)).action_budget_reservations =
        w.action_budget_reservations) := by
  have hb := (bounded_of_empty hempty).run run
  rw [← run.policies] at hwin ⊢
  refine ⟨?_, ?_, hb.covered, ?_⟩
  · intro p hp hk project_id client_id hc
    exact hb.usage w.now (Nat.le_refl _) _ _ _ _ p (governing_of_covers hwin hp hc) hk
  · intro r hr _ p hp hk ht hcur hc
    have hgov := governing_of_covers hwin hp hc
    rw [ht, hcur] at hgov
    have hle := hb.single r hr p hgov hk
    exact ⟨hle, Nat.le_trans (counted_le (hb.committed r hr)) hle⟩
  · intro a e he
    rw [he, committed]

/-- A project ceiling of 100 and one reservation of 60 under it. -/
theorem ceilings_enforced_one_reservation :
    let p : BudgetPolicy := ⟨"bp", "t", .PROJECT, "p", "EUR", 100⟩
    let a : ReserveArgs := ⟨"t", "p", none, "act", "EUR", 60, 10, 0⟩
    let w := committed (.fresh .sqlite [p]) (reserve_budget (.fresh .sqlite [p]) a)
    _usage w p "t" "p" none "EUR" w.now ≤ 100 ∧ w.action_budget_reservations.rows.length = 1 := by
  intro p a w
  have hwin : WindowsNameTenant [p] := by
    intro q hq
    rw [List.mem_singleton.mp hq]
    decide
  have run : BudgetRun (.fresh .sqlite [p]) w := .step .init (.reserve a (Nat.le_refl 0))
  refine ⟨?_, by decide +kernel⟩
  exact (ceilings_enforced rfl hwin run).1 p List.mem_cons_self (by decide) "p" none rfl

end Actions
