import MissionControl.Actions.Ceilings
import MissionControl.Actions.Chain
import MissionControl.Actions.Gateway

/-! # Budget previews

`budget_headroom` and `simulate_budget_policy` foretell what `reserve_budget`
would answer, each by a computation of its own. The previews sum over the rows
`list_reservations` returns, in order of time, and compare the scope in Python;
`reserve_budget` sums in the database, after the reservations past their time
have expired. -/

namespace Actions

open Relational (Table)

/-! ## Currency codes -/

theorem toUpper_toUpper (c : Char) : c.toUpper.toUpper = c.toUpper := by
  unfold Char.toUpper
  split
  · rename_i h
    apply dif_neg
    simp only [UInt32.le_iff_toNat_le, UInt32.toNat_add] at h ⊢
    grind
  · rfl

theorem upper_upper (currency : String) : currency.toUpper.toUpper = currency.toUpper := by
  unfold String.toUpper
  rw [String.map_map]
  exact congrArg (String.map · currency) (funext toUpper_toUpper)

/-! ## Reading policies and reservations -/

/-- The ceilings of a tenant, `ORDER BY scope_kind, scope_ref, currency`. -/
def list_budget_policies (w : World) (tenant_id : String) : List BudgetPolicy :=
  (w.action_budget_policies.filter fun p => p.tenant_id = tenant_id).insertionSort fun p q =>
    toLex (p.scope_kind.value, toLex (p.scope_ref, p.currency)) ≤
      toLex (q.scope_kind.value, toLex (q.scope_ref, q.currency))

/-- The reservations of a tenant in one of `statuses`, oldest first. No status
    stands for all of them. -/
def list_reservations (w : World) (tenant_id : String) (statuses : List ReservationStatus) :
    List Reservation :=
  (w.action_budget_reservations.rows.filter fun r =>
    r.tenant_id = tenant_id ∧ (statuses = [] ∨ r.status ∈ statuses)).insertionSort
      fun a b => a.created_at ≤ b.created_at

variable {tenant_id : String} {w : World} {p : BudgetPolicy}

theorem mem_list_budget_policies : p ∈ list_budget_policies w tenant_id ↔
      p ∈ w.action_budget_policies ∧ p.tenant_id = tenant_id := by
  unfold list_budget_policies
  rw [List.mem_insertionSort]
  simp

/-- The reservations both previews count, of one currency. -/
def activeIn (w : World) (tenant_id currency : String) : List Reservation :=
  (list_reservations w tenant_id [.RESERVED, .COMMITTED]).filter fun r => r.currency = currency

theorem sum_activeIn (w : World) (tenant_id currency : String) (p : Reservation → Bool) :
    (((activeIn w tenant_id currency).filter p).map (·.counted)).sum =
      w.action_budget_reservations.total fun r =>
        if r.tenant_id = tenant_id && r.currency = currency && r.active && p r then r.counted
        else 0 := by
  rw [← Table.sum_filter]
  unfold activeIn list_reservations
  have hperm := List.perm_insertionSort (fun a b : Reservation => a.created_at ≤ b.created_at)
    (w.action_budget_reservations.rows.filter fun r =>
      r.tenant_id = tenant_id ∧
        (([.RESERVED, .COMMITTED] : List ReservationStatus) = [] ∨ r.status ∈ [.RESERVED, .COMMITTED]))
  rw [(((hperm.filter _).filter p).map _).sum_eq, List.filter_filter, List.filter_filter]
  refine congrArg (fun rows : List Reservation => (rows.map (·.counted)).sum)
    (List.filter_congr fun r _ => ?_)
  rw [Bool.eq_iff_iff]
  simp [Reservation.active]
  tauto

/-! ## The headroom preview -/

/-- One ceiling in the answer of `budget_headroom`. -/
structure Headroom where
  scope_kind : ScopeKind
  scope_ref : String
  ceiling_minor : Nat
  used_minor : Nat
  headroom_minor : Nat
  deriving DecidableEq

/-- The answer of `budget_headroom`. -/
inductive BudgetView where
  | no_cost
  | policies (currency : String) (policies : List Headroom) (fail_closed : Bool)

/-- The scope condition of the preview on a reservation. An `ACTION` ceiling
    counts none. -/
def Headroom.matches (kind : ScopeKind) (project_id : String) (client_id : Option String)
    (now : Moment) (r : Reservation) : Bool :=
  match kind with
  | .PROJECT => r.project_id = project_id
  | .CLIENT => r.client_id = client_id
  | .TENANT_DAY => dayStart now ≤ r.created_at
  | .TENANT_MONTH => monthStart now ≤ r.created_at
  | .ACTION => false

def budget_headroom (w : World) (tenant_id project_id : String) (currency : Option String)
    (now : Moment) : BudgetView :=
  match currency with
  | none => .no_cost
  | some currency =>
    if currency = "" then .no_cost
    else
      let client_id := client_for_project w project_id
      let policies := (list_budget_policies w tenant_id).filter fun p => p.currency = currency
      let applicable := _applicable policies tenant_id project_id client_id
      let active := activeIn w tenant_id currency
      let out := applicable.map fun p =>
        let used := ((active.filter (Headroom.matches p.scope_kind project_id client_id now)).map
          (·.counted)).sum
        -- the subtraction of `Nat` is `max(_, 0)`
        { scope_kind := p.scope_kind, scope_ref := p.scope_ref, ceiling_minor := p.ceiling_minor,
          used_minor := used, headroom_minor := p.ceiling_minor - used : Headroom }
      .policies currency out out.isEmpty

/-- The view foretells that a spend of `cost` is refused: no ceiling applies, or
    one would be passed. -/
def BudgetView.Refuses (cost : Nat) : BudgetView → Prop
  | no_cost => False
  | policies _ shown fail_closed =>
    fail_closed = true ∨ ∃ h ∈ shown, h.ceiling_minor < h.used_minor + cost

/-- The same, read off the headroom the view shows. -/
def BudgetView.Short (cost : Nat) : BudgetView → Prop
  | no_cost => False
  | policies _ shown fail_closed => fail_closed = true ∨ ∃ h ∈ shown, h.headroom_minor < cost

/-! ## The simulated policy -/

/-- The answer of `simulate_budget_policy`. -/
structure Simulation where
  scope_kind : ScopeKind
  scope_ref : String
  currency : String
  proposed_ceiling_minor : Nat
  current_usage_minor : Nat
  headroom_minor : Nat
  would_block : List (String × Nat)
  existing_over_ceiling : Bool

/-- The scope condition of the simulation on a reservation. -/
def Simulation.in_scope (scope_kind : ScopeKind) (scope_ref : String) (moment : Moment)
    (r : Reservation) : Bool :=
  match scope_kind with
  | .PROJECT => r.project_id = scope_ref
  | .CLIENT => r.client_id = some scope_ref
  | .TENANT_DAY => dayStart moment ≤ r.created_at
  | .TENANT_MONTH => monthStart moment ≤ r.created_at
  | .ACTION => true

/-- Whether the ceiling would block a waiting action, with `used` counted
    against it already. -/
def Simulation.blocks (scope_kind : ScopeKind) (scope_ref : String) (ceiling_minor used : Nat)
    (a : ActionRow) : Bool :=
  let cost := a.binding.cost_minor
  match scope_kind with
  | .ACTION => ceiling_minor < cost
  | .PROJECT => a.project_id = scope_ref && ceiling_minor < used + cost
  | .CLIENT => a.client_id = some scope_ref && ceiling_minor < used + cost
  | .TENANT_DAY | .TENANT_MONTH => ceiling_minor < used + cost

/-- The actions a simulation looks at. -/
def waiting (w : World) (tenant_id currency : String) : List ActionRow :=
  (list_requests w tenant_id [.AWAITING_APPROVAL, .AUTHORIZED] 200).filter fun a =>
    a.binding.currency = some currency ∧ 0 < a.binding.cost_minor

/-- What would a new ceiling block? Reads only; changes nothing. -/
def simulate_budget_policy (w : World) (principal : Principal) (scope_kind : ScopeKind)
    (scope_ref currency : String) (ceiling_minor : Nat) (moment : Moment) : Simulation :=
  let currency := currency.toUpper
  let active := activeIn w principal.tenant_id currency
  let used := if scope_kind = .ACTION then 0
    else ((active.filter (Simulation.in_scope scope_kind scope_ref moment)).map (·.counted)).sum
  let blocked := (waiting w principal.tenant_id currency).filter
    (Simulation.blocks scope_kind scope_ref ceiling_minor used)
  { scope_kind, scope_ref, currency
    proposed_ceiling_minor := ceiling_minor
    current_usage_minor := used
    headroom_minor := ceiling_minor - used
    would_block := blocked.map fun a => (a.action_id, a.binding.cost_minor)
    existing_over_ceiling := ceiling_minor < used }

/-! ## Putting a policy in force -/

/-- The unique key of a policy. -/
def BudgetPolicy.scope (p : BudgetPolicy) : String × ScopeKind × String × String :=
  (p.tenant_id, p.scope_kind, p.scope_ref, p.currency)

/-- Operator-managed ceiling: a policy of its scope is replaced. -/
def set_budget_policy (w : World) (tenant_id : String) (scope_kind : ScopeKind)
    (scope_ref currency : String) (ceiling_minor : Int) : Tx BudgetPolicy :=
  if ceiling_minor < 0 then .error (.ValueError "ceiling_minor must be >= 0")
  else
    let row : BudgetPolicy :=
      { policy_id := s!"bp-{w.nextId}", tenant_id, scope_kind, scope_ref
        currency := currency.toUpper, ceiling_minor := ceiling_minor.toNat }
    match w.action_budget_policies.find? fun p => p.scope = row.scope with
    | none => .ok (row, { w with
        nextId := w.nextId + 1
        action_budget_policies := w.action_budget_policies ++ [row] })
    | some p => .ok ({ p with ceiling_minor := row.ceiling_minor }, { w with
        action_budget_policies := w.action_budget_policies.map fun q =>
          if q.scope = row.scope then { q with ceiling_minor := row.ceiling_minor } else q })

/-! ## Refusals of `reserve_budget` -/

/-- A reservation of the tenant is past its time, and still counted. -/
def Lapsed (w : World) (tenant_id : String) (now : Moment) : Prop :=
  ∃ r ∈ w.action_budget_reservations,
    r.tenant_id = tenant_id ∧ r.status = .RESERVED ∧ r.expires_at < now

variable {now : Moment}

theorem World.sweep_eq_self (h : ¬ Lapsed w tenant_id now) : w.sweep tenant_id now = w := by
  have hrows : w.action_budget_reservations.rows.map (·.swept tenant_id now) =
      w.action_budget_reservations.rows := by
    refine (List.map_congr_left fun r hr => ?_).trans (List.map_id _)
    apply if_neg
    intro hr'
    exact h ⟨r, hr, hr'⟩
  have htable : (w.sweep tenant_id now).action_budget_reservations =
      w.action_budget_reservations := by
    cases ht : w.action_budget_reservations with
    | mk rows nodup =>
      rw [ht] at hrows
      simp only [World.sweep, ht, Table.modify, hrows]
  show { w with action_budget_reservations := (w.sweep tenant_id now).action_budget_reservations } = w
  rw [htable]

/-- What a policy counts as used against a spend. -/
def usedAgainst (w : World) (p : BudgetPolicy) (tenant_id project_id : String)
    (client_id : Option String) (currency : String) (now : Moment) : Nat :=
  if p.scope_kind = .ACTION then 0
  else _usage w p tenant_id project_id client_id currency now

theorem usedAgainst_sweep_le (w : World) (p : BudgetPolicy) (tenant_id project_id : String)
    (client_id : Option String) (currency : String) (now : Moment) :
    usedAgainst (w.sweep tenant_id now) p tenant_id project_id client_id currency now ≤
      usedAgainst w p tenant_id project_id client_id currency now := by
  unfold usedAgainst
  split
  · exact Nat.le_refl _
  · exact _usage_sweep_le w p tenant_id now

variable {a : ReserveArgs} {currency : String}

theorem mem_breaches {applicable : List BudgetPolicy} {amount : Nat} {b : Breach} :
    b ∈ breaches w applicable a currency amount ↔ ∃ p ∈ applicable, p.ceiling_minor <
          usedAgainst w p a.tenant_id a.project_id a.client_id currency a.now + amount ∧
        b = ⟨p.scope_kind, p.scope_ref, p.ceiling_minor,
          usedAgainst w p a.tenant_id a.project_id a.client_id currency a.now, amount⟩ := by
  unfold breaches
  rw [List.mem_filterMap]
  constructor
  · rintro ⟨p, hp, h⟩
    change (if p.ceiling_minor < usedAgainst w p a.tenant_id a.project_id a.client_id currency a.now +
      amount then some _ else none) = some b at h
    split at h
    · rename_i hlt
      exact ⟨p, hp, hlt, (Option.some.inj h).symm⟩
    · cases h
  · rintro ⟨p, hp, hlt, rfl⟩
    exact ⟨p, hp, if_pos hlt⟩

/-- What `reserve_budget` refuses, and with which code. -/
theorem reserve_budget_refused (hpos : 0 ≤ a.amount_minor) {code : String} {found : List Breach} :
    reserve_budget w a = .error (.BudgetExceeded code found) ↔
      (governing w a.tenant_id a.project_id a.client_id a.currency.toUpper = [] ∧
        code = "NO_BUDGET_POLICY" ∧ found = []) ∨ (code = "BUDGET_CEILING_EXCEEDED" ∧ found ≠ [] ∧
        found = breaches (w.sweep a.tenant_id a.now)
          (governing w a.tenant_id a.project_id a.client_id a.currency.toUpper) a
          a.currency.toUpper a.amount_minor.toNat) := by
  have hneg : ¬ a.amount_minor < 0 := by omega
  unfold reserve_budget
  rw [if_neg hneg]
  dsimp only
  rw [show _applicable (policiesFor w a.tenant_id a.currency.toUpper) a.tenant_id a.project_id
    a.client_id = governing w a.tenant_id a.project_id a.client_id a.currency.toUpper from rfl]
  generalize governing w a.tenant_id a.project_id a.client_id a.currency.toUpper = applicable
  by_cases hgov : applicable = []
  · subst hgov
    simp only [breaches, List.filterMap_nil, true_and, if_true]
    constructor
    · intro h
      cases h
      exact .inl ⟨rfl, rfl⟩
    · rintro (⟨rfl, rfl⟩ | ⟨-, hne, he⟩)
      · rfl
      · exact absurd he hne
  · rw [if_neg hgov]
    by_cases hfound : breaches (w.sweep a.tenant_id a.now) applicable a a.currency.toUpper
        a.amount_minor.toNat = []
    · rw [if_neg (not_not.mpr hfound)]
      constructor
      · intro h
        split at h <;> cases h
      · rintro (⟨h, -⟩ | ⟨-, hne, he⟩)
        · exact absurd h hgov
        · exact absurd (he.trans hfound) hne
    · rw [if_pos hfound]
      constructor
      · intro h
        cases h
        exact .inr ⟨rfl, hfound, rfl⟩
      · rintro (⟨h, -⟩ | ⟨rfl, -, rfl⟩)
        · exact absurd h hgov
        · rfl

theorem refused_iff (hpos : 0 ≤ a.amount_minor) :
    (∃ code found, reserve_budget w a = .error (.BudgetExceeded code found)) ↔
      governing w a.tenant_id a.project_id a.client_id a.currency.toUpper = [] ∨
      ∃ p ∈ governing w a.tenant_id a.project_id a.client_id a.currency.toUpper,
        p.ceiling_minor < usedAgainst (w.sweep a.tenant_id a.now) p a.tenant_id a.project_id
          a.client_id a.currency.toUpper a.now + a.amount_minor.toNat := by
  constructor
  · rintro ⟨code, found, h⟩
    rcases (reserve_budget_refused hpos).mp h with ⟨hgov, -⟩ | ⟨-, hne, he⟩
    · exact .inl hgov
    · obtain ⟨b, hb⟩ := List.exists_mem_of_ne_nil _ hne
      rw [he] at hb
      obtain ⟨p, hp, hlt, -⟩ := mem_breaches.mp hb
      exact .inr ⟨p, hp, hlt⟩
  · rintro (hgov | ⟨p, hp, hlt⟩)
    · exact ⟨_, _, (reserve_budget_refused hpos).mpr (.inl ⟨hgov, rfl, rfl⟩)⟩
    · refine ⟨_, _, (reserve_budget_refused hpos).mpr (.inr ⟨rfl, ?_, rfl⟩)⟩
      apply List.ne_nil_of_mem
      exact mem_breaches.mpr ⟨p, hp, hlt, rfl⟩

/-! ## The headroom preview against enforcement -/

variable {project_id : String} {client_id : Option String}

theorem mem_shown_policies :
    p ∈ _applicable ((list_budget_policies w tenant_id).filter fun p => p.currency = currency)
        tenant_id project_id client_id ↔ p ∈ governing w tenant_id project_id client_id currency := by
  unfold governing _applicable policiesFor
  simp only [List.mem_filter, mem_list_budget_policies, decide_eq_true_eq, and_assoc]

theorem shown_used (now : Moment) (hp : p ∈ governing w tenant_id project_id client_id currency) :
    (((activeIn w tenant_id currency).filter
      (Headroom.matches p.scope_kind project_id client_id now)).map (·.counted)).sum =
        usedAgainst w p tenant_id project_id client_id currency now := by
  rw [sum_activeIn]
  unfold usedAgainst
  cases hkind : p.scope_kind with
  | ACTION =>
    rw [if_pos rfl]
    simp [Headroom.matches, Table.total]
  | CLIENT =>
    -- a policy of a client only governs a project that has one
    have hclient : client_id = some p.scope_ref := by
      have := (List.mem_filter.mp hp).2
      simp only [hkind, Bool.and_eq_true, decide_eq_true_eq] at this
      exact this.1
    rw [if_neg (by decide), _usage_eq_total, hkind, hclient]
    rfl
  | PROJECT | TENANT_DAY | TENANT_MONTH =>
    rw [if_neg (by decide), _usage_eq_total, hkind]
    rfl

variable {cost : Nat}

/-- **What the headroom foretells.** With a currency, the view refuses a spend
    exactly when no ceiling governs it or one would be passed by the usage before
    the sweep. -/
theorem budget_headroom_refuses (hcur : currency ≠ "") :
    (budget_headroom w tenant_id project_id (some currency) now).Refuses cost ↔
      governing w tenant_id project_id (client_for_project w project_id) currency = [] ∨
      ∃ p ∈ governing w tenant_id project_id (client_for_project w project_id) currency,
        p.ceiling_minor < usedAgainst w p tenant_id project_id
          (client_for_project w project_id) currency now + cost := by
  unfold budget_headroom
  dsimp only
  rw [if_neg hcur]
  dsimp only [BudgetView.Refuses]
  refine or_congr ?_ ?_
  · rw [List.isEmpty_iff, List.map_eq_nil_iff, List.eq_nil_iff_forall_not_mem, List.eq_nil_iff_forall_not_mem]
    exact forall_congr' fun p => not_congr mem_shown_policies
  · constructor
    · rintro ⟨h, hh, hlt⟩
      obtain ⟨p, hp, rfl⟩ := List.mem_map.mp hh
      have hp := mem_shown_policies.mp hp
      dsimp only at hlt
      rw [shown_used now hp] at hlt
      exact ⟨p, hp, hlt⟩
    · rintro ⟨p, hp, hlt⟩
      refine ⟨_, List.mem_map.mpr ⟨p, mem_shown_policies.mpr hp, rfl⟩, ?_⟩
      dsimp only
      rw [shown_used now hp]
      exact hlt

theorem budget_headroom_short {currency : Option String} (hcost : 0 < cost) :
    (budget_headroom w tenant_id project_id currency now).Short cost ↔
      (budget_headroom w tenant_id project_id currency now).Refuses cost := by
  unfold budget_headroom
  cases currency with
  | none => rfl
  | some currency =>
    by_cases hcur : currency = ""
    · simp only [hcur, if_true]
      rfl
    · simp only [hcur, if_false, BudgetView.Short, BudgetView.Refuses]
      refine or_congr Iff.rfl ?_
      refine exists_congr fun h => and_congr_right fun hh => ?_
      obtain ⟨p, -, rfl⟩ := List.mem_map.mp hh
      dsimp only
      omega

/-! ## The simulation against enforcement -/

variable {ceiling_minor : Nat} {w' : World} {scope_ref : String} {scope_kind : ScopeKind}

/-- What a successful `set_budget_policy` did: a policy of the scope is in force,
    and every one of the scope has the new ceiling. -/
theorem set_budget_policy_ok
    (h : set_budget_policy w tenant_id scope_kind scope_ref currency ceiling_minor = .ok (p, w')) :
    w'.action_budget_reservations = w.action_budget_reservations ∧ (∃ q ∈ w'.action_budget_policies,
      q.scope = (tenant_id, scope_kind, scope_ref, currency.toUpper)) ∧ ∀ q ∈ w'.action_budget_policies,
      q.scope = (tenant_id, scope_kind, scope_ref, currency.toUpper) → q.ceiling_minor = ceiling_minor := by
  unfold set_budget_policy at h
  rw [if_neg (by omega)] at h
  dsimp only at h
  generalize hrow : BudgetPolicy.mk _ _ _ _ _ _ = row at h
  have hceiling : row.ceiling_minor = ceiling_minor := by
    rw [← hrow]
    exact Int.toNat_natCast ceiling_minor
  have hscope : row.scope = (tenant_id, scope_kind, scope_ref, currency.toUpper) := by
    rw [← hrow]
    rfl
  rw [← hscope]
  cases hfind : w.action_budget_policies.find? fun p => p.scope = row.scope with
  | none =>
    rw [hfind] at h
    cases h
    refine ⟨rfl, ⟨_, List.mem_append_right _ List.mem_cons_self, rfl⟩, ?_⟩
    intro q hq hsame
    rcases List.mem_append.mp hq with hq | hq
    · have hno := List.find?_eq_none.mp hfind q hq
      exact absurd hsame (by simpa using hno)
    · rw [List.mem_singleton.mp hq]
      exact hceiling
  | some found =>
    rw [hfind] at h
    cases h
    have hfound : found.scope = row.scope := by
      simpa using List.find?_some hfind
    refine ⟨rfl, ⟨_, List.mem_map_of_mem (List.mem_of_find?_eq_some hfind), ?_⟩, ?_⟩
    · rw [if_pos hfound]
      exact hfound
    · intro q hq hsame
      obtain ⟨q₀, -, rfl⟩ := List.mem_map.mp hq
      by_cases hq₀ : q₀.scope = row.scope
      · rw [if_pos hq₀]
        exact Int.toNat_natCast ceiling_minor
      · rw [if_neg hq₀] at hsame
        exact absurd hsame hq₀

theorem set_budget_policy_total (w : World) (tenant_id : String) (scope_kind : ScopeKind)
    (scope_ref currency : String) (ceiling_minor : Nat) :
    ∃ p, set_budget_policy w tenant_id scope_kind scope_ref currency ceiling_minor = .ok (p, committed w
        (set_budget_policy w tenant_id scope_kind scope_ref currency ceiling_minor)) := by
  unfold set_budget_policy
  rw [if_neg (by omega)]
  dsimp only
  split <;> exact ⟨_, rfl⟩

/-- The scope is one a policy can address: a tenant's own windows, and, for a
    ceiling on single actions, the project at hand. -/
def Addressed (scope_kind : ScopeKind) (scope_ref tenant_id project_id : String) : Prop :=
  match scope_kind with
  | .ACTION => scope_ref = "*" ∨ scope_ref = project_id
  | .PROJECT => True
  | .CLIENT => scope_ref ≠ ""
  | .TENANT_DAY | .TENANT_MONTH => scope_ref = tenant_id

/-- The project or client of the scope is that of the action. -/
def Concerns (scope_kind : ScopeKind) (scope_ref project_id : String)
    (client_id : Option String) : Prop :=
  match scope_kind with
  | .PROJECT => project_id = scope_ref
  | .CLIENT => client_id = some scope_ref
  | .ACTION | .TENANT_DAY | .TENANT_MONTH => True

variable {q : BudgetPolicy}

theorem mem_governing_iff (hq : q ∈ w.action_budget_policies)
    (hscope : q.scope = (tenant_id, scope_kind, scope_ref, currency))
    (haddr : Addressed scope_kind scope_ref tenant_id project_id) :
    q ∈ governing w tenant_id project_id client_id currency ↔
      Concerns scope_kind scope_ref project_id client_id := by
  obtain ⟨htenant, hkind, href, hcur⟩ : q.tenant_id = tenant_id ∧ q.scope_kind = scope_kind ∧
      q.scope_ref = scope_ref ∧ q.currency = currency := by
    simpa [BudgetPolicy.scope] using hscope
  unfold governing _applicable policiesFor
  simp only [List.mem_filter, hq, htenant, hcur, hkind, href, decide_true, true_and, and_self]
  unfold Addressed at haddr
  unfold Concerns
  cases scope_kind with
  | ACTION => simpa using haddr
  | PROJECT => simp [eq_comm]
  | CLIENT => simp [show scope_ref ≠ "" from haddr]
  | TENANT_DAY => simpa using haddr
  | TENANT_MONTH => simpa using haddr

theorem usedAgainst_congr {p' : BudgetPolicy}
    (hrows : w'.action_budget_reservations = w.action_budget_reservations)
    (hkind : p'.scope_kind = p.scope_kind) : usedAgainst w' p' tenant_id project_id client_id currency now =
      usedAgainst w p tenant_id project_id client_id currency now := by
  unfold usedAgainst _usage usageRows
  rw [hrows, hkind]

/-- The usage a simulation starts from. -/
def Simulation.used (w : World) (tenant_id currency : String) (scope_kind : ScopeKind)
    (scope_ref : String) (moment : Moment) : Nat :=
  if scope_kind = .ACTION then 0
  else (((activeIn w tenant_id currency).filter
    (Simulation.in_scope scope_kind scope_ref moment)).map (·.counted)).sum

theorem simulation_used (moment : Moment) (hkind : q.scope_kind = scope_kind)
    (hconcerns : Concerns scope_kind scope_ref project_id client_id) :
    Simulation.used w tenant_id currency scope_kind scope_ref moment =
      usedAgainst w q tenant_id project_id client_id currency moment := by
  unfold Simulation.used usedAgainst
  rw [hkind, sum_activeIn, _usage_eq_total, hkind]
  cases scope_kind with
  | ACTION => rfl
  | PROJECT =>
    rw [show project_id = scope_ref from hconcerns]
    rfl
  | CLIENT =>
    rw [show client_id = some scope_ref from hconcerns]
    rfl
  | TENANT_DAY | TENANT_MONTH => rfl

variable {moment : Moment}

theorem blocks_iff {a : ActionRow} : Simulation.blocks scope_kind scope_ref ceiling_minor
        (Simulation.used w tenant_id currency scope_kind scope_ref moment) a = true ↔
      Concerns scope_kind scope_ref a.project_id a.client_id ∧
        ceiling_minor < Simulation.used w tenant_id currency scope_kind scope_ref moment +
          a.binding.cost_minor := by
  cases scope_kind with
  | ACTION => simp [Simulation.blocks, Simulation.used, Concerns]
  | PROJECT | CLIENT | TENANT_DAY | TENANT_MONTH => simp [Simulation.blocks, Concerns]

theorem mem_list_requests {states : List ActionState} {limit : Nat} {a : ActionRow}
    (h : a ∈ list_requests w tenant_id states limit) : a ∈ w.action_requests ∧ a.tenant_id = tenant_id := by
  have hsorted := List.mem_of_mem_take h
  rw [List.mem_insertionSort, List.mem_filter] at hsorted
  exact ⟨hsorted.1, (of_decide_eq_true hsorted.2).1⟩

theorem mem_would_block {principal : Principal} {a : ActionRow}
    (ha : a ∈ waiting w principal.tenant_id currency.toUpper) : (a.action_id, a.binding.cost_minor) ∈
        (simulate_budget_policy w principal scope_kind scope_ref currency ceiling_minor
          moment).would_block ↔ Simulation.blocks scope_kind scope_ref ceiling_minor
        (Simulation.used w principal.tenant_id currency.toUpper scope_kind scope_ref moment) a =
          true := by
  have hrow : ∀ b ∈ waiting w principal.tenant_id currency.toUpper, b ∈ w.action_requests :=
    fun b hb => (mem_list_requests (List.mem_filter.mp hb).1).1
  show _ ∈ List.map _ _ ↔ _
  rw [List.mem_map]
  constructor
  · rintro ⟨b, hb, hpair⟩
    obtain ⟨hb, hblocks⟩ := List.mem_filter.mp hb
    have hid : b.action_id = a.action_id := congrArg Prod.fst hpair
    rw [← Table.eq_of_key (hrow b hb) (hrow a ha) hid]
    exact hblocks
  · intro hblocks
    exact ⟨a, List.mem_filter.mpr ⟨ha, hblocks⟩, rfl⟩

/-- `reserve_budget` refuses the spend, and names the scope among the ceilings it
    would pass. -/
def RefusedBy (scope_kind : ScopeKind) (scope_ref : String) (answer : Tx Reservation) : Prop :=
  ∃ found, answer = .error (.BudgetExceeded "BUDGET_CEILING_EXCEEDED" found) ∧
    ∃ b ∈ found, b.scope_kind = scope_kind ∧ b.scope_ref = scope_ref

theorem refusedBy_iff (hpos : 0 ≤ a.amount_minor) : RefusedBy scope_kind scope_ref (reserve_budget w a) ↔
      ∃ p ∈ governing w a.tenant_id a.project_id a.client_id a.currency.toUpper,
        p.scope_kind = scope_kind ∧ p.scope_ref = scope_ref ∧
        p.ceiling_minor < usedAgainst (w.sweep a.tenant_id a.now) p a.tenant_id a.project_id
          a.client_id a.currency.toUpper a.now + a.amount_minor.toNat := by
  constructor
  · rintro ⟨found, h, b, hb, hkind, href⟩
    rcases (reserve_budget_refused hpos).mp h with ⟨-, hcode, -⟩ | ⟨-, -, he⟩
    · exact absurd hcode (by decide)
    · rw [he] at hb
      obtain ⟨p, hp, hlt, rfl⟩ := mem_breaches.mp hb
      exact ⟨p, hp, hkind, href, hlt⟩
  · rintro ⟨p, hp, hkind, href, hlt⟩
    have hb := mem_breaches.mpr ⟨p, hp, hlt, rfl⟩
    exact ⟨_, (reserve_budget_refused hpos).mpr (.inr ⟨rfl, List.ne_nil_of_mem hb, rfl⟩), _, hb, hkind, href⟩

/-- **What the simulation foretells.** With the simulated policy in force, a
    waiting action is refused by it exactly when the scope concerns the action and
    the ceiling would be passed by the usage after the sweep. -/
theorem refusedBy_set
    (hset : set_budget_policy w tenant_id scope_kind scope_ref currency ceiling_minor = .ok (p, w'))
    (htenant : a.tenant_id = tenant_id) (hcur : a.currency.toUpper = currency.toUpper)
    (haddr : Addressed scope_kind scope_ref tenant_id a.project_id) (hpos : 0 ≤ a.amount_minor) :
    RefusedBy scope_kind scope_ref (reserve_budget w' a) ↔
      Concerns scope_kind scope_ref a.project_id a.client_id ∧
        ceiling_minor < Simulation.used (w.sweep tenant_id a.now) tenant_id currency.toUpper
          scope_kind scope_ref a.now + a.amount_minor.toNat := by
  obtain ⟨hrows, ⟨q, hq, hscope⟩, hceiling⟩ := set_budget_policy_ok hset
  have hswept : (w'.sweep tenant_id a.now).action_budget_reservations =
      (w.sweep tenant_id a.now).action_budget_reservations := by
    simp only [World.sweep, hrows]
  rw [refusedBy_iff hpos, htenant, hcur]
  constructor
  · rintro ⟨p, hp, hkind, href, hlt⟩
    have hmem := (List.mem_filter.mp (List.mem_filter.mp hp).1)
    have hscope : p.scope = (tenant_id, scope_kind, scope_ref, currency.toUpper) := by
      have hin := of_decide_eq_true hmem.2
      simp [BudgetPolicy.scope, hkind, href, hin.1, hin.2]
    have hconcerns := (mem_governing_iff hmem.1 hscope haddr).mp hp
    refine ⟨hconcerns, ?_⟩
    rw [simulation_used a.now hkind hconcerns, ← usedAgainst_congr hswept rfl, ← hceiling p hmem.1 hscope]
    exact hlt
  · rintro ⟨hconcerns, hlt⟩
    have hkind : q.scope_kind = scope_kind := congrArg (·.2.1) hscope
    refine ⟨q, (mem_governing_iff hq hscope haddr).mpr hconcerns, hkind, congrArg (·.2.2.1) hscope, ?_⟩
    rw [hceiling q hq hscope, usedAgainst_congr hswept rfl, ← simulation_used a.now hkind hconcerns]
    exact hlt

theorem simulation_used_sweep_le (w : World) (hconcerns : Concerns scope_kind scope_ref project_id client_id) :
    Simulation.used (w.sweep tenant_id now) tenant_id currency scope_kind scope_ref now ≤
      Simulation.used w tenant_id currency scope_kind scope_ref now := by
  let q : BudgetPolicy := ⟨"", tenant_id, scope_kind, scope_ref, currency, 0⟩
  rw [simulation_used (q := q) now rfl hconcerns, simulation_used (q := q) now rfl hconcerns]
  apply usedAgainst_sweep_le

/-! ## Agreement -/

/-- The reservation a spend of a project would ask for. -/
def plannedArgs (w : World) (tenant_id project_id action_id currency : String) (cost : Nat)
    (expires_at now : Moment) : ReserveArgs where
  tenant_id := tenant_id
  project_id := project_id
  client_id := client_for_project w project_id
  action_id := action_id
  currency := currency
  amount_minor := cost
  expires_at := expires_at
  now := now

/-- **Previews agree with enforcement.** Whatever the policies, the reservations
    and the moment: a spend that `reserve_budget` refuses is one `budget_headroom`
    foretells, and, when no reservation of the tenant has lapsed, the other way
    round too; for a spend that costs something the headroom shown tells the same.
    A waiting action that `reserve_budget` refuses by the simulated policy, once it
    is in force, is in `would_block`, and the other way round under the same
    condition. -/
theorem previews_agree (w : World) (principal : Principal) (now : Moment) :
    (∀ project_id action_id currency expires_at cost, currency ≠ "" → currency.toUpper = currency →
      let answer := reserve_budget w
        (plannedArgs w principal.tenant_id project_id action_id currency cost expires_at now)
      let view := budget_headroom w principal.tenant_id project_id (some currency) now
      ((∃ code found, answer = .error (.BudgetExceeded code found)) → view.Refuses cost) ∧
      (¬ Lapsed w principal.tenant_id now → view.Refuses cost →
        ∃ code found, answer = .error (.BudgetExceeded code found)) ∧
      (0 < cost → (view.Short cost ↔ view.Refuses cost))) ∧
    (∀ scope_kind scope_ref currency (ceiling_minor : Nat),
      ∀ a ∈ waiting w principal.tenant_id currency.toUpper,
        Addressed scope_kind scope_ref principal.tenant_id a.project_id →
        let w' := committed w
          (set_budget_policy w principal.tenant_id scope_kind scope_ref currency ceiling_minor)
        let answer := reserve_budget w' (reserveArgs a currency.toUpper now)
        let blocked := (simulate_budget_policy w principal scope_kind scope_ref currency
          ceiling_minor now).would_block
        (RefusedBy scope_kind scope_ref answer → (a.action_id, a.binding.cost_minor) ∈ blocked) ∧
        (¬ Lapsed w principal.tenant_id now → (a.action_id, a.binding.cost_minor) ∈ blocked →
          RefusedBy scope_kind scope_ref answer)) := by
  refine ⟨?_, ?_⟩
  · intro project_id action_id currency expires_at cost hcur hupper
    refine ⟨?_, ?_, budget_headroom_short⟩
    · intro hrefused
      rw [refused_iff (Int.natCast_nonneg cost)] at hrefused
      dsimp only [plannedArgs] at hrefused
      rw [hupper] at hrefused
      apply (budget_headroom_refuses hcur).mpr
      refine hrefused.imp_right ?_
      rintro ⟨p, hp, hlt⟩
      refine ⟨p, hp, Nat.lt_of_lt_of_le hlt ?_⟩
      exact Nat.add_le_add_right (usedAgainst_sweep_le w p _ _ _ _ now) _
    · intro hlapsed hview
      rw [refused_iff (Int.natCast_nonneg cost)]
      dsimp only [plannedArgs]
      rw [hupper, World.sweep_eq_self hlapsed]
      exact (budget_headroom_refuses hcur).mp hview
  · intro scope_kind scope_ref currency ceiling_minor a ha haddr
    obtain ⟨p, hset⟩ := set_budget_policy_total w principal.tenant_id scope_kind scope_ref currency
      ceiling_minor
    have htenant : a.tenant_id = principal.tenant_id :=
      (mem_list_requests (List.mem_filter.mp ha).1).2
    have hrefused := refusedBy_set (a := reserveArgs a currency.toUpper now) hset htenant
      (upper_upper currency) haddr (Int.natCast_nonneg _)
    dsimp only [reserveArgs, Int.toNat_natCast] at hrefused ⊢
    rw [hrefused, mem_would_block ha, blocks_iff]
    refine ⟨?_, ?_⟩
    · rintro ⟨hconcerns, hlt⟩
      refine ⟨hconcerns, Nat.lt_of_lt_of_le hlt ?_⟩
      exact Nat.add_le_add_right (simulation_used_sweep_le w hconcerns) _
    · intro hlapsed h
      rw [World.sweep_eq_self hlapsed]
      exact h

/-! ## A lapsed reservation, and another ceiling -/

/-- A waiting spend of 150. -/
def waitingSpend : ActionRow :=
  { proposedRow "act" with
    state := .AWAITING_APPROVAL
    binding := { (proposedRow "act").binding with cost_minor := 150, currency := some "EUR" } }

/-- A project ceiling of 100, and a reservation of 80 that holds until `expires_at`. -/
def reservedWorld (expires_at : Moment) : World :=
  { World.fresh .sqlite [⟨"bp", "t", .PROJECT, "p", "EUR", 100⟩] with
    now := 10
    nextId := 1
    action_requests := ⟨[waitingSpend], by simp⟩
    action_budget_reservations :=
      ⟨[⟨0, "t", "p", none, "old", "EUR", 80, none, .RESERVED, expires_at, 0, 0⟩], by simp⟩ }

/-- An auditor of the tenant. -/
def auditor : Principal := ⟨"v", "t", "owner", ["*"]⟩

theorem not_lapsed_reservedWorld : ¬ Lapsed (reservedWorld 20) "t" 10 := by
  rintro ⟨r, hr, -, -, hlt⟩
  rw [List.mem_singleton.mp hr] at hlt
  exact absurd hlt (by decide)

/-- A spend of 50 is foretold to be refused, and is. A project ceiling of 200 would
    block the waiting spend, and does once it is in force. -/
theorem previews_agree_one_reservation :
    (∃ code found, reserve_budget (reservedWorld 20)
      (plannedArgs (reservedWorld 20) "t" "p" "new" "EUR" 50 30 10) =
        .error (.BudgetExceeded code found)) ∧
    RefusedBy .PROJECT "p" (reserve_budget (committed (reservedWorld 20)
      (set_budget_policy (reservedWorld 20) "t" .PROJECT "p" "EUR" (200 : Nat)))
        (reserveArgs waitingSpend "EUR" 10)) := by
  obtain ⟨hhead, hsim⟩ := previews_agree (reservedWorld 20) auditor 10
  have hupper : "EUR".toUpper = "EUR" := by decide +kernel
  refine ⟨?_, ?_⟩
  · refine (hhead "p" "new" "EUR" 30 50 (by decide) hupper).2.1 not_lapsed_reservedWorld ?_
    apply ((hhead "p" "new" "EUR" 30 50 (by decide) hupper).2.2 (by decide)).mp
    exact .inr ⟨⟨.PROJECT, "p", 100, 80, 20⟩, by decide +kernel, by decide⟩
  · have ha : waitingSpend ∈ waiting (reservedWorld 20) auditor.tenant_id "EUR".toUpper := by
      rw [hupper]
      simp [waiting, list_requests, reservedWorld, waitingSpend, proposedRow, auditor]
    have h := (hsim .PROJECT "p" "EUR" 200 waitingSpend ha trivial).2
      not_lapsed_reservedWorld (by decide +kernel)
    rw [hupper] at h
    exact h

/-- The reservation has lapsed: a spend of 50 is foretold to be refused, and goes
    through. And a tenant window of 1000 would block nothing, while the spend of
    150 is refused by the project ceiling. -/
theorem previews_disagree :
    ((budget_headroom (reservedWorld 5) "t" "p" (some "EUR") 10).Refuses 50 ∧
      (reserve_budget (reservedWorld 5)
        (plannedArgs (reservedWorld 5) "t" "p" "new" "EUR" 50 30 10)).isOk = true) ∧
    (waitingSpend ∈ waiting (reservedWorld 5) "t" "EUR" ∧
      (simulate_budget_policy (reservedWorld 5) auditor .TENANT_DAY "t" "EUR" 1000
        10).would_block = [] ∧
      ∃ code found, reserve_budget (committed (reservedWorld 5)
          (set_budget_policy (reservedWorld 5) "t" .TENANT_DAY "t" "EUR" (1000 : Nat)))
        (reserveArgs waitingSpend "EUR" 10) = .error (.BudgetExceeded code found)) := by
  refine ⟨⟨?_, by decide +kernel⟩, ?_, by decide +kernel, ?_⟩
  · exact .inr ⟨⟨.PROJECT, "p", 100, 80, 20⟩, by decide +kernel, by decide⟩
  · simp [waiting, list_requests, reservedWorld, waitingSpend, proposedRow]
  · rw [refused_iff (by decide)]
    exact .inr (by decide +kernel)

end Actions
