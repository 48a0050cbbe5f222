import MissionControl.Actions.Ceilings
import MissionControl.Actions.Gateway

/-! # How the world of the action plane moves on

The changes a worker has to expect between two of its own calls. A row keeps its
identity, its version only grows, and one version of a row has one content; a
reservation that stops being RESERVED never is again; a spent effect was spent
from the start. -/

namespace Actions

open Relational (Table)

/-- The states of an action whose effect has been checked. -/
def CHECKED : List ActionState := [.VERIFIED, .COMPLETED]

/-- `r'` is the row `r` at the same or a later time. -/
structure ActionRow.Follows (r r' : ActionRow) : Prop where
  identity : r'.toActionIdentity = r.toActionIdentity
  version : r.version ≤ r'.version
  same : r'.version = r.version → r' = r
  checked : r.state ∈ CHECKED →
    r'.state ∈ CHECKED ∧ r'.budget_reservation_id = r.budget_reservation_id

theorem ActionRow.Follows.refl (r : ActionRow) : r.Follows r :=
  ⟨rfl, Nat.le_refl _, fun _ => rfl, fun h => ⟨h, rfl⟩⟩

theorem ActionRow.Follows.trans {r r' r'' : ActionRow} (h : r.Follows r') (h' : r'.Follows r'') :
    r.Follows r'' := by
  refine ⟨h'.identity.trans h.identity, Nat.le_trans h.version h'.version, ?_, ?_⟩
  · intro hv
    have h₁ := h.version
    have h₂ := h'.version
    rw [h'.same (by omega)]
    exact h.same (by omega)
  · intro hs
    obtain ⟨hs', hid⟩ := h.checked hs
    obtain ⟨hs'', hid'⟩ := h'.checked hs'
    exact ⟨hs'', hid'.trans hid⟩

/-- `r'` is the reservation `r` at the same or a later time. -/
structure Reservation.Follows (r r' : Reservation) : Prop where
  reservation_id : r'.reservation_id = r.reservation_id
  tenant_id : r'.tenant_id = r.tenant_id
  project_id : r'.project_id = r.project_id
  client_id : r'.client_id = r.client_id
  action_id : r'.action_id = r.action_id
  currency : r'.currency = r.currency
  amount_minor : r'.amount_minor = r.amount_minor
  created_at : r'.created_at = r.created_at
  reserved : r'.status = .RESERVED → r.status = .RESERVED

theorem Reservation.Follows.refl (r : Reservation) : r.Follows r :=
  ⟨rfl, rfl, rfl, rfl, rfl, rfl, rfl, rfl, id⟩

theorem Reservation.Follows.trans {r r' r'' : Reservation} (h : r.Follows r')
    (h' : r'.Follows r'') : r.Follows r'' :=
  ⟨h'.1.trans h.1, h'.2.trans h.2, h'.3.trans h.3, h'.4.trans h.4, h'.5.trans h.5,
    h'.6.trans h.6, h'.7.trans h.7, h'.8.trans h.8, fun hr => h.reserved (h'.reserved hr)⟩

/-- `e'` is the effect `e` at the same or a later time. -/
structure Effect.Follows (e e' : Effect) : Prop where
  tenant_id : e'.tenant_id = e.tenant_id
  provider : e'.provider = e.provider
  idempotency_key : e'.idempotency_key = e.idempotency_key
  action_id : e'.action_id = e.action_id
  payload_hash : e'.payload_hash = e.payload_hash
  cost_minor : e'.cost_minor = e.cost_minor
  currency : e'.currency = e.currency
  spent : e'.state = "SPENT" → e.state = "SPENT"

theorem Effect.Follows.refl (e : Effect) : e.Follows e :=
  ⟨rfl, rfl, rfl, rfl, rfl, rfl, rfl, id⟩

theorem Effect.Follows.trans {e e' e'' : Effect} (h : e.Follows e') (h' : e'.Follows e'') : e.Follows e'' :=
  ⟨h'.1.trans h.1, h'.2.trans h.2, h'.3.trans h.3, h'.4.trans h.4, h'.5.trans h.5,
    h'.6.trans h.6, h'.7.trans h.7, fun hs => h.spent (h'.spent hs)⟩

/-- `w'` is the world `w` at the same or a later time. -/
structure Later (w w' : World) : Prop where
  now : w.now ≤ w'.now
  backend : w'.backend = w.backend
  policies : w'.action_budget_policies = w.action_budget_policies
  transitions : w.action_transitions <+: w'.action_transitions
  requests : ∀ r ∈ w.action_requests, ∃ r' ∈ w'.action_requests, r.Follows r'
  reservations : ∀ r ∈ w.action_budget_reservations,
    ∃ r' ∈ w'.action_budget_reservations, r.Follows r'
  effects : ∀ e ∈ w.action_sandbox_effects, ∃ e' ∈ w'.action_sandbox_effects, e.Follows e'

theorem Later.refl (w : World) : Later w w :=
  ⟨Nat.le_refl _, rfl, rfl, List.prefix_refl _, fun r hr => ⟨r, hr, .refl r⟩,
    fun r hr => ⟨r, hr, .refl r⟩, fun e he => ⟨e, he, .refl e⟩⟩

variable {w' w : World}

theorem Later.trans {w'' : World} (h : Later w w') (h' : Later w' w'') : Later w w'' := by
  refine ⟨Nat.le_trans h.now h'.now, h'.backend.trans h.backend, h'.policies.trans h.policies,
    h.transitions.trans h'.transitions, ?_, ?_, ?_⟩
  · intro r hr
    obtain ⟨r', hr', hf⟩ := h.requests r hr
    obtain ⟨r'', hr'', hf'⟩ := h'.requests r' hr'
    exact ⟨r'', hr'', hf.trans hf'⟩
  · intro r hr
    obtain ⟨r', hr', hf⟩ := h.reservations r hr
    obtain ⟨r'', hr'', hf'⟩ := h'.reservations r' hr'
    exact ⟨r'', hr'', hf.trans hf'⟩
  · intro e he
    obtain ⟨e', he', hf⟩ := h.effects e he
    obtain ⟨e'', he'', hf'⟩ := h'.effects e' he'
    exact ⟨e'', he'', hf.trans hf'⟩

theorem Later.outside (h : Outside w w') : Later w w' := by
  refine ⟨h.now, h.backend, h.policies, h.transitions ▸ List.prefix_refl _, ?_, ?_, ?_⟩
  · intro r hr
    exact ⟨r, by rw [h.requests]; exact hr, .refl r⟩
  · intro r hr
    exact ⟨r, by rw [h.reservations]; exact hr, .refl r⟩
  · intro e he
    exact ⟨e, by rw [h.effects]; exact he, .refl e⟩

/-! ## What has been seen of the world -/

/-- The action has been read as `row`, at this time or earlier. -/
def Seen (w : World) (row : ActionRow) : Prop := ∃ r ∈ w.action_requests, row.Follows r

variable {row : ActionRow}

theorem Seen.later (h : Seen w row) (hw : Later w w') : Seen w' row := by
  obtain ⟨r, hr, hf⟩ := h
  obtain ⟨r', hr', hf'⟩ := hw.requests r hr
  exact ⟨r', hr', hf.trans hf'⟩

theorem Seen.of_mem (h : row ∈ w.action_requests) : Seen w row :=
  ⟨row, h, .refl row⟩

theorem Seen.current {current : ActionRow} (h : Seen w row)
    (hc : w.action_requests.find? row.action_id = some current) (hv : current.version = row.version) :
    current = row := by
  obtain ⟨r, hr, hf⟩ := h
  obtain ⟨hmem, hid⟩ := Table.find?_eq_some.mp hc
  have hr' : r = current := Table.eq_of_key hr hmem
    ((congrArg ActionIdentity.action_id hf.identity).trans hid.symm)
  subst hr'
  exact hf.same hv

/-- No reservation with this id is RESERVED. -/
def NotReserved (w : World) (id : Nat) : Prop :=
  ∀ r ∈ w.action_budget_reservations, r.reservation_id = id → r.status ≠ .RESERVED

theorem NotReserved.later {id : Nat} (h : NotReserved w id) (hw : Later w w')
    (hid : ∃ r ∈ w.action_budget_reservations, r.reservation_id = id) : NotReserved w' id := by
  intro r' hr' hk hres
  obtain ⟨r, hr, rfl⟩ := hid
  obtain ⟨r'', hr'', hf⟩ := hw.reservations r hr
  have hsame : r'' = r' := Table.eq_of_key hr'' hr' (hf.reservation_id.trans hk.symm)
  subst hsame
  exact h r hr rfl (hf.reserved hres)

end Actions

/-! # What each write changes

For every write of the plane: the rows of the tables it touched afterwards, and
that it touched nothing else. -/

namespace Actions

open Canonical (Value Sha256)
open Relational (Table)

variable [Sha256] [Deployment]

/-- What a move of a row that had been seen did: the row was still current, and it
    is the only thing that changed, with one more entry in its log. -/
structure MoveDone (w w' : World) (row r : ActionRow) (to_state : ActionState) (updates : Updates)
    (stamp : Moment) : Prop where
  mem : row ∈ w.action_requests
  result : r = row.moved to_state updates stamp
  requests : ∀ x, x ∈ w'.action_requests ↔
    x = r ∨ (x ∈ w.action_requests ∧ x.action_id ≠ row.action_id)
  entry : ∃ e, e.action_id = row.action_id ∧ e.from_state = some row.state ∧
    e.to_state = to_state ∧ w'.action_transitions = w.action_transitions ++ [e]
  rest : w' = { w with
    action_requests := w'.action_requests, action_transitions := w'.action_transitions }

variable {w' w : World} {r row : ActionRow}

variable {actor reason : String}

omit [Deployment] in
theorem transition_move {to_state : ActionState} {evidence : List (String × Value)} {updates : Updates}
    {now : Moment} (hseen : Seen w row)
    (h : transition w (moveArgs row to_state actor reason evidence updates now) = .ok (r, w')) :
    MoveDone w w' row r to_state updates now := by
  obtain ⟨current, stored, hcur, hv, -, rfl, rfl⟩ := transition_ok h
  have hsame : current = row := hseen.current hcur hv
  subst hsame
  obtain ⟨hmem, -⟩ := Table.find?_eq_some.mp hcur
  refine ⟨hmem, rfl, ?_, ⟨_, rfl, rfl, rfl, rfl⟩, rfl⟩
  intro x
  rw [Table.mem_update (ActionRow.moved_id _ _ _)]
  constructor
  · rintro (⟨r₀, hr₀, hk, rfl⟩ | hx)
    · left
      rw [Table.eq_of_key hr₀ hmem hk]
    · exact .inr hx
  · rintro (rfl | hx)
    · exact .inl ⟨current, hmem, rfl, rfl⟩
    · exact .inr hx

/-- What an annotation of a row that had been seen did. -/
structure AnnotateDone (w w' : World) (row r : ActionRow) : Prop where
  mem : row ∈ w.action_requests
  result : ∃ outcome stamp, r = row.annotated outcome stamp
  requests : ∀ x, x ∈ w'.action_requests ↔
    x = r ∨ (x ∈ w.action_requests ∧ x.action_id ≠ row.action_id)
  entry : ∃ e, e.action_id = row.action_id ∧ e.from_state = some row.state ∧
    e.to_state = row.state ∧ w'.action_transitions = w.action_transitions ++ [e]
  rest : w' = { w with
    action_requests := w'.action_requests, action_transitions := w'.action_transitions }

omit [Deployment] in
theorem annotate_done {a : AnnotateArgs} (hseen : Seen w row) (hid : a.action_id = row.action_id)
    (hver : a.expected_version = row.version) (h : annotate w a = .ok (r, w')) : AnnotateDone w w' row r := by
  obtain ⟨current, stored, hcur, hv, rfl, rfl⟩ := annotate_ok h
  rw [hid] at hcur
  have hsame : current = row := hseen.current hcur (hv.trans hver)
  subst hsame
  obtain ⟨hmem, -⟩ := Table.find?_eq_some.mp hcur
  refine ⟨hmem, ⟨a.outcome, w.now, rfl⟩, ?_, ⟨_, hid, rfl, rfl, rfl⟩, rfl⟩
  · intro x
    rw [Table.mem_update (ActionRow.annotated_id _ _), hid]
    constructor
    · rintro (⟨r₀, hr₀, hk, rfl⟩ | hx)
      · left
        rw [Table.eq_of_key hr₀ hmem hk]
      · exact .inr hx
    · rintro (rfl | hx)
      · exact .inl ⟨current, hmem, rfl, rfl⟩
      · exact .inr hx

/-- What an insert that created a row did. -/
structure InsertDone (w w' : World) (row : ActionRow) : Prop where
  fresh : ∀ x ∈ w.action_requests, x.action_id ≠ row.action_id
  newKey : ∀ x ∈ w.action_requests,
    ¬ (x.tenant_id = row.tenant_id ∧ x.idempotency_key = row.idempotency_key)
  requests : ∀ x, x ∈ w'.action_requests ↔ x ∈ w.action_requests ∨ x = row
  entry : ∃ e, e.action_id = row.action_id ∧ e.from_state = none ∧ e.to_state = row.state ∧
    w'.action_transitions = w.action_transitions ++ [e]
  rest : w' = { w with
    action_requests := w'.action_requests, action_transitions := w'.action_transitions }

variable {created : Bool}

omit [Deployment] in
theorem insert_done {evidence : Option Value}
    (h : insert_request w row actor reason evidence = .ok ((r, created), w')) :
    (created = false ∧ w' = w ∧ r ∈ w.action_requests) ∨ (created = true ∧ r = row ∧ InsertDone w w' row) := by
  rcases insert_request_ok h with ⟨rfl, rfl, hkey⟩ | ⟨rfl, rfl, hkey, hnew, stored, -, rfl⟩
  · exact .inl ⟨rfl, rfl, List.mem_of_find?_eq_some hkey⟩
  · refine .inr ⟨rfl, rfl, ?_, ?_, ?_, ⟨_, rfl, rfl, rfl, rfl⟩, rfl⟩
    · exact Table.find?_eq_none.mp hnew
    · intro x hx hk
      have := List.find?_eq_none.mp hkey x hx
      simp [hk] at this
    · exact fun x => Table.mem_insert (h := hnew)

/-- What a reservation did: the sweep, and one new reservation. -/
structure ReserveDone (w w' : World) (a : ReserveArgs) (r : Reservation) : Prop where
  result : r = a.reservation w.nextId a.amount_minor.toNat
  amount : 0 ≤ a.amount_minor
  fresh : ∀ x ∈ w.action_budget_reservations, x.reservation_id ≠ r.reservation_id
  reservations : ∀ x, x ∈ w'.action_budget_reservations ↔
    (∃ x₀ ∈ w.action_budget_reservations, x₀.swept a.tenant_id a.now = x) ∨ x = r
  rest : w' = { w with
    nextId := w'.nextId, action_budget_reservations := w'.action_budget_reservations }

omit [Sha256] [Deployment] in
theorem reserve_done {a : ReserveArgs} {r : Reservation} (h : reserve_budget w a = .ok (r, w')) :
    ReserveDone w w' a r := by
  obtain ⟨hpos, rfl, -, -, hnew, rfl⟩ := reserve_budget_ok h
  refine ⟨rfl, hpos, ?_, ?_, rfl⟩
  · intro x hx hid
    refine Table.find?_eq_none.mp hnew _ (World.mem_sweep.mpr ⟨x, hx, rfl⟩) ?_
    rw [Reservation.swept_id]
    exact hid
  · intro x
    show x ∈ Table.insert _ _ hnew ↔ _
    rw [Table.mem_insert, World.mem_sweep]

/-- What a settlement did to the one reservation it names. -/
structure SettleDone (w w' : World) (a : SettleArgs) (r₀ r : Reservation) : Prop where
  mem : r₀ ∈ w.action_budget_reservations
  id : r₀.reservation_id = a.reservation_id
  expected : r₀.status = a.expected_status
  status : a.status ≠ .RESERVED
  result : ∃ stamp, r = r₀.settled a stamp
  reservations : ∀ x, x ∈ w'.action_budget_reservations ↔
    x = r ∨ (x ∈ w.action_budget_reservations ∧ x.reservation_id ≠ a.reservation_id)
  rest : w' = { w with action_budget_reservations := w'.action_budget_reservations }

omit [Sha256] [Deployment] in
theorem settle_done {a : SettleArgs} {r : Reservation} (h : settle_reservation w a = .ok (r, w')) :
    ∃ r₀, SettleDone w w' a r₀ r := by
  obtain ⟨hstatus, r₀, hcur, hexp, rfl, rfl⟩ := settle_reservation_ok h
  obtain ⟨hmem, hid⟩ := Table.find?_eq_some.mp hcur
  refine ⟨r₀, hmem, hid, hexp, hstatus, ⟨w.now, rfl⟩, ?_, rfl⟩
  intro x
  rw [Table.mem_update (Reservation.settled_id a w.now)]
  constructor
  · rintro (⟨x₀, hx₀, hk, rfl⟩ | hx)
    · left
      rw [Table.eq_of_key hx₀ hmem (hk.trans hid.symm)]
    · exact .inr hx
  · rintro (rfl | hx)
    · exact .inl ⟨r₀, hmem, hid, rfl⟩
    · exact .inr hx

/-- What a put that created an effect did. -/
structure PutDone (w w' : World) (a : PutArgs) (e : Effect) : Prop where
  result : e = a.effect w.nextId w.now
  fresh : ∀ x ∈ w.action_sandbox_effects, (x.tenant_id, x.provider, x.idempotency_key) ≠
    (a.tenant_id, a.provider, a.idempotency_key)
  effects : ∀ x, x ∈ w'.action_sandbox_effects ↔ x ∈ w.action_sandbox_effects ∨ x = e
  rest : w' = { w with
    nextId := w'.nextId, action_sandbox_effects := w'.action_sandbox_effects }

variable {e : Effect}

omit [Sha256] [Deployment] in
theorem put_done {a : PutArgs} (h : sandbox_put w a = .ok ((e, created), w')) :
    (created = false ∧ w' = w ∧ e ∈ w.action_sandbox_effects) ∨ (created = true ∧ PutDone w w' a e) := by
  rcases sandbox_put_ok h with ⟨rfl, rfl, he, -⟩ | ⟨rfl, rfl, hnew, rfl⟩
  · exact .inl ⟨rfl, rfl, he⟩
  · exact .inr ⟨rfl, rfl, Table.find?_eq_none.mp hnew, fun x => Table.mem_insert (h := hnew), rfl⟩

/-- What a change of an effect's state did. -/
structure ChangeDone (w w' : World) (effect_id : Nat) (state expected_state : String) : Prop where
  effects : ∀ x, x ∈ w'.action_sandbox_effects ↔
    ∃ x₀ ∈ w.action_sandbox_effects, x₀.changed effect_id state expected_state w.now = x
  rest : w' = { w with action_sandbox_effects := w'.action_sandbox_effects }

omit [Sha256] [Deployment] in
theorem change_done {effect_id : Nat} {state expected_state : String}
    (h : sandbox_set_state w effect_id state expected_state = .ok (e, w')) :
    ChangeDone w w' effect_id state expected_state := by
  have hw := sandbox_set_state_ok h
  subst hw
  exact ⟨fun x => Table.mem_modify (Effect.changed_key effect_id state expected_state w.now), rfl⟩

end Actions
