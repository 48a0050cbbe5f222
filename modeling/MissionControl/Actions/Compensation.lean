import MissionControl.Actions.Endings

/-! # Compensations

A compensation moves the effect at the provider, reads it back, and gives the
money back in the ledger: three steps, each of which can fail or never come, and
any number of workers can take them at once. What they amount to follows from
two facts about single calls. The state of an effect only changes the way an
adapter compensates it, and a reservation that has been committed can only be
refunded. -/

namespace Actions

open Canonical (Sha256 mixHash)
open Interleaving (Program Run Amid OwnCall visited ownCalls started)
open Relational (Table)
open Gateway (fromExcept)

variable [Sha256] [Deployment]

/-! ## What effects and reservations become -/

/-- The state of an effect stays, or is compensated. -/
def Compensated (state state' : String) : Prop :=
  state' = state ∨ ∃ a : Adapter, a.compensation = some (state, state')

/-- What the status of a reservation may become. -/
def ReservationStatus.Becomes (s s' : ReservationStatus) : Prop :=
  s' = s ∨ s = .RESERVED ∨ s = .COMMITTED ∧ s' = .REFUNDED

variable {s : String}

section
omit [Sha256] [Deployment]

theorem Compensated.trans {s' s'' : String} (h : Compensated s s') (h' : Compensated s' s'') :
    Compensated s s'' := by
  rcases h with rfl | ⟨a, ha⟩
  · exact h'
  · rcases h' with rfl | ⟨b, hb⟩
    · exact .inr ⟨a, ha⟩
    · exfalso
      cases a <;> simp [Adapter.compensation] at ha <;> obtain ⟨-, rfl⟩ := ha <;>
        cases b <;> simp [Adapter.compensation] at hb

theorem Compensated.of_refunded (h : Compensated "REFUNDED" s) : s = "REFUNDED" := by
  rcases h with rfl | ⟨a, ha⟩
  · rfl
  · cases a <;> simp [Adapter.compensation] at ha

theorem Compensated.of_spent (h : Compensated "SPENT" s) : s = "SPENT" ∨ s = "REFUNDED" := by
  rcases h with rfl | ⟨a, ha⟩
  · exact .inl rfl
  · cases a <;> simp [Adapter.compensation] at ha
    exact .inr ha.symm

theorem ReservationStatus.Becomes.trans {s s' s'' : ReservationStatus} (h : s.Becomes s')
    (h' : s'.Becomes s'') : s.Becomes s'' := by
  rcases h with rfl | rfl | ⟨rfl, rfl⟩
  · exact h'
  · exact .inr (.inl rfl)
  · rcases h' with rfl | h' | ⟨h', -⟩
    · exact .inr (.inr ⟨rfl, rfl⟩)
    · cases h'
    · cases h'

end

/-- Effects are at most compensated and reservations at most settled, from the
    world `w` to the world `w'`. -/
structure Proceeded (w w' : World) : Prop where
  effects : ∀ e ∈ w.action_sandbox_effects, ∃ e' ∈ w'.action_sandbox_effects,
    (e'.tenant_id, e'.provider, e'.idempotency_key) = (e.tenant_id, e.provider, e.idempotency_key) ∧
    e'.effect_id = e.effect_id ∧ Compensated e.state e'.state
  reservations : ∀ r ∈ w.action_budget_reservations, ∃ r' ∈ w'.action_budget_reservations,
    r'.reservation_id = r.reservation_id ∧ r.status.Becomes r'.status

/-- Every effect is in the state its adapter made it in, or compensated from it. -/
def Placed (w : World) : Prop :=
  ∀ e ∈ w.action_sandbox_effects, ∃ a : Adapter, e.provider = a.provider ∧
    Compensated a.expected_state e.state

section proceeded

omit [Sha256] [Deployment]

theorem Proceeded.refl (w : World) : Proceeded w w :=
  ⟨fun e he => ⟨e, he, rfl, rfl, .inl rfl⟩, fun r hr => ⟨r, hr, rfl, .inl rfl⟩⟩

theorem Proceeded.trans {w w' w'' : World} (h : Proceeded w w') (h' : Proceeded w' w'') : Proceeded w w'' := by
  refine ⟨fun e he => ?_, fun r hr => ?_⟩
  · obtain ⟨e', he', hkey, hid, hstate⟩ := h.effects e he
    obtain ⟨e'', he'', hkey', hid', hstate'⟩ := h'.effects e' he'
    exact ⟨e'', he'', hkey'.trans hkey, hid'.trans hid, hstate.trans hstate'⟩
  · obtain ⟨r', hr', hid, hstatus⟩ := h.reservations r hr
    obtain ⟨r'', hr'', hid', hstatus'⟩ := h'.reservations r' hr'
    exact ⟨r'', hr'', hid'.trans hid, hstatus.trans hstatus'⟩

theorem Proceeded.of_eq {w w' : World} (heffects : w'.action_sandbox_effects = w.action_sandbox_effects)
    (hreservations : w'.action_budget_reservations = w.action_budget_reservations) : Proceeded w w' :=
  ⟨fun e he => ⟨e, by rwa [heffects], rfl, rfl, .inl rfl⟩,
    fun r hr => ⟨r, by rwa [hreservations], rfl, .inl rfl⟩⟩

theorem Effect.compensated_changed (e : Effect) (effect_id : Nat) {state expected_state : String}
    (stamp : Moment) (h : ∃ a : Adapter, a.compensation = some (expected_state, state)) :
    Compensated e.state (e.changed effect_id state expected_state stamp).state := by
  unfold Effect.changed
  split
  · rename_i hsame
    rw [hsame.2]
    exact .inr h
  · exact .inl rfl

theorem Effect.changed_id (e : Effect) (effect_id : Nat) (state expected_state : String)
    (stamp : Moment) : (e.changed effect_id state expected_state stamp).effect_id = e.effect_id := by
  unfold Effect.changed
  split <;> rfl

theorem Reservation.becomes_swept (r : Reservation) (tenant_id : String) (stamp : Moment) :
    r.status.Becomes (r.swept tenant_id stamp).status := by
  unfold Reservation.swept
  split
  · rename_i h
    exact .inr (.inl h.2.1)
  · exact .inl rfl

end proceeded

variable {direct : Prop} {i : Nat} {m : Stage} {w' : World} {c : Call} {ans : Plane.Answer c}

theorem SettlePurpose.becomes {w : World} {a : SettleArgs} (h : SettlePurpose w a) :
    a.expected_status.Becomes a.status := by
  cases h with
  | release _ hexpected => exact .inr (.inl hexpected)
  | commit _ _ _ _ _ _ hexpected => exact .inr (.inl hexpected)
  | refund _ _ _ _ _ hstatus hexpected => exact .inr (.inr ⟨hexpected, hstatus⟩)

/-- **What one call does to effects and reservations.** -/
theorem Change.proceeded (h : Change direct i m w' c ans) : Proceeded m.world w' := by
  cases h with
  | quiet _ rest => exact .of_eq (by rw [rest]) (by rw [rest])
  | insert done => exact .of_eq (by rw [done.rest]) (by rw [done.rest])
  | move done => exact .of_eq (by rw [done.rest]) (by rw [done.rest])
  | annotate done => exact .of_eq (by rw [done.rest]) (by rw [done.rest])
  | @reserve a _ done =>
    refine ⟨fun e he => ⟨e, by rw [done.rest]; exact he, rfl, rfl, .inl rfl⟩, fun r hr => ?_⟩
    exact ⟨_, (done.reservations _).mpr (.inl ⟨r, hr, rfl⟩), r.swept_id a.tenant_id a.now,
      r.becomes_swept a.tenant_id a.now⟩
  | @settle a r₀ r done purpose =>
    refine ⟨fun e he => ⟨e, by rw [done.rest]; exact he, rfl, rfl, .inl rfl⟩, fun x hx => ?_⟩
    by_cases hid : x.reservation_id = a.reservation_id
    · -- the reservation that is settled
      have hsame : x = r₀ := Table.eq_of_key hx done.mem (hid.trans done.id.symm)
      obtain ⟨stamp, rfl⟩ := done.result
      refine ⟨_, (done.reservations _).mpr (.inl rfl), by rw [hsame]; rfl, ?_⟩
      rw [hsame, done.expected]
      exact purpose.becomes
    · exact ⟨x, (done.reservations x).mpr (.inr ⟨hx, hid⟩), rfl, .inl rfl⟩
  | put done =>
    refine ⟨fun e he => ⟨e, (done.effects e).mpr (.inl he), rfl, rfl, .inl rfl⟩, fun r hr => ?_⟩
    exact ⟨r, by rw [done.rest]; exact hr, rfl, .inl rfl⟩
  | @alter effect_id state expected_state _ done compensates =>
    refine ⟨fun e he => ?_, fun r hr => ⟨r, by rw [done.rest]; exact hr, rfl, .inl rfl⟩⟩
    exact ⟨_, (done.effects _).mpr ⟨e, he, rfl⟩, e.changed_key .., e.changed_id ..,
      e.compensated_changed effect_id m.world.now compensates⟩

theorem Change.placed (h : Change direct i m w' c ans) (hplaced : Placed m.world) : Placed w' := by
  have hsame : w'.action_sandbox_effects = m.world.action_sandbox_effects → Placed w' := by
    intro heq e he
    rw [heq] at he
    exact hplaced e he
  cases h with
  | quiet _ rest => exact hsame (by rw [rest])
  | insert done => exact hsame (by rw [done.rest])
  | move done => exact hsame (by rw [done.rest])
  | annotate done => exact hsame (by rw [done.rest])
  | reserve done => exact hsame (by rw [done.rest])
  | settle done => exact hsame (by rw [done.rest])
  | @put row adapter args e done =>
    intro e' he'
    rcases (done.effects e').mp he' with he' | rfl
    · exact hplaced e' he'
    · rw [done.result]
      exact ⟨adapter, rfl, .inl rfl⟩
  | @alter effect_id state expected_state _ done compensates =>
    intro e' he'
    obtain ⟨e, he, rfl⟩ := (done.effects e').mp he'
    obtain ⟨a, hprovider, hstate⟩ := hplaced e he
    have hkey := e.changed_key effect_id state expected_state m.world.now
    refine ⟨a, (congrArg (·.2.1) hkey).trans hprovider, ?_⟩
    exact hstate.trans (e.compensated_changed effect_id m.world.now compensates)

omit [Sha256] [Deployment] in
theorem Placed.spend {w : World} (h : Placed w) {e : Effect} (he : e ∈ w.action_sandbox_effects)
    (hprovider : e.provider = Adapter.SandboxAdsSpend.provider) : e.state = "SPENT" ∨ e.state = "REFUNDED" := by
  obtain ⟨a, ha, hstate⟩ := h e he
  rw [hprovider] at ha
  cases a <;> simp [Adapter.provider] at ha
  exact hstate.of_spent

/-! ## One compensation that returned -/

section returned

variable {l : List Own}

omit [Deployment] in
theorem fromExcept_ret {α : Type} {r : Except ActionError α} {a : α}
    (h : Amid exec (fromExcept r) l (.ret a)) : l = [] ∧ r = .ok a := by
  cases r with
  | ok b =>
    obtain ⟨rfl, hb⟩ := h.of_ret
    cases hb
    exact ⟨rfl, rfl⟩
  | error e => exact nomatch h.of_raise.2

variable {a : Adapter} {obs : Observation}

variable {ctx : EffectContext}

omit [Deployment] in
theorem observe_ret (h : Amid exec (a.observe ctx) l (.ret obs)) : ∃ w₁ fault w₂ o₂, l = [⟨w₁, .fault, fault⟩,
        ⟨w₂, .sandbox_get ctx.tenant_id a.provider ctx.effect_key, o₂⟩] ∧
      obs = Adapter.observation fault (sandbox_get w₂ ctx.tenant_id a.provider ctx.effect_key) := by
  obtain ⟨_, l₁, l₂, rfl, h₁, h₂⟩ := h.of_bind_ret
  obtain ⟨rfl, -⟩ := fromExcept_ret h₁
  obtain ⟨fault, l₃, l₄, rfl, h₃, h₄⟩ := h₂.of_bind_ret
  obtain ⟨w₁, o, rfl, hfault⟩ := h₃.of_perform_ret
  obtain rfl : o = fault := Except.ok.inj hfault
  split at h₄
  · exact nomatch h₄.of_raise.2
  · obtain ⟨effect, l₅, l₆, rfl, h₅, h₆⟩ := h₄.of_bind_ret
    obtain ⟨w₂, o₂, rfl, hget⟩ := h₅.of_perform_ret
    obtain ⟨rfl, hobs⟩ := h₆.of_ret
    cases hobs
    obtain rfl : sandbox_get w₂ ctx.tenant_id a.provider ctx.effect_key = effect :=
      Except.ok.inj hget
    exact ⟨w₁, _, w₂, o₂, rfl, rfl⟩

omit [Deployment] in
theorem adapter_compensate_ret {from_state to_state : String}
    (hcomp : a.compensation = some (from_state, to_state)) (h : Amid exec (a.compensate ctx) l (.ret obs)) :
    ∃ w o e l₁ l₂, l = ⟨w, .sandbox_get ctx.tenant_id a.provider ctx.effect_key, o⟩ :: (l₁ ++ l₂) ∧
      sandbox_get w ctx.tenant_id a.provider ctx.effect_key = some e ∧ Amid exec (a.observe ctx) l₂ (.ret obs) ∧
      (e.state = from_state → ∃ w' o' e', l₁ = [⟨w', .sandbox_set_state e.effect_id to_state from_state, o'⟩] ∧
        sandbox_set_state w' e.effect_id to_state from_state = .ok e') := by
  unfold Adapter.compensate at h
  rw [hcomp] at h
  obtain ⟨_, l₁, l₂, rfl, h₁, h₂⟩ := h.of_bind_ret
  obtain ⟨rfl, -⟩ := fromExcept_ret h₁
  obtain ⟨found, l₃, l₄, rfl, h₃, h₄⟩ := h₂.of_bind_ret
  obtain ⟨w, o, rfl, hget⟩ := h₃.of_perform_ret
  obtain rfl : sandbox_get w ctx.tenant_id a.provider ctx.effect_key = found := Except.ok.inj hget
  cases hfound : sandbox_get w ctx.tenant_id a.provider ctx.effect_key with
  | none =>
    rw [hfound] at h₄
    exact nomatch h₄.of_raise.2
  | some e =>
    rw [hfound] at h₄
    dsimp only at h₄
    split at h₄
    · obtain ⟨e', l₅, l₆, rfl, h₅, h₆⟩ := h₄.of_bind_ret
      obtain ⟨w', o', rfl, hset⟩ := h₅.of_perform_ret
      have hset' := Interleaving.Exec.of_answer hset
      exact ⟨w, o, e, _, l₆, rfl, hfound, h₆, fun _ => ⟨w', o', _, rfl, hset'⟩⟩
    · rename_i hstate
      exact ⟨w, o, e, [], l₄, rfl, hfound, h₄, fun hsame => absurd hsame hstate⟩

/-- The settlement a refund asks for. -/
def refundArgs (reservation_id : Nat) : SettleArgs :=
  { reservation_id, status := .REFUNDED, expected_status := .COMMITTED }

variable {row : ActionRow}

omit [Deployment] in
theorem refundBudget_ret {id : Nat} {u : Unit} (hname : row.budget_reservation_id = some id)
    (h : Amid exec (refundBudget row obs) l (.ret u)) : ∃ w o l', l = ⟨w, .get_reservation id, o⟩ :: l' ∧
      ∀ r, get_reservation w id = some r → r.status = .COMMITTED → obs.state = some "REFUNDED" →
        ∃ w' o' x, l' = [⟨w', .settle_reservation (refundArgs r.reservation_id), o'⟩] ∧
          settle_reservation w' (refundArgs r.reservation_id) = .ok x := by
  unfold refundBudget at h
  rw [hname] at h
  obtain ⟨found, l₁, l₂, rfl, h₁, h₂⟩ := h.of_bind_ret
  obtain ⟨w, o, rfl, hget⟩ := h₁.of_perform_ret
  obtain rfl : get_reservation w id = found := Except.ok.inj hget
  refine ⟨w, o, l₂, rfl, fun r hr hstatus hstate => ?_⟩
  rw [hr] at h₂
  dsimp only at h₂
  rw [if_pos ⟨hstatus, hstate⟩] at h₂
  obtain ⟨x, l₃, l₄, rfl, h₃, h₄⟩ := h₂.of_bind_ret
  obtain ⟨w', o', rfl, hset⟩ := h₃.of_perform_ret
  obtain ⟨rfl, -⟩ := h₄.of_ret
  exact ⟨w', o', _, rfl, Interleaving.Exec.of_answer hset⟩

variable {r : ActionRow} {reason : String}

omit [Deployment] in
theorem compensateRow_ret {actor : String} (h : Amid exec (compensateRow row a actor reason) l (.ret r)) :
    ∃ obs l₁ l₂ l₃, l = l₁ ++ (l₂ ++ l₃) ∧ Amid exec (a.compensate (_ctx row)) l₁ (.ret obs) ∧
      Amid exec (refundBudget row obs) l₂ (.ret ()) := by
  obtain ⟨answer, l₁, l₂, rfl, h₁, h₂⟩ := h.of_bind_ret
  split at h₂
  · exact nomatch h₂.of_raise.2
  · -- an unconfirmed compensation is recorded, and raises
    obtain ⟨_, _, _, -, -, h₃⟩ := h₂.of_bind_ret
    exact nomatch h₃.of_raise.2
  · exact nomatch h₂.of_raise.2
  · rename_i obs
    obtain ⟨u, l₃, l₄, rfl, h₃, -⟩ := h₂.of_bind_ret
    exact ⟨obs, l₁, l₃, l₄, rfl, h₁.of_attempt, h₃⟩

/-- A compensation that returned has read a completed action, and then done what its
    adapter does. -/
theorem compensate_ret {principal : Principal} {action_id : String}
    (h : Amid exec (compensate principal action_id reason) l (.ret r)) :
    ∃ w o row a l₁ l₂, l = ⟨w, .get_request action_id, o⟩ :: (l₁ ++ l₂) ∧
      get_request w action_id = some row ∧ row.state = .COMPLETED ∧ adapterOf row.capability_id = some a ∧
      Amid exec (compensateRow row a principal.user_id reason) l₂ (.ret r) := by
  obtain ⟨row, l₁, l₂, rfl, h₁, h₂⟩ := h.of_bind_ret
  obtain ⟨found, l₃, l₄, rfl, h₃, h₄⟩ := h₁.of_bind_ret
  obtain ⟨w, o, rfl, hget⟩ := h₃.of_perform_ret
  obtain rfl : get_request w action_id = found := Except.ok.inj hget
  obtain ⟨row', l₅, l₆, rfl, h₅, h₆⟩ := h₄.of_bind_ret
  obtain ⟨rfl, hvisible⟩ := fromExcept_ret h₅
  obtain ⟨_, l₇, l₈, rfl, -, h₈⟩ := h₆.of_bind_ret
  obtain ⟨rfl, hrow⟩ := h₈.of_ret
  cases hrow
  have hread : get_request w action_id = some row := by
    cases hfound : get_request w action_id with
    | none =>
      rw [hfound] at hvisible
      cases hvisible
    | some x =>
      rw [hfound] at hvisible
      unfold visible at hvisible
      dsimp only at hvisible
      split at hvisible
      · cases hvisible
      · cases hvisible
        rfl
  split at h₂
  · exact nomatch h₂.of_raise.2
  · split at h₂
    · exact nomatch h₂.of_raise.2
    · split at h₂
      · exact nomatch h₂.of_raise.2
      · rename_i hstate
        obtain ⟨frozen, l₉, m₁, rfl, -, h₁₀⟩ := h₂.of_bind_ret
        split at h₁₀
        · exact nomatch h₁₀.of_raise.2
        · obtain ⟨d, m₂, m₃, rfl, h₁₁, h₁₂⟩ := h₁₀.of_bind_ret
          obtain ⟨rfl, hd⟩ := fromExcept_ret h₁₁
          obtain ⟨a, m₄, m₅, rfl, h₁₃, h₁₄⟩ := h₁₂.of_bind_ret
          obtain ⟨rfl, ha⟩ := fromExcept_ret h₁₃
          have hadapter : adapterOf row.capability_id = some a := by
            show ((catalog_get row.capability_id).bind _adapter_for).toOption = some a
            rw [hd]
            show (_adapter_for d).toOption = some a
            rw [ha]
            rfl
          refine ⟨w, o, row, a, l₇ ++ l₉, m₅, ?_, hread, not_not.mp hstate, hadapter, h₁₄⟩
          simp

end returned

/-! ## Every run -/

section run

variable {w : World} {steps : List (Stage × Interleaving.Action Plane World (Option Fault))}
  {s : Interleaving.Pool Plane World}

omit [Sha256] [Deployment] in
theorem Proceeded.outside {w w' : World} (h : Outside w w') : Proceeded w w' :=
  .of_eq h.effects h.reservations

theorem run_proceeded (hw : Fresh w) (run : Run (plane direct) w steps s) {m : Stage}
    (hm : m ∈ visited steps s) : Proceeded m.world s.stage.world := by
  refine Interleaving.Discipline.run_later (covers direct) (D := discipline direct)
    (K := fun _ _ => True) (R := fun m m' => Proceeded m.world m'.world)
    (fun m => .refl m.world) (fun _ _ _ => .trans) hw.sound ?_ ?_ run (fun _ _ => trivial) hm
  · intro m i c o _ hpre _
    exact (Pre.change hpre o).proceeded
  · intro m w' hout
    exact .outside hout

theorem run_placed (hw : Fresh w) (run : Run (plane direct) w steps s) : Placed s.stage.world := by
  refine Interleaving.Discipline.run_invariant (covers direct) (D := discipline direct)
    (K := fun _ _ => True) (J := fun m => Placed m.world) hw.sound ?_ ?_ ?_ run (fun _ _ => trivial)
  · intro e he
    rw [hw.effects] at he
    exact absurd he (Table.not_mem_empty e)
  · intro m i c o hplaced _ hpre _
    exact (Pre.change hpre o).placed hplaced
  · intro m w' hplaced hout e he
    replace he : e ∈ w'.action_sandbox_effects := he
    rw [hout.effects] at he
    exact hplaced e he

/-! ### At most once -/

/-- The state of the effect under a key. -/
def stateAt (w : World) (key : String × String × String) : Option String :=
  (w.action_sandbox_effects.find? key).map (·.state)

/-- How often the effect under a key goes from SPENT to REFUNDED. -/
def refunds (key : String × String × String) : List World → Nat
  | w :: w' :: rest =>
    (if stateAt w key = some "SPENT" ∧ stateAt w' key = some "REFUNDED" then 1 else 0) +
      refunds key (w' :: rest)
  | _ => 0

variable {key : String × String × String}

omit [Sha256] [Deployment] in
theorem stateAt_refunded {w w' : World} (h : Proceeded w w') (hstate : stateAt w key = some "REFUNDED") :
    stateAt w' key = some "REFUNDED" := by
  obtain ⟨e, he, hrefunded⟩ := Option.map_eq_some_iff.mp hstate
  obtain ⟨hmem, hkey⟩ := Table.find?_eq_some.mp he
  obtain ⟨e', he', hkey', -, hbecame⟩ := h.effects e hmem
  rw [hrefunded] at hbecame
  have hfind : w'.action_sandbox_effects.find? key = some e' :=
    Table.find?_eq_some.mpr ⟨he', hkey'.trans hkey⟩
  unfold stateAt
  rw [hfind, Option.map_some, hbecame.of_refunded]

variable {l : List World}

omit [Sha256] [Deployment] in
theorem refunds_eq_zero (h : ∀ w ∈ l, stateAt w key = some "REFUNDED") : refunds key l = 0 := by
  induction l with
  | nil => rfl
  | cons w l ih =>
    cases l with
    | nil => rfl
    | cons w' rest =>
      have hw := h w List.mem_cons_self
      unfold refunds
      rw [hw, if_neg (by simp), ih fun x hx => h x (List.mem_cons_of_mem _ hx)]

omit [Sha256] [Deployment] in
theorem refunds_le_one (h : l.Pairwise Proceeded) : refunds key l ≤ 1 := by
  induction l with
  | nil => exact Nat.zero_le _
  | cons w l ih =>
    cases l with
    | nil => exact Nat.zero_le _
    | cons w' rest =>
      obtain ⟨-, hrest⟩ := List.pairwise_cons.mp h
      unfold refunds
      split
      · -- the step that refunds: nothing after it does
        rename_i hmoves
        obtain ⟨hlater, -⟩ := List.pairwise_cons.mp hrest
        have hzero : refunds key (w' :: rest) = 0 := by
          apply refunds_eq_zero
          intro x hx
          rcases List.mem_cons.mp hx with rfl | hx
          · exact hmoves.2
          · exact stateAt_refunded (hlater x hx) hmoves.2
        omega
      · rw [Nat.zero_add]
        exact ih hrest

theorem run_refunds_le_one (hw : Fresh w) (run : Run (plane direct) w steps s)
    (key : String × String × String) : refunds key ((visited steps s).map (·.world)) ≤ 1 := by
  apply refunds_le_one
  rw [List.pairwise_map]
  exact run.pairwise (C := fun _ _ => True) (R := fun m m' => Proceeded m.world m'.world)
    (fun run _ m hm => run_proceeded hw run hm) fun _ _ => trivial

end run

/-! ### What a compensation that returned has done -/

/-- The status of a reservation. -/
def statusOf (w : World) (id : Nat) : Option ReservationStatus :=
  (get_reservation w id).map (·.status)

/-- The key of a spend's effect. -/
def spendKey (row : ActionRow) : String × String × String :=
  (row.tenant_id, Adapter.SandboxAdsSpend.provider, (_ctx row).effect_key)

section returned

variable {l : List Own} {row : ActionRow} {obs : Observation}

omit [Sha256] [Deployment] in
theorem statusOf_later {w w' : World} {id : Nat} (h : Proceeded w w')
    (hstatus : statusOf w id = some .COMMITTED ∨ statusOf w id = some .REFUNDED) :
    (statusOf w' id = some .COMMITTED ∨ statusOf w' id = some .REFUNDED) ∧
      (statusOf w id = some .REFUNDED → statusOf w' id = some .REFUNDED) := by
  obtain ⟨r, hr, hstatus⟩ : ∃ r, get_reservation w id = some r ∧
      (r.status = .COMMITTED ∨ r.status = .REFUNDED) := by
    rcases hstatus with h | h
    · obtain ⟨r, hr, hc⟩ := Option.map_eq_some_iff.mp h
      exact ⟨r, hr, .inl hc⟩
    · obtain ⟨r, hr, hc⟩ := Option.map_eq_some_iff.mp h
      exact ⟨r, hr, .inr hc⟩
  obtain ⟨hmem, hid⟩ := Table.find?_eq_some.mp hr
  obtain ⟨r', hr', hid', hbecomes⟩ := h.reservations r hmem
  have hfind : get_reservation w' id = some r' := Table.find?_eq_some.mpr ⟨hr', hid'.trans hid⟩
  have hnow : statusOf w id = some r.status := by rw [statusOf, hr, Option.map_some]
  have hthen : statusOf w' id = some r'.status := by rw [statusOf, hfind, Option.map_some]
  rw [hnow, hthen]
  rcases hbecomes with heq | hreserved | ⟨hc, hrefunded⟩
  · rw [heq]
    exact ⟨hstatus.imp (congrArg some) (congrArg some), fun h => h⟩
  · rw [hreserved] at hstatus
    rcases hstatus with h | h <;> cases h
  · rw [hc, hrefunded]
    exact ⟨.inr rfl, fun _ => rfl⟩

omit [Deployment] in
/-- **The effect of a spend is refunded** by the read-back of a compensation that
    returned, whether this compensation or another has moved it, and the read-back
    shows it unless the provider's answer is a wrong one. -/
theorem spend_refunded
    (h : Amid exec (Adapter.SandboxAdsSpend.compensate (_ctx row)) l (.ret obs))
    (hpairs : l.Pairwise fun x y => Proceeded (x.after exec) y.world) (hplaced : ∀ x ∈ l, Placed x.world) :
    (∃ x ∈ l, x.after exec = x.world ∧ stateAt x.world (spendKey row) = some "REFUNDED") ∧
      ((∀ x ∈ l, x.call = .fault → x.outside ≠ some .observe_mismatch) → obs.state = some "REFUNDED") := by
  obtain ⟨w, o, e, l₁, l₂, rfl, hfound, hobserve, hset⟩ := adapter_compensate_ret rfl h
  obtain ⟨w₁, fault, w₂, o₂, rfl, hobs⟩ := observe_ret hobserve
  obtain ⟨hfirst, hrest⟩ := List.pairwise_cons.mp hpairs
  obtain ⟨hmem, hkey⟩ := Table.find?_eq_some.mp hfound
  have hread : stateAt w₂ (spendKey row) = some "REFUNDED" := by
    have hprovider : e.provider = Adapter.SandboxAdsSpend.provider := congrArg (·.2.1) hkey
    rcases (hplaced _ List.mem_cons_self).spend hmem hprovider with hspent | hrefunded
    · -- the compensation changes the state, if no other has changed it by then
      obtain ⟨w', o', e', rfl, hchanged⟩ := hset hspent
      obtain ⟨x, hx, hxkey, hxid, hxstate⟩ :=
        (hfirst ⟨w', _, o'⟩ List.mem_cons_self).effects e hmem
      have hafter : stateAt (OwnCall.after exec ⟨w', .sandbox_set_state e.effect_id "REFUNDED" "SPENT", o'⟩)
          (spendKey row) = some "REFUNDED" := by
        have hdone := change_done hchanged
        rw [show OwnCall.after exec ⟨w', .sandbox_set_state e.effect_id "REFUNDED" "SPENT", o'⟩ = e'.2
          from Interleaving.Exec.after_of_ok hchanged]
        have hfind : e'.2.action_sandbox_effects.find? (spendKey row) =
            some (x.changed e.effect_id "REFUNDED" "SPENT" w'.now) :=
          Table.find?_eq_some.mpr ⟨(hdone.effects _).mpr ⟨x, hx, rfl⟩,
            (x.changed_key ..).trans (hxkey.trans hkey)⟩
        rw [stateAt, hfind, Option.map_some]
        rw [hspent] at hxstate
        unfold Effect.changed
        rcases hxstate.of_spent with hx' | hx'
        · rw [if_pos ⟨hxid, hx'⟩]
        · rw [if_neg (by simp [hx']), hx']
      refine stateAt_refunded ?_ hafter
      exact (List.pairwise_cons.mp hrest).1 ⟨w₂, _, o₂⟩
        (List.mem_cons_of_mem _ List.mem_cons_self)
    · have hstate : stateAt w (spendKey row) = some "REFUNDED" := by
        have hfind : w.action_sandbox_effects.find? (spendKey row) = some e := hfound
        rw [stateAt, hfind, Option.map_some, hrefunded]
      refine stateAt_refunded ?_ hstate
      exact hfirst ⟨w₂, _, o₂⟩ (List.mem_append_right _ (List.mem_cons_of_mem _ List.mem_cons_self))
  refine ⟨⟨⟨w₂, .sandbox_get (_ctx row).tenant_id Adapter.SandboxAdsSpend.provider
    (_ctx row).effect_key, o₂⟩, ?_, rfl, hread⟩, fun hfault => ?_⟩
  · exact List.mem_cons_of_mem _ (List.mem_append_right _
      (List.mem_cons_of_mem _ List.mem_cons_self))
  · have hright : fault ≠ some .observe_mismatch :=
      hfault ⟨w₁, .fault, fault⟩ (List.mem_cons_of_mem _ (List.mem_append_right _
        List.mem_cons_self)) rfl
    obtain ⟨e₂, he₂, hrefunded⟩ := Option.map_eq_some_iff.mp hread
    have hget : sandbox_get w₂ (_ctx row).tenant_id Adapter.SandboxAdsSpend.provider
        (_ctx row).effect_key = some e₂ := he₂
    rw [hobs, hget]
    show some (if fault = some .observe_mismatch then "TAMPERED" else e₂.state) = some "REFUNDED"
    rw [if_neg hright, hrefunded]

omit [Deployment] in
/-- **The ledger is refunded** by a compensation that returned and saw the refund,
    when the reservation was committed or refunded before. -/
theorem ledger_refunded {id : Nat} {u : Unit} {w₀ : World} (hname : row.budget_reservation_id = some id)
    (h : Amid exec (refundBudget row obs) l (.ret u)) (hobs : obs.state = some "REFUNDED")
    (hstatus : statusOf w₀ id = some .COMMITTED ∨ statusOf w₀ id = some .REFUNDED)
    (hlater : ∀ x ∈ l, Proceeded w₀ x.world) : ∃ x ∈ l, statusOf (x.after exec) id = some .REFUNDED := by
  obtain ⟨w, o, l', rfl, hsettle⟩ := refundBudget_ret hname h
  have hread := (statusOf_later (hlater _ List.mem_cons_self) hstatus).1
  rcases hread with hcommitted | hrefunded
  · obtain ⟨r, hr, hc⟩ := Option.map_eq_some_iff.mp hcommitted
    obtain ⟨w', o', ⟨r', w''⟩, rfl, hdone⟩ := hsettle r hr hc hobs
    refine ⟨⟨w', _, o'⟩, List.mem_cons_of_mem _ List.mem_cons_self, ?_⟩
    rw [show OwnCall.after exec ⟨w', .settle_reservation (refundArgs r.reservation_id), o'⟩ = w''
      from Interleaving.Exec.after_of_ok hdone]
    obtain ⟨r₀, hd⟩ := settle_done hdone
    obtain ⟨stamp, rfl⟩ := hd.result
    have hid : r₀.reservation_id = id := hd.id.trans (Table.find?_eq_some.mp hr).2
    have hfind : get_reservation w'' id = some (r₀.settled (refundArgs r.reservation_id) stamp) :=
      Table.find?_eq_some.mpr ⟨(hd.reservations _).mpr (.inl rfl), hid⟩
    rw [statusOf, hfind]
    rfl
  · exact ⟨_, List.mem_cons_self, hrefunded⟩

end returned

/-! ## Compensating any number of times -/

/-- **Compensations are idempotent.** In every run of any operations by any number of workers, with
    any faults of the providers and any crashes, the effect under a key goes from SPENT to REFUNDED
    at most once. And whenever a compensation of a spend has returned, the effect is refunded. The
    reservation its action names is REFUNDED too, provided that it was COMMITTED or REFUNDED when
    the compensation read the action, and that the provider did not answer the read-back with
    another state than the effect has. -/
theorem compensation_idempotent {w : World} (hw : Fresh w)
    {steps : List (Stage × Interleaving.Action Plane World (Option Fault))}
    {s : Interleaving.Pool Plane World} (run : Run (plane direct) w steps s) :
    (∀ key, refunds key ((visited steps s).map (·.world)) ≤ 1) ∧
    ∀ i principal action_id reason,
      (started steps)[i]? = some (Operation.program (.compensate principal action_id reason)) →
      s.workers[i]? = some (.ret ()) →
      ∃ w₀ o row, (⟨w₀, .get_request action_id, o⟩ : Own) ∈ ownCalls i steps ∧
        get_request w₀ action_id = some row ∧ row.state = .COMPLETED ∧
        (adapterOf row.capability_id = some .SandboxAdsSpend →
          stateAt s.stage.world (spendKey row) = some "REFUNDED" ∧
          ∀ id, row.budget_reservation_id = some id →
            statusOf w₀ id = some .COMMITTED ∨ statusOf w₀ id = some .REFUNDED →
            (∀ x ∈ ownCalls i steps, x.call = .fault → x.outside ≠ some .observe_mismatch) →
            statusOf s.stage.world id = some .REFUNDED) := by
  refine ⟨run_refunds_le_one hw run, ?_⟩
  intro i principal action_id reason hp hq
  obtain ⟨hpairs, hends⟩ := run.ownCalls_pairwise (R := Proceeded) .refl (fun _ _ _ => .trans)
    (fun before s₁ a s₂ run₁ step =>
      run_proceeded hw (run₁.snoc step) (Interleaving.mem_visited_snoc.mpr (.inl
        (Interleaving.stage_mem_visited before s₁)))) i
  have hplaced : ∀ x ∈ ownCalls i steps, Placed x.world := by
    intro x hx
    obtain ⟨m, hm, hworld⟩ := Interleaving.exists_visited_of_ownCall (s := s) hx
    obtain ⟨before, s', run', rfl, -⟩ := run.visited hm
    rw [← hworld]
    exact run_placed hw run'
  -- the calls of the worker, from its reading of the action on
  obtain ⟨moment, l₁, l₂, hown, -, hbody⟩ := (run.amid.2.2 i _ _ hp hq).of_bind_ret
  obtain ⟨r, hcompensate⟩ := hbody.of_void_ret
  obtain ⟨w₀, o, row, a, l₃, l₄, rfl, hread, hstate, hadapter, hrow⟩ := compensate_ret hcompensate
  obtain ⟨obs, l₅, l₆, l₇, rfl, hprovider, hledger⟩ := compensateRow_ret hrow
  rw [hown] at hpairs hends hplaced ⊢
  have hmem : ∀ x, x ∈ l₅ ∨ x ∈ l₆ → x ∈ l₃ ++ (l₅ ++ (l₆ ++ l₇)) := by
    intro x hx
    rcases hx with hx | hx
    · exact List.mem_append_right _ (List.mem_append_left _ hx)
    · exact List.mem_append_right _ (List.mem_append_right _ (List.mem_append_left _ hx))
  have hall : ∀ x, x ∈ l₅ ∨ x ∈ l₆ →
      x ∈ l₁ ++ ⟨w₀, .get_request action_id, o⟩ :: (l₃ ++ (l₅ ++ (l₆ ++ l₇))) :=
    fun x hx => List.mem_append_right _ (List.mem_cons_of_mem _ (hmem x hx))
  obtain ⟨hlater, hrest⟩ := List.pairwise_cons.mp (List.pairwise_append.mp hpairs).2.1
  refine ⟨w₀, o, row, List.mem_append_right _ List.mem_cons_self, hread, hstate, ?_⟩
  intro hspend
  obtain rfl : Adapter.SandboxAdsSpend = a := Option.some.inj (hspend.symm.trans hadapter)
  have hpairs₅ : l₅.Pairwise fun x y => Proceeded (x.after exec) y.world :=
    (List.pairwise_append.mp (List.pairwise_append.mp hrest).2.1).1
  obtain ⟨⟨x, hx, hsame, hrefunded⟩, hobs⟩ :=
    spend_refunded hprovider hpairs₅ fun x hx => hplaced x (hall x (.inl hx))
  refine ⟨?_, ?_⟩
  · have hend : Proceeded (x.after exec) s.stage.world := (hends x (hall x (.inl hx))).2
    rw [hsame] at hend
    exact stateAt_refunded hend hrefunded
  · intro id hname hstatus hfaults
    obtain ⟨y, hy, hsettled⟩ := ledger_refunded hname hledger
      (hobs fun x hx => hfaults x (hall x (.inl hx))) hstatus
      fun x hx => hlater x (hmem x (.inr hx))
    have hend : Proceeded (y.after exec) s.stage.world := (hends y (hall y (.inr hy))).2
    exact (statusOf_later hend (.inr hsettled)).2 hsettled

/-! ## A spend that is refunded -/

/-- An approver who is not the requester. -/
def bob : Principal := ⟨"bob", "t", "reviewer", ["*"]⟩

/-- The spend is completed by worker 1, and worker 2 compensates it with the provider at `fault`. -/
def spendCompensated (fault : Option Fault) : List Move :=
  spendApproved ++ [dispatchSpend] ++ calls 1 60 ++
  [.start (@Operation.program mixHash fixture
    (.compensate bob (@actionId mixHash "t" "key-0001") "cancelled"))] ++
  List.replicate 30 (.call 2 fault)

omit [Sha256] [Deployment] in
theorem allowed_spendCompensated (fault : Option Fault) :
    ∀ x ∈ spendCompensated fault, x.Allowed (@plane mixHash fixture False) := by
  unfold spendCompensated
  simp only [List.forall_mem_append, List.forall_mem_cons]
  refine ⟨⟨⟨⟨allowed_spendApproved, allowed_dispatchSpend, by simp⟩,
    @allowed_calls mixHash fixture _ _ _⟩, @allowed_start mixHash fixture _ _ id, by simp⟩, ?_⟩
  intro x hx
  rw [List.eq_of_mem_replicate hx]
  trivial

omit [Sha256] [Deployment] in
theorem started_spendCompensated (fault : Option Fault) :
    (started (Interleaving.play (@plane mixHash fixture False)
      (Interleaving.Pool.init spendWorld) (spendCompensated fault)).1)[2]? =
        some (@Operation.program mixHash fixture
          (.compensate bob (@actionId mixHash "t" "key-0001") "cancelled")) := by
  rw [Interleaving.started_play]
  rfl

/-- The worker has returned. -/
def HasReturned : Gateway Unit → Bool
  | .ret _ => true
  | _ => false

omit [Sha256] [Deployment] in
theorem eq_of_hasReturned {p : Option (Gateway Unit)} (h : p.any HasReturned = true) : p = some (.ret ()) := by
  cases p with
  | none => cases h
  | some p =>
    cases p with
    | ret u => rfl
    | raise e => cases h
    | call c next => cases h

/-- The call does not meet a wrong read-back, and if it reads an action, then a spend whose
    reservation is committed. -/
def ReadsSpend (x : Own) : Bool :=
  match x.call with
  | .fault => x.outside ≠ some .observe_mismatch
  | .get_request action_id =>
    (get_request x.world action_id).any fun row =>
      adapterOf row.capability_id = some .SandboxAdsSpend &&
        row.budget_reservation_id.any fun id => statusOf x.world id = some .COMMITTED
  | _ => true

omit [Sha256] [Deployment] in
theorem compensation_idempotent_spend :
    ∃ steps s row id, Run (@plane mixHash fixture False) spendWorld steps s ∧
      row.budget_reservation_id = some id ∧
      stateAt s.stage.world (@spendKey mixHash row) = some "REFUNDED" ∧
      statusOf s.stage.world id = some .REFUNDED := by
  have run := Interleaving.play_run (w := spendWorld) (allowed_spendCompensated none)
  have hreturned := eq_of_hasReturned (p := (Interleaving.play (@plane mixHash fixture False)
    (Interleaving.Pool.init spendWorld) (spendCompensated none)).2.workers[2]?) (by decide +kernel)
  have hreads : ∀ x ∈ ownCalls 2 (Interleaving.play (@plane mixHash fixture False)
      (Interleaving.Pool.init spendWorld) (spendCompensated none)).1,
        @ReadsSpend mixHash fixture x = true := by
    rw [← List.all_eq_true]
    decide +kernel
  obtain ⟨w₀, o, row, hmem, hread, -, hdone⟩ :=
    (@compensation_idempotent mixHash fixture False _ ⟨rfl, rfl, rfl, rfl⟩ _ _ run).2 2 bob
      (@actionId mixHash "t" "key-0001") "cancelled" (started_spendCompensated none) hreturned
  have hrow := hreads _ hmem
  simp only [ReadsSpend, hread, Option.any_some, Bool.and_eq_true, decide_eq_true_eq] at hrow
  obtain ⟨id, hname, hstatus⟩ := (Option.any_eq_true _ _).mp hrow.2
  obtain ⟨heffect, hledger⟩ := hdone hrow.1
  refine ⟨_, _, row, id, run, hname, heffect, hledger id hname (.inl (of_decide_eq_true hstatus)) ?_⟩
  intro x hx hcall
  have hok := hreads x hx
  unfold ReadsSpend at hok
  rw [hcall] at hok
  exact of_decide_eq_true hok

omit [Sha256] [Deployment] in
/-- The provider refunds the spend, and answers the read-back with another state. The compensation
    returns and is recorded as confirmed, and the ledger keeps the money as spent. -/
theorem confirmed_not_refunded :
    ∃ steps s, Run (@plane mixHash fixture False) spendWorld steps s ∧
      (started steps)[2]? = some (@Operation.program mixHash fixture
        (.compensate bob (@actionId mixHash "t" "key-0001") "cancelled")) ∧
      s.workers[2]? = some (.ret ()) ∧
      s.stage.world.action_requests.rows.map (fun r => r.outcome.bind (·.compensation)) =
        [some .CONFIRMED] ∧
      s.stage.world.action_sandbox_effects.rows.map (·.state) = ["REFUNDED"] ∧
      s.stage.world.action_budget_reservations.rows.map (·.status) = [.COMMITTED] := by
  refine ⟨_, _, Interleaving.play_run (allowed_spendCompensated (some .observe_mismatch)),
    started_spendCompensated _, ?_⟩
  refine And.imp_left eq_of_hasReturned ?_
  decide +kernel

end Actions
