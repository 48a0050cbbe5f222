import MissionControl.Actions.Sound

/-! # Rules for the calls of the gateway

What a worker knows after each kind of call it makes, whatever the other workers
have done meanwhile. -/

namespace Actions

open Canonical (Value Sha256)
open Interleaving (Program)
open Interleaving.Discipline (Returns Safe)
open Interleaving.Program (Only)
open Relational (Table)
open Gateway (perform fromExcept)

variable [Sha256] [Deployment]

/-- A call that makes no effect. -/
def Silent (c : Call) : Prop := ∀ a, c ≠ .sandbox_put a

omit [Sha256] [Deployment] in
theorem Call.Minor.silent {c : Call} (h : c.Minor) : Silent c := by
  rintro a rfl
  exact h

/-! ## What a worker knows of a row -/

/-- The worker has read the row, and the reservation it names exists. -/
structure Known (w : World) (row : ActionRow) : Prop where
  seen : Seen w row
  held : ∀ id, row.budget_reservation_id = some id →
    ∃ res ∈ w.action_budget_reservations, res.reservation_id = id

variable {w : World} {row : ActionRow}

variable {w' : World}

omit [Sha256] [Deployment] in
theorem Known.later (h : Known w row) (hw : Later w w') : Known w' row := by
  refine ⟨h.seen.later hw, fun id hid => ?_⟩
  obtain ⟨res, hres, hrid⟩ := h.held id hid
  obtain ⟨res', hres', hf⟩ := hw.reservations res hres
  exact ⟨res', hres', hf.reservation_id.trans hrid⟩

theorem Known.of_mem (hs : Sound w) (h : row ∈ w.action_requests) : Known w row := by
  refine ⟨.of_mem h, fun id hid => ?_⟩
  obtain ⟨res, hres, hrid, -⟩ := (hs.rows row h).named id hid
  exact ⟨res, hres, hrid⟩

omit [Sha256] [Deployment] in
theorem Released.later (h : Released w row) (hk : Known w row) (hw : Later w w') : Released w' row :=
  fun id hid => (h id hid).later hw (hk.held id hid)

/-- The worker read the clock. -/
structure Began (i : Nat) (moment : Moment) (m : Stage) : Prop where
  clock : Did (m.own i) .clock moment
  past : moment ≤ m.world.now

section rules

variable {direct : Prop} {i : Nat} {m m' : Stage} {R : Call → Prop}

theorem Began.went {moment : Moment} (h : Began i moment m)
    (hw : (discipline direct).Went R i m m') : Began i moment m' :=
  ⟨h.clock.mono hw.prefix, Nat.le_trans h.past (Later.now hw.ext)⟩

theorem NoPut.went (h : NoPut (m.own i)) (hw : (discipline direct).Went Silent i m m') : NoPut (m'.own i) := by
  obtain ⟨t, ht, hR⟩ := hw.own
  rw [ht]
  intro x hx
  rcases List.mem_append.mp hx with hx | hx
  · exact h x hx
  · exact hR x hx

variable {row : ActionRow}

theorem Known.went (h : Known m.world row) (hw : (discipline direct).Went R i m m') : Known m'.world row :=
  h.later hw.ext

/-! ## Reading -/

variable {α : Type}

variable {p : Gateway α}

theorem safe_minor (hp : p.Only Call.Minor) :
    (discipline direct).Safe i ((discipline direct).Ends Silent i m fun r m' =>
      ∃ t, p.Trace t r ∧ m'.own i = m.own i ++ t) p m :=
  Safe.only (fun _ _ _ hc => pre_of_minor hc) (fun _ hc => hc.silent) hp

theorem safe_aside (hp : p.Only Call.Minor) :
    (discipline direct).Safe i ((discipline direct).Ends Silent i m (Returns fun _ _ => True)) p m :=
  (safe_minor hp).mono fun r _ h => ⟨h.1, by cases r <;> trivial⟩

theorem read_at {c : Call} (hc : c.Reads) {r : Call.Resp c} (h : (discipline direct).Called i c m m' (.ok r)) :
    ∃ w o, Later m.world w ∧ Sound w ∧ exec c o w = .ok (r, w) ∧ Later w m'.world := by
  obtain ⟨m₁, o, hrely, -, hans, hext⟩ := h.call
  have hafter : exec.after c o m₁.world = m₁.world := Call.after_of_reads hc o _
  have hexec : exec c o m₁.world = .ok (r, exec.after c o m₁.world) :=
    Interleaving.Exec.of_answer hans
  rw [hafter] at hexec
  have hext : Later (exec.after c o m₁.world) m'.world := hext
  rw [hafter] at hext
  exact ⟨m₁.world, o, hrely.ext, hrely.inv, hexec, hext⟩

/-- **A read.** What it returned is so of a sound world between then and now. -/
theorem safe_read {c : Call} (hc : c.Reads) {P : Call.Resp c → Stage → Prop}
    (h : ∀ r m' w o, (discipline direct).Called i c m m' (.ok r) → Later m.world w → Sound w →
      exec c o w = .ok (r, w) → Later w m'.world → P r m') :
    (discipline direct).Safe i ((discipline direct).Ends Silent i m (Returns P)) (perform c) m := by
  refine (Safe.one hc.minor.silent fun m' _ => pre_of_minor hc.minor).mono ?_
  rintro (e | r) m' ⟨hwent, hcalled⟩
  · exact ⟨hwent, trivial⟩
  · obtain ⟨w, o, h₁, h₂, h₃, h₄⟩ := read_at hc hcalled
    exact ⟨hwent, h r m' w o hcalled h₁ h₂ h₃ h₄⟩

theorem safe_get_request (action_id : String) :
    (discipline direct).Safe i ((discipline direct).Ends Silent i m (Returns fun found m' =>
      ∀ row, found = some row → Known m'.world row)) (perform (.get_request action_id)) m := by
  refine safe_read (c := .get_request action_id) trivial fun found m' w o _ _ hs hexec hw row hrow => ?_
  subst hrow
  have hfound : get_request w action_id = some row := by simpa [exec] using hexec
  exact (Known.of_mem hs (Table.mem_of_find? hfound)).later hw

theorem safe_fromExcept {r : Except ActionError α} {P : α → Stage → Prop}
    (h : ∀ a m', r = .ok a → (discipline direct).Rely i m m' → P a m') :
    (discipline direct).Safe i ((discipline direct).Ends R i m (Returns P)) (fromExcept r) m := by
  cases r with
  | ok a => exact Safe.done fun m' hm => h a m' rfl hm
  | error e => exact Safe.fails

/-! ## Moving -/

/-- What a worker knows after a move. -/
structure Moved (i : Nat) (m m' : Stage) (row r : ActionRow) (a : TransitionArgs) : Prop where
  own : m'.own i = m.own i ++ [⟨.transition a, .ok r⟩]
  result : r = row.moved a.to_state a.updates (a.now.getD 0)
  known : Known m'.world r

/-- **A move.** -/
theorem safe_move {to_state : ActionState} {actor reason : String} {evidence : List (String × Value)}
    {u : Updates} {now : Moment} (hk : Known m.world row)
    (hp : ∀ m', (discipline direct).Rely i m m' → Purpose (m'.own i) m'.world row to_state u)
    (hc : ∀ m', (discipline direct).Rely i m m' → Columns (m'.own i) row to_state u) :
    (discipline direct).Safe i ((discipline direct).Ends Silent i m (Returns fun r m' =>
      Moved i m m' row r (moveArgs row to_state actor reason evidence u now)))
      (_move row to_state actor reason evidence u now) m := by
  refine Safe.mono (Safe.one (R := Silent) (fun _ h => nomatch h) fun m' hm =>
    ⟨row, to_state, actor, reason, evidence, u, now, rfl, hk.seen.later hm.ext, hp m' hm, hc m' hm⟩) ?_
  rintro (e | r) m' ⟨hwent, hcalled⟩
  · exact ⟨hwent, trivial⟩
  · refine ⟨hwent, hcalled.own, ?_, ?_⟩
    all_goals
      obtain ⟨m₁, o, hrely, hpre, hans, hext⟩ := hcalled.call
      have hexec := Interleaving.Exec.of_answer hans
      have hd := transition_move (hk.seen.later hrely.ext) hexec
    · exact hd.result
    · have hs : Sound (exec.after _ o m₁.world) := (discipline direct).inv_call o hrely.inv hpre
      exact (Known.of_mem hs ((hd.requests r).mpr (.inl rfl))).later hext

/-! ## Settling -/

theorem safe_settle_reservation {a : SettleArgs}
    (hp : ∀ m', (discipline direct).Rely i m m' → SettlePurpose m'.world a) :
    (discipline direct).Safe i ((discipline direct).Ends Silent i m (Returns fun _ m' =>
      a.status ≠ .RESERVED → NotReserved m'.world a.reservation_id)) (perform (.settle_reservation a)) m := by
  refine Safe.mono (Safe.one (R := Silent) (fun _ h => nomatch h) fun m' hm => hp m' hm) ?_
  rintro (e | r) m' ⟨hwent, hcalled⟩
  · exact ⟨hwent, trivial⟩
  · refine ⟨hwent, fun hne => ?_⟩
    obtain ⟨m₁, o, hrely, hpre, hans, hext⟩ := hcalled.call
    obtain ⟨r₀, hd⟩ := settle_done (Interleaving.Exec.of_answer hans)
    obtain ⟨stamp, hr⟩ := hd.result
    have hid : r.reservation_id = a.reservation_id := by
      rw [hr]
      exact hd.id
    refine NotReserved.later ?_ hext ⟨r, (hd.reservations r).mpr (.inl rfl), hid⟩
    intro x hx hxid
    rcases (hd.reservations x).mp hx with rfl | ⟨-, hne'⟩
    · rw [hr]
      exact hne
    · exact absurd hxid hne'

/-- **Releasing the budget of a row** leaves nothing reserved for it. -/
theorem safe_release {status : ReservationStatus} (hk : Known m.world row)
    (hstatus : status ∈ [.RELEASED, .EXPIRED]) :
    (discipline direct).Safe i ((discipline direct).Ends Silent i m (Returns fun _ m' =>
      Released m'.world row)) (_release_budget row status) m := by
  have hne : status ≠ .RESERVED := by
    rintro rfl
    simp at hstatus
  unfold _release_budget
  cases hname : row.budget_reservation_id with
  | none => exact Safe.done fun _ _ id hid => by rw [hname] at hid; cases hid
  | some id =>
    refine Safe.seq (P := fun found m' => ∃ r, found = some r ∧ r.reservation_id = id ∧
        (r.status ≠ .RESERVED → NotReserved m'.world id))
      (safe_read (c := .get_reservation id) trivial ?_) ?_
    · intro found m' w o _ hw hs hexec hw'
      have hfound : get_reservation w id = found := by simpa [exec] using hexec
      obtain ⟨res, hres, hrid⟩ := (hk.later hw).held id hname
      have hsome : get_reservation w id = some res := Table.find?_eq_some.mpr ⟨hres, hrid⟩
      rw [hsome] at hfound
      subst hfound
      refine ⟨res, rfl, hrid, fun hnot => NotReserved.later ?_ hw' ⟨res, hres, hrid⟩⟩
      intro x hx hxid
      rw [Table.eq_of_key hx hres (hxid.trans hrid.symm)]
      exact hnot
    · rintro found m' hwent ⟨r, rfl, rfl, hnot⟩
      have hreleased : ∀ m'' : Stage, NotReserved m''.world r.reservation_id → Released m''.world row := by
        intro m'' h id hid
        rw [hname] at hid
        cases hid
        exact h
      dsimp only
      split
      · refine Safe.seq (safe_settle_reservation fun m'' _ => .release hstatus rfl rfl) fun _ m'' hw' hs => ?_
        exact Safe.done fun m₃ hm₃ =>
          (hreleased m'' (hs hne)).later ((hk.went hwent).went hw') hm₃.ext
      · rename_i hst
        exact Safe.done fun m₃ hm₃ => (hreleased m' (hnot hst)).later (hk.went hwent) hm₃.ext

end rules

end Actions
