import MissionControl.Actions.Refinement

/-! # Who owns a reservation

A dispatch holds money in one transaction and writes the reservation into its
action in another. Between the two the money is held by nobody the database
knows of; a dispatch that loses the second transaction, or never makes it, leaves
it so. Everywhere else the two tables agree. -/

namespace Actions

open Canonical (Sha256 mixHash)
open Interleaving (Run visited)
open Relational (Table)

variable [Sha256] [Deployment]

/-- Every reservation that holds money is the one its action names, and no action
    has two. -/
structure Owned (w : World) : Prop where
  named : ∀ res ∈ w.action_budget_reservations, res.status = .RESERVED →
    ∃ row ∈ w.action_requests, row.action_id = res.action_id ∧
      row.budget_reservation_id = some res.reservation_id
  single : ∀ res ∈ w.action_budget_reservations, ∀ res' ∈ w.action_budget_reservations,
    res.status = .RESERVED → res'.status = .RESERVED → res.action_id = res'.action_id →
      res.reservation_id = res'.reservation_id

instance (w : World) : Decidable (Owned w) :=
  decidable_of_iff
    ((∀ res ∈ w.action_budget_reservations.rows, res.status = .RESERVED →
      ∃ row ∈ w.action_requests.rows, row.action_id = res.action_id ∧
        row.budget_reservation_id = some res.reservation_id) ∧
    (∀ res ∈ w.action_budget_reservations.rows, ∀ res' ∈ w.action_budget_reservations.rows,
      res.status = .RESERVED → res'.status = .RESERVED → res.action_id = res'.action_id →
        res.reservation_id = res'.reservation_id))
    ⟨fun h => ⟨h.1, h.2⟩, fun h => ⟨h.named, h.single⟩⟩

/-! ## What the workers have done about a reservation -/

/-- Worker `i` made the reservation. -/
def Made (m : Stage) (i : Nat) (res : Reservation) : Prop :=
  ∃ a, (⟨i, .reserve_budget a, .ok res⟩ : Interleaving.Event Plane) ∈ m.history

/-- Worker `i` wrote the reservation into its action. -/
def Adopted (m : Stage) (i : Nat) (reservation_id : Nat) : Prop :=
  ∃ a r, (⟨i, .transition a, .ok r⟩ : Interleaving.Event Plane) ∈ m.history ∧
    a.updates.budget_reservation_id = some (some reservation_id)

/-- **Nobody stands between reserving money and writing the reservation into its
    action**: whoever made a reservation that still holds money has had its own
    RESERVED move return. -/
def NoneStranded (m : Stage) : Prop :=
  ∀ i res, Made m i res → ∀ r ∈ m.world.action_budget_reservations,
    r.reservation_id = res.reservation_id → r.status = .RESERVED → Adopted m i res.reservation_id

/-- What relates the reservations, the rows and what the workers did. -/
structure Ledger (m : Stage) : Prop where
  made : ∀ r ∈ m.world.action_budget_reservations, ∃ i res, Made m i res ∧
    res.reservation_id = r.reservation_id
  known : ∀ i res, Made m i res → ∃ r ∈ m.world.action_budget_reservations,
    r.reservation_id = res.reservation_id
  once : ∀ i j res res', Made m i res → Made m j res' →
    res.reservation_id = res'.reservation_id → i = j
  own : ∀ i id, Adopted m i id → ∃ res, Made m i res ∧ res.reservation_id = id
  named : ∀ row ∈ m.world.action_requests, ∀ id, row.budget_reservation_id = some id →
    ∃ i, Adopted m i id
  kept : ∀ i id, Adopted m i id → ∀ r ∈ m.world.action_budget_reservations,
    r.reservation_id = id → r.status = .RESERVED → ∃ row ∈ m.world.action_requests,
      row.action_id = r.action_id ∧ row.budget_reservation_id = some id

omit [Sha256] [Deployment] in
/-- **Ownership** is exactly that nobody stands in between. -/
theorem Ledger.owned_iff {m : Stage} (h : Ledger m) : Owned m.world ↔ NoneStranded m := by
  constructor
  · intro howned i res hmade r hr hid hst
    obtain ⟨row, hrow, -, hname⟩ := howned.named r hr hst
    obtain ⟨j, hadopted⟩ := h.named row hrow _ hname
    obtain ⟨res', hmade', hid'⟩ := h.own j _ hadopted
    have hij : i = j := h.once i j res res' hmade hmade' (hid.symm.trans hid'.symm)
    subst hij
    rw [← hid]
    exact hadopted
  · intro hnone
    have hnamed : ∀ r ∈ m.world.action_budget_reservations, r.status = .RESERVED →
        ∃ row ∈ m.world.action_requests, row.action_id = r.action_id ∧
          row.budget_reservation_id = some r.reservation_id := by
      intro r hr hst
      obtain ⟨i, res, hmade, hid⟩ := h.made r hr
      have hadopted := hnone i res hmade r hr hid.symm hst
      rw [hid] at hadopted
      exact h.kept i _ hadopted r hr rfl hst
    refine ⟨hnamed, fun r hr r' hr' hst hst' hact => ?_⟩
    obtain ⟨row, hrow, hid, hname⟩ := hnamed r hr hst
    obtain ⟨row', hrow', hid', hname'⟩ := hnamed r' hr' hst'
    have hsame : row = row' := Table.eq_of_key hrow hrow' (by rw [hid, hid', hact])
    rw [hsame, hname'] at hname
    exact (Option.some.inj hname).symm

/-! ## One call -/

/-- The event is neither a reservation nor a naming of one. -/
def Aside (e : Interleaving.Event Plane) : Prop :=
  (∀ i a res, e ≠ ⟨i, .reserve_budget a, .ok res⟩) ∧
    ∀ i a r id, e = ⟨i, .transition a, .ok r⟩ → a.updates.budget_reservation_id ≠ some (some id)

/-- The calls that may make a reservation or name one. -/
def Call.Claims : Call → Prop
  | .reserve_budget _ | .transition _ => True
  | _ => False

omit [Sha256] [Deployment] in
theorem aside_of_call {i : Nat} {c : Call} {ans : Plane.Answer c} (h : ¬ c.Claims) : Aside ⟨i, c, ans⟩ := by
  refine ⟨fun j a res heq => ?_, fun j a r id heq => ?_⟩
  · cases heq
    exact h trivial
  · cases heq
    exact absurd trivial h

omit [Sha256] [Deployment] in
theorem aside_of_move {i : Nat} {a : TransitionArgs} {ans : Plane.Answer (.transition a)}
    (h : ∀ id, a.updates.budget_reservation_id ≠ some (some id)) : Aside ⟨i, .transition a, ans⟩ := by
  refine ⟨fun j b res heq => ?_, fun j b r id heq => ?_⟩
  · cases heq
  · cases heq
    exact h id

section step

variable {m m' : Stage} {e : Interleaving.Event Plane}

section
omit [Sha256] [Deployment]

theorem made_aside (he : Aside e) (hist : m'.history = m.history ++ [e]) (i : Nat)
    (res : Reservation) : Made m' i res ↔ Made m i res := by
  unfold Made
  rw [hist]
  constructor
  · rintro ⟨a, h⟩
    rcases List.mem_append.mp h with h | h
    · exact ⟨a, h⟩
    · exact absurd (List.mem_singleton.mp h).symm (he.1 i a res)
  · rintro ⟨a, h⟩
    exact ⟨a, List.mem_append_left _ h⟩

theorem adopted_aside (he : Aside e) (hist : m'.history = m.history ++ [e]) (i id : Nat) :
    Adopted m' i id ↔ Adopted m i id := by
  unfold Adopted
  rw [hist]
  constructor
  · rintro ⟨a, r, h, hid⟩
    rcases List.mem_append.mp h with h | h
    · exact ⟨a, r, h, hid⟩
    · exact absurd hid (he.2 i a r id (List.mem_singleton.mp h).symm)
  · rintro ⟨a, r, h, hid⟩
    exact ⟨a, r, List.mem_append_left _ h, hid⟩

/-- A step after which the same reservations are there, none of them RESERVED
    again, and the actions name the same ones as far as these are RESERVED. -/
theorem Ledger.aside (h : Ledger m) (he : Aside e) (hist : m'.history = m.history ++ [e])
    (hback : ∀ r' ∈ m'.world.action_budget_reservations,
      ∃ r ∈ m.world.action_budget_reservations, r.reservation_id = r'.reservation_id ∧
        r.action_id = r'.action_id ∧ (r'.status = .RESERVED → r.status = .RESERVED))
    (hforth : ∀ r ∈ m.world.action_budget_reservations,
      ∃ r' ∈ m'.world.action_budget_reservations, r'.reservation_id = r.reservation_id)
    (hnamed : ∀ row' ∈ m'.world.action_requests, ∀ id, row'.budget_reservation_id = some id →
      ∃ row ∈ m.world.action_requests, row.budget_reservation_id = some id)
    (hkept : ∀ row ∈ m.world.action_requests, ∀ id, row.budget_reservation_id = some id →
      ¬ NotReserved m.world id → ∃ row' ∈ m'.world.action_requests,
        row'.action_id = row.action_id ∧ row'.budget_reservation_id = some id) : Ledger m' := by
  have hmade := made_aside he hist
  have hadopted := adopted_aside he hist
  constructor
  · intro r' hr'
    obtain ⟨r, hr, hid, -⟩ := hback r' hr'
    obtain ⟨i, res, hi, hres⟩ := h.made r hr
    exact ⟨i, res, (hmade i res).mpr hi, hres.trans hid⟩
  · intro i res hi
    obtain ⟨r, hr, hid⟩ := h.known i res ((hmade i res).mp hi)
    obtain ⟨r', hr', hid'⟩ := hforth r hr
    exact ⟨r', hr', hid'.trans hid⟩
  · intro i j res res' hi hj
    exact h.once i j res res' ((hmade i res).mp hi) ((hmade j res').mp hj)
  · intro i id hi
    obtain ⟨res, hres, hid⟩ := h.own i id ((hadopted i id).mp hi)
    exact ⟨res, (hmade i res).mpr hres, hid⟩
  · intro row' hrow' id hname
    obtain ⟨row, hrow, hname'⟩ := hnamed row' hrow' id hname
    obtain ⟨i, hi⟩ := h.named row hrow id hname'
    exact ⟨i, (hadopted i id).mpr hi⟩
  · intro i id hi r' hr' hid hst
    obtain ⟨r, hr, hrid, hact, hres⟩ := hback r' hr'
    obtain ⟨row, hrow, hrowid, hname⟩ :=
      h.kept i id ((hadopted i id).mp hi) r hr (hrid.trans hid) (hres hst)
    obtain ⟨row', hrow', hrowid', hname'⟩ := hkept row hrow id hname
      fun hnot => hnot r hr (hrid.trans hid) (hres hst)
    exact ⟨row', hrow', by rw [hrowid', hrowid, hact], hname'⟩

end

end step

section call

variable {direct : Prop} {m m' : Stage} {i : Nat}

omit [Sha256] [Deployment] in
/-- A reservation: the sweep, and one new row that nothing names yet. -/
theorem Ledger.reserve {a : ReserveArgs} {r : Reservation} (h : Ledger m)
    (hd : ReserveDone m.world m'.world a r)
    (hist : m'.history = m.history ++ [⟨i, .reserve_budget a, .ok r⟩]) : Ledger m' := by
  have hreq : m'.world.action_requests = m.world.action_requests := by rw [hd.rest]
  have hmade : ∀ j res, Made m' j res ↔ Made m j res ∨ (j = i ∧ res = r) := by
    intro j res
    unfold Made
    rw [hist]
    constructor
    · rintro ⟨b, hb⟩
      rcases List.mem_append.mp hb with hb | hb
      · exact .inl ⟨b, hb⟩
      · cases List.mem_singleton.mp hb
        exact .inr ⟨rfl, rfl⟩
    · rintro (⟨b, hb⟩ | ⟨rfl, rfl⟩)
      · exact ⟨b, List.mem_append_left _ hb⟩
      · exact ⟨a, List.mem_append_right _ (List.mem_singleton_self _)⟩
  have hadopted : ∀ j id, Adopted m' j id ↔ Adopted m j id := by
    intro j id
    unfold Adopted
    rw [hist]
    constructor
    · rintro ⟨b, x, hb, hid⟩
      rcases List.mem_append.mp hb with hb | hb
      · exact ⟨b, x, hb, hid⟩
      · cases List.mem_singleton.mp hb
    · rintro ⟨b, x, hb, hid⟩
      exact ⟨b, x, List.mem_append_left _ hb, hid⟩
  -- a reservation that was made before has another id
  have hother : ∀ j res, Made m j res → res.reservation_id ≠ r.reservation_id := by
    intro j res hj hid
    obtain ⟨x, hx, hxid⟩ := h.known j res hj
    exact hd.fresh x hx (hxid.trans hid)
  constructor
  · intro x hx
    rcases (hd.reservations x).mp hx with ⟨x₀, hx₀, rfl⟩ | rfl
    · obtain ⟨j, res, hj, hid⟩ := h.made x₀ hx₀
      exact ⟨j, res, (hmade j res).mpr (.inl hj), hid.trans (Reservation.swept_id ..).symm⟩
    · exact ⟨i, x, (hmade i x).mpr (.inr ⟨rfl, rfl⟩), rfl⟩
  · intro j res hj
    rcases (hmade j res).mp hj with hj | ⟨rfl, rfl⟩
    · obtain ⟨x, hx, hid⟩ := h.known j res hj
      exact ⟨_, (hd.reservations _).mpr (.inl ⟨x, hx, rfl⟩), (Reservation.swept_id ..).trans hid⟩
    · exact ⟨res, (hd.reservations res).mpr (.inr rfl), rfl⟩
  · intro j k res res' hj hk hid
    rcases (hmade j res).mp hj with hj | ⟨rfl, rfl⟩ <;>
      rcases (hmade k res').mp hk with hk | ⟨rfl, rfl⟩
    · exact h.once j k res res' hj hk hid
    · exact absurd hid (hother j res hj)
    · exact absurd hid.symm (hother k res' hk)
    · rfl
  · intro j id hj
    obtain ⟨res, hres, hid⟩ := h.own j id ((hadopted j id).mp hj)
    exact ⟨res, (hmade j res).mpr (.inl hres), hid⟩
  · intro row hrow id hname
    rw [hreq] at hrow
    obtain ⟨j, hj⟩ := h.named row hrow id hname
    exact ⟨j, (hadopted j id).mpr hj⟩
  · intro j id hj x hx hid hst
    have hj := (hadopted j id).mp hj
    rw [hreq]
    rcases (hd.reservations x).mp hx with ⟨x₀, hx₀, rfl⟩ | rfl
    · obtain ⟨-, -, -, hact, -⟩ := swept_facts a.tenant_id a.now x₀
      rw [Reservation.swept_id] at hid
      rw [hact]
      exact h.kept j id hj x₀ hx₀ hid ((x₀.follows_swept _ _).reserved hst)
    · obtain ⟨res, hres, hrid⟩ := h.own j id hj
      exact absurd (hrid.trans hid.symm) (hother j res hres)

variable {to_state : ActionState} {row : ActionRow} {u : Updates}

/-- The move that names a reservation, by the worker that made it. -/
theorem Ledger.adopt {r : ActionRow} {actor reason : String} {evidence : List (String × Canonical.Value)}
    {now : Moment} {id : Nat} (h : Ledger m) (hs : Sound m.world)
    (hd : MoveDone m.world m'.world row r to_state u now) (hp : Purpose (m.own i) m.world row to_state u)
    (hu : u.budget_reservation_id = some (some id)) (hist : m'.history = m.history ++
      [⟨i, .transition (moveArgs row to_state actor reason evidence u now), .ok r⟩]) : Ledger m' := by
  have hres : m'.world.action_budget_reservations = m.world.action_budget_reservations := by
    rw [hd.rest]
  have hmade : ∀ j res, Made m' j res ↔ Made m j res := by
    intro j res
    unfold Made
    rw [hist]
    constructor
    · rintro ⟨b, hb⟩
      rcases List.mem_append.mp hb with hb | hb
      · exact ⟨b, hb⟩
      · cases List.mem_singleton.mp hb
    · rintro ⟨b, hb⟩
      exact ⟨b, List.mem_append_left _ hb⟩
  have hadopted : ∀ j k, Adopted m' j k ↔ Adopted m j k ∨ (j = i ∧ k = id) := by
    intro j k
    unfold Adopted
    rw [hist]
    constructor
    · rintro ⟨b, x, hb, hk⟩
      rcases List.mem_append.mp hb with hb | hb
      · exact .inl ⟨b, x, hb, hk⟩
      · cases List.mem_singleton.mp hb
        rw [show (moveArgs row to_state actor reason evidence u now).updates = u from rfl, hu] at hk
        cases hk
        exact .inr ⟨rfl, rfl⟩
    · rintro (⟨b, x, hb, hk⟩ | ⟨rfl, rfl⟩)
      · exact ⟨b, x, List.mem_append_left _ hb, hk⟩
      · exact ⟨_, r, List.mem_append_right _ (List.mem_singleton_self _), hu⟩
  have hrow : r.action_id = row.action_id ∧ r.budget_reservation_id = some id := by
    rw [hd.result]
    refine ⟨rfl, ?_⟩
    show u.budget_reservation_id.getD _ = some id
    rw [hu]
    rfl
  -- only a dispatch names a reservation: its own, on a row that names none yet
  obtain ⟨res, hmake, hid, x, hx, hxid, hxact, hunnamed⟩ : ∃ res, Made m i res ∧
      res.reservation_id = id ∧ ∃ x ∈ m.world.action_budget_reservations,
        x.reservation_id = id ∧ x.action_id = row.action_id ∧ row.budget_reservation_id = none := by
    cases hp with
    | plain _ _ _ hid => rw [hid] at hu; cases hu
    | retry _ _ hid => rw [hid] at hu; cases hu
    | @reserve _ _ _ res x hfrom _ hdid hmem hxid hfor hid =>
      rw [hid] at hu
      cases hu
      refine ⟨res, ⟨_, Interleaving.Stage.mem_own.mp hdid⟩, rfl, x, hmem, hxid, hfor.action_id, ?_⟩
      apply (hs.rows row hd.mem).unnamed
      rw [hfrom]
      decide
    | lease _ _ _ _ hid => rw [hid] at hu; cases hu
    | failed _ _ _ hid => rcases hid with hid | ⟨hid, -⟩ <;> rw [hid] at hu <;> cases hu
    | not_applied _ _ hid => rw [hid] at hu; cases hu
  constructor
  · rw [hres]
    intro y hy
    obtain ⟨j, res, hj, hrid⟩ := h.made y hy
    exact ⟨j, res, (hmade j res).mpr hj, hrid⟩
  · rw [hres]
    intro j res hj
    exact h.known j res ((hmade j res).mp hj)
  · intro j k res res' hj hk
    exact h.once j k res res' ((hmade j res).mp hj) ((hmade k res').mp hk)
  · intro j k hj
    rcases (hadopted j k).mp hj with hj | ⟨rfl, rfl⟩
    · obtain ⟨res, hres, hrid⟩ := h.own j k hj
      exact ⟨res, (hmade j res).mpr hres, hrid⟩
    · exact ⟨res, (hmade j res).mpr hmake, hid⟩
  · intro y hy k hname
    rcases (hd.requests y).mp hy with rfl | ⟨hy, -⟩
    · rw [hrow.2] at hname
      cases hname
      exact ⟨i, (hadopted i id).mpr (.inr ⟨rfl, rfl⟩)⟩
    · obtain ⟨j, hj⟩ := h.named y hy k hname
      exact ⟨j, (hadopted j k).mpr (.inl hj)⟩
  · rw [hres]
    intro j k hj y hy hyid hst
    rcases (hadopted j k).mp hj with hj | ⟨rfl, rfl⟩
    · obtain ⟨z, hz, hzid, hname⟩ := h.kept j k hj y hy hyid hst
      refine ⟨z, (hd.requests z).mpr (.inr ⟨hz, fun hsame => ?_⟩), hzid, hname⟩
      have hsame : z = row := Table.eq_of_key hz hd.mem hsame
      rw [hsame, hunnamed] at hname
      cases hname
    · have hsame : y = x := Table.eq_of_key hy hx (hyid.trans hxid.symm)
      subst hsame
      exact ⟨r, (hd.requests r).mpr (.inl rfl), hrow.1.trans hxact.symm, hrow.2⟩

theorem Purpose.released {t : Trace} {w : World} (h : Purpose t w row to_state u) (hrow : row.Sound w)
    (hu : u.budget_reservation_id = some none) : Released w row := by
  have hnone : row.budget_reservation_id = none → Released w row := by
    intro hn id hid
    rw [hn] at hid
    cases hid
  cases h with
  | plain _ _ _ hid => rw [hid] at hu; cases hu
  | retry hfrom heligible => exact hnone (hrow.retryable hfrom heligible)
  | reserve _ _ _ _ _ _ hid => rw [hid] at hu; cases hu
  | lease _ _ _ _ hid => rw [hid] at hu; cases hu
  | failed _ _ hreleased => exact hreleased
  | not_applied _ hreleased => exact hreleased

/-- Any other move. -/
theorem Ledger.move {r : ActionRow} {now : Moment} {t : Trace} {e : Interleaving.Event Plane} (h : Ledger m)
    (hs : Sound m.world) (hd : MoveDone m.world m'.world row r to_state u now)
    (hp : Purpose t m.world row to_state u) (hu : ∀ id, u.budget_reservation_id ≠ some (some id)) (he : Aside e)
    (hist : m'.history = m.history ++ [e]) : Ledger m' := by
  have hres : m'.world.action_budget_reservations = m.world.action_budget_reservations := by
    rw [hd.rest]
  have hname : r.budget_reservation_id = u.budget_reservation_id.getD row.budget_reservation_id := by
    rw [hd.result]
    rfl
  have hid : r.action_id = row.action_id := by
    rw [hd.result]
    rfl
  refine h.aside he hist ?_ ?_ ?_ ?_
  · rw [hres]
    exact fun x hx => ⟨x, hx, rfl, rfl, fun hst => hst⟩
  · rw [hres]
    exact fun x hx => ⟨x, hx, rfl⟩
  · intro x hx id hxid
    rcases (hd.requests x).mp hx with rfl | ⟨hx, -⟩
    · cases hb : u.budget_reservation_id with
      | none =>
        rw [hname, hb] at hxid
        exact ⟨row, hd.mem, hxid⟩
      | some b =>
        cases b with
        | none =>
          rw [hname, hb] at hxid
          cases hxid
        | some k => exact absurd hb (hu k)
    · exact ⟨x, hx, hxid⟩
  · intro x hx id hxid hheld
    by_cases hsame : x.action_id = row.action_id
    · have hsame : x = row := Table.eq_of_key hx hd.mem hsame
      subst hsame
      refine ⟨r, (hd.requests r).mpr (.inl rfl), hid, ?_⟩
      cases hb : u.budget_reservation_id with
      | none =>
        rw [hname, hb]
        exact hxid
      | some b =>
        cases b with
        | none => exact absurd (hp.released (hs.rows x hx) hb id hxid) hheld
        | some k => exact absurd hb (hu k)
    · exact ⟨x, (hd.requests x).mpr (.inr ⟨hx, hsame⟩), rfl, hxid⟩

/-- **Every disciplined call keeps the ledger.** -/
theorem Ledger.step {c : Call} {ans : Plane.Answer c} (h : Ledger m) (hs : Sound m.world)
    (hc : Change direct i m m'.world c ans) (hist : m'.history = m.history ++ [⟨i, c, ans⟩]) : Ledger m' := by
  have hall : m'.world.action_budget_reservations = m.world.action_budget_reservations →
      (∀ x ∈ m'.world.action_budget_reservations,
        ∃ r ∈ m.world.action_budget_reservations, r.reservation_id = x.reservation_id ∧
          r.action_id = x.action_id ∧ (x.status = .RESERVED → r.status = .RESERVED)) ∧
      (∀ r ∈ m.world.action_budget_reservations,
        ∃ x ∈ m'.world.action_budget_reservations, x.reservation_id = r.reservation_id) := by
    intro hres
    rw [hres]
    exact ⟨fun x hx => ⟨x, hx, rfl, rfl, fun hst => hst⟩, fun x hx => ⟨x, hx, rfl⟩⟩
  have hrows : m'.world.action_requests = m.world.action_requests →
      (∀ x ∈ m'.world.action_requests, ∀ id, x.budget_reservation_id = some id →
        ∃ row ∈ m.world.action_requests, row.budget_reservation_id = some id) ∧
      (∀ row ∈ m.world.action_requests, ∀ id, row.budget_reservation_id = some id →
        ¬ NotReserved m.world id → ∃ x ∈ m'.world.action_requests,
          x.action_id = row.action_id ∧ x.budget_reservation_id = some id) := by
    intro hreq
    rw [hreq]
    exact ⟨fun x hx id hid => ⟨x, hx, hid⟩, fun x hx id hid _ => ⟨x, hx, rfl, hid⟩⟩
  cases hc with
  | quiet quiet rest =>
    have hres := hall (by rw [rest])
    have hreq := hrows (by rw [rest])
    refine h.aside ⟨?_, ?_⟩ hist hres.1 hres.2 hreq.1 hreq.2
    · intro j a res heq
      cases heq
      exact quiet trivial
    · intro j a r id heq
      cases heq
      exact absurd trivial quiet
  | @insert row _ _ _ done proposed =>
    have hres := hall (by rw [done.rest])
    refine h.aside (aside_of_call id) hist
      hres.1 hres.2 ?_ ?_
    · intro x hx id hid
      rcases (done.requests x).mp hx with hx | rfl
      · exact ⟨x, hx, hid⟩
      · rw [proposed.unnamed] at hid
        cases hid
    · exact fun x hx id hid _ => ⟨x, (done.requests x).mpr (.inl hx), rfl, hid⟩
  | @move row r to_state _ _ _ u now done purpose =>
    by_cases hu : ∃ id, u.budget_reservation_id = some (some id)
    · obtain ⟨id, hu⟩ := hu
      exact h.adopt hs done purpose hu hist
    · have hu : ∀ id, u.budget_reservation_id ≠ some (some id) := fun id hid => hu ⟨id, hid⟩
      exact h.move hs done purpose hu (aside_of_move hu) hist
  | @annotate row r a done state =>
    have hres := hall (by rw [done.rest])
    obtain ⟨outcome, stamp, rfl⟩ := done.result
    refine h.aside (aside_of_call id) hist
      hres.1 hres.2 ?_ ?_
    · intro x hx id hid
      rcases (done.requests x).mp hx with rfl | ⟨hx, -⟩
      · exact ⟨row, done.mem, hid⟩
      · exact ⟨x, hx, hid⟩
    · intro x hx id hid _
      by_cases hsame : x.action_id = row.action_id
      · have hsame : x = row := Table.eq_of_key hx done.mem hsame
        subst hsame
        exact ⟨_, (done.requests _).mpr (.inl rfl), rfl, hid⟩
      · exact ⟨x, (done.requests x).mpr (.inr ⟨hx, hsame⟩), rfl, hid⟩
  | reserve done => exact h.reserve done hist
  | @settle a r₀ r done purpose =>
    have hreq := hrows (by rw [done.rest])
    obtain ⟨stamp, rfl⟩ := done.result
    refine h.aside (aside_of_call id) hist
      ?_ ?_ hreq.1 hreq.2
    · intro x hx
      rcases (done.reservations x).mp hx with rfl | ⟨hx, -⟩
      · exact ⟨r₀, done.mem, rfl, rfl, fun hst => absurd hst done.status⟩
      · exact ⟨x, hx, rfl, rfl, fun hst => hst⟩
    · intro x hx
      by_cases hid : x.reservation_id = a.reservation_id
      · exact ⟨_, (done.reservations _).mpr (.inl rfl), done.id.trans hid.symm⟩
      · exact ⟨x, (done.reservations x).mpr (.inr ⟨hx, hid⟩), rfl⟩
  | put done =>
    have hres := hall (by rw [done.rest])
    have hreq := hrows (by rw [done.rest])
    exact h.aside (aside_of_call id) hist
      hres.1 hres.2 hreq.1 hreq.2
  | alter done =>
    have hres := hall (by rw [done.rest])
    have hreq := hrows (by rw [done.rest])
    exact h.aside (aside_of_call id) hist
      hres.1 hres.2 hreq.1 hreq.2

omit [Sha256] [Deployment] in
theorem Ledger.fresh {w : World} (h : Fresh w) : Ledger ⟨w, []⟩ := by
  constructor
  · intro r hr
    rw [h.reservations] at hr
    exact absurd hr (Table.not_mem_empty r)
  · rintro i res ⟨a, ha⟩
    exact absurd ha List.not_mem_nil
  · rintro i j res res' ⟨a, ha⟩
    exact absurd ha List.not_mem_nil
  · rintro i id ⟨a, r, ha, -⟩
    exact absurd ha List.not_mem_nil
  · intro row hrow
    rw [h.requests] at hrow
    exact absurd hrow (Table.not_mem_empty row)
  · rintro i id ⟨a, r, ha, -⟩
    exact absurd ha List.not_mem_nil

omit [Sha256] [Deployment] in
theorem Ledger.outside {w' : World} (h : Ledger m) (hw : Outside m.world w') :
    Ledger { m with world := w' } := by
  obtain ⟨h₁, h₂, h₃, h₄, h₅, h₆⟩ := h
  constructor
  · show ∀ r ∈ w'.action_budget_reservations, _
    rw [hw.reservations]
    exact h₁
  · show ∀ i res, Made m i res → ∃ r ∈ w'.action_budget_reservations, _
    rw [hw.reservations]
    exact h₂
  · exact h₃
  · exact h₄
  · show ∀ row ∈ w'.action_requests, _
    rw [hw.requests]
    exact h₅
  · show ∀ i id, Adopted m i id → ∀ r ∈ w'.action_budget_reservations, _ → _ → ∃ row ∈ w'.action_requests, _
    rw [hw.requests, hw.reservations]
    exact h₆

end call

/-! ## Every run -/

theorem run_ledger {direct : Prop} {w : World} (hw : Fresh w)
    {steps : List (Stage × Interleaving.Action Plane World (Option Fault))}
    {s : Interleaving.Pool Plane World} (run : Run (plane direct) w steps s) : Ledger s.stage := by
  refine Interleaving.Discipline.run_invariant (covers direct) (D := discipline direct)
    (K := fun _ _ => True) hw.sound (.fresh hw) ?_ ?_ run (fun _ _ => trivial)
  · intro m i c o h hs hpre _
    exact h.step hs (Pre.change hpre o) rfl
  · intro m w' h hw'
    exact h.outside hw'

/-- **Reservation ownership.** At each point of every run of any operations in any
    interleaving, the reservations that hold money are the ones their actions
    name, one for each action, exactly when no dispatch stands between reserving
    money and writing the reservation into its action. -/
theorem owned_iff_none_stranded {w : World} (hw : Fresh w)
    {steps : List (Stage × Interleaving.Action Plane World (Option Fault))}
    {s : Interleaving.Pool Plane World} (run : Run (plane False) w steps s) :
    ∀ m ∈ visited steps s, Owned m.world ↔ NoneStranded m := by
  intro m hm
  obtain ⟨before, s', run', rfl, -⟩ := run.visited hm
  exact (run_ledger hw run').owned_iff

/-! ## Two dispatches of one spend -/

/-- A spend of 40 that needs two approvals. -/
def spendRequest : ProposeArgs where
  capability_id := "sandbox.ads.commit_spend"
  project_id := "p"
  environment := "SANDBOX"
  args := .spend "summer" 40 "EUR"
  idempotency_key := "key-0001"

/-- A deployment with a project ceiling of 100. -/
def spendWorld : World := .fresh .sqlite [⟨"bp", "t", .PROJECT, "p", "EUR", 100⟩]

/-- Worker `i` starts to dispatch the spend. -/
def dispatchSpend : Move :=
  .start (@Operation.program mixHash fixture
    (.dispatch alice (@actionId mixHash "t" "key-0001") none))

/-- The spend is proposed by worker 0, and approved. -/
def spendApproved : List Move :=
  [.env World.opened, .start (@Operation.program mixHash fixture (.propose alice spendRequest))] ++
  calls 0 20 ++ [.env World.approved]

omit [Sha256] [Deployment] in
theorem allowed_dispatchSpend : dispatchSpend.Allowed (@plane mixHash fixture False) :=
  @allowed_start mixHash fixture _ _ id

omit [Sha256] [Deployment] in
theorem allowed_spendApproved : ∀ x ∈ spendApproved, x.Allowed (@plane mixHash fixture False) := by
  unfold spendApproved
  simp only [List.forall_mem_append, List.forall_mem_cons]
  exact ⟨⟨⟨outside_opened, @allowed_start mixHash fixture _ _ id, by simp⟩,
    @allowed_calls mixHash fixture _ _ _⟩, outside_approved, by simp⟩

/-- One dispatch, up to the move that names its reservation. -/
def spendReserved : List Move := spendApproved ++ [dispatchSpend] ++ calls 1 14

/-- Two dispatches that both reserve before either moves the action. -/
def spendRaced : List Move :=
  spendApproved ++ [dispatchSpend, dispatchSpend] ++ calls 1 13 ++ calls 2 9 ++ calls 1 40 ++
    calls 2 40

section
omit [Sha256] [Deployment]

theorem allowed_spendReserved : ∀ x ∈ spendReserved, x.Allowed (@plane mixHash fixture False) := by
  unfold spendReserved
  simp only [List.forall_mem_append, List.forall_mem_cons]
  exact ⟨⟨allowed_spendApproved, allowed_dispatchSpend, by simp⟩, @allowed_calls mixHash fixture _ _ _⟩

theorem allowed_spendRaced : ∀ x ∈ spendRaced, x.Allowed (@plane mixHash fixture False) := by
  unfold spendRaced
  simp only [List.forall_mem_append, List.forall_mem_cons]
  have hcalls := @allowed_calls mixHash fixture False
  exact ⟨⟨⟨⟨⟨allowed_spendApproved, allowed_dispatchSpend, allowed_dispatchSpend, by simp⟩,
    hcalls _ _⟩, hcalls _ _⟩, hcalls _ _⟩, hcalls _ _⟩

theorem owned_iff_none_stranded_reserved :
    ∃ steps s, Run (@plane mixHash fixture False) spendWorld steps s ∧
      s.stage.world.action_budget_reservations.rows.map (·.status) = [.RESERVED] ∧
      NoneStranded s.stage := by
  have run := Interleaving.play_run (w := spendWorld) allowed_spendReserved
  have hiff := @owned_iff_none_stranded mixHash fixture _ ⟨rfl, rfl, rfl, rfl⟩ _ _ run _
    (List.mem_append_right _ (List.mem_singleton_self _))
  refine ⟨_, _, run, ?_⟩
  rw [← hiff]
  decide +kernel

/-- The dispatch that lost has ended, and its reservation still holds money. -/
theorem stranded_by_race :
    ∃ steps s, Run (@plane mixHash fixture False) spendWorld steps s ∧
      s.workers.all (·.ended) = true ∧
      s.stage.world.action_budget_reservations.rows.map (·.status) = [.COMMITTED, .RESERVED] ∧
      ¬ Owned s.stage.world :=
  ⟨_, _, Interleaving.play_run allowed_spendRaced, by decide +kernel⟩

end

end Actions
