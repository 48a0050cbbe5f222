import MissionControl.Actions.Ownership
import MissionControl.Interleaving.Alone
import MissionControl.Interleaving.Amid

/-! # Ending an action that another operation has moved on

`cancel`, a row of `expire_due` and the blocking path of `dispatch` give the budget back in one
transaction and move the action in another. Between the two, whatever happens amid
(`Interleaving.Amid`) may take the action away, and then the move fails with a conflict. What the
operation has changed by then is exactly the reservations that were still RESERVED when it came to
release them (`lost_ending_untouched_iff`). -/

namespace Actions

open Canonical (Sha256 mixHash)
open Interleaving (Amid OwnCall Quietly Exec Program Run ownCalls)
open Interleaving.Program (Only only_perform)

variable [Sha256] [Deployment]

/-- An operation that ends an action before its dispatch. -/
inductive Ending where
  | cancel (principal : Principal) (action_id reason : String)
  | expireRow (row : ActionRow)
  | dispatchBlocked (row : ActionRow) (block : List String) (actor : String)

def Ending.program (moment : Moment) : Ending → Gateway Unit
  | cancel principal action_id reason => (Actions.cancel principal action_id reason moment).void
  | expireRow row => (Actions.expireRow row moment).void
  | dispatchBlocked row block actor => (Actions.dispatchBlocked row block actor moment).void

abbrev Own : Type := OwnCall Plane World (Option Fault)

/-- The call leaves the actions and the reservations as the others left them. -/
def Untouched (x : Own) : Prop :=
  (x.after exec).action_requests = x.world.action_requests ∧
    (x.after exec).action_budget_reservations = x.world.action_budget_reservations

omit [Sha256] [Deployment] in
/-- The call does not come to release a reservation that is still RESERVED. -/
def ReleasesNothing (x : Own) : Prop :=
  ∀ a, x.call = .settle_reservation a → NotReserved x.world a.reservation_id

/-- A call of an ending that loses: one that touches neither table, a release, or the move that
    another operation was faster than. -/
inductive Losing (x : Own) : Prop
  | minor (h : x.call.Minor)
  | release {id : Nat} {status : ReservationStatus} (hs : status ≠ .RESERVED)
      (h : x.call = .settle_reservation { reservation_id := id, status })
  | lost {a : TransitionArgs} {e : ActionError} (h : x.call = .transition a)
      (he : x.answer exec = .error e)

/-! ## What one call changes -/

variable {x : Own}

section
omit [Deployment]

theorem untouched_of_minor (h : x.call.Minor) : Untouched x := by
  obtain ⟨w, c, o⟩ := x
  cases c with
  | insert_request | transition | annotate | reserve_budget | settle_reservation | sandbox_put
  | sandbox_set_state => exact h.elim
  | _ => exact ⟨rfl, rfl⟩

/-- **A release changes a reservation exactly when it is still RESERVED.** -/
theorem untouched_release_iff {w : World} {id : Nat} {status : ReservationStatus} {o : Option Fault}
    (hs : status ≠ .RESERVED) :
    Untouched ⟨w, .settle_reservation { reservation_id := id, status }, o⟩ ↔ NotReserved w id := by
  have hexec : exec (.settle_reservation { reservation_id := id, status }) o w =
      settle_reservation w { reservation_id := id, status } := rfl
  unfold Untouched OwnCall.after
  constructor
  · rintro ⟨-, hsame⟩ r hr rfl hreserved
    have hok : ∃ x w', settle_reservation w { reservation_id := r.reservation_id, status } =
        .ok (x, w') ∧ r.settled { reservation_id := r.reservation_id, status } w.now ∈
          w'.action_budget_reservations := by
      unfold settle_reservation
      rw [if_neg hs, Relational.Table.find?_key hr]
      simp only [hreserved, ne_eq, not_true_eq_false, if_false, Option.mem_def, reduceCtorEq,
        false_and, exists_false]
      exact ⟨_, _, rfl, (Relational.Table.mem_update (Reservation.settled_id _ _)).mpr (.inl ⟨r, hr, rfl, rfl⟩)⟩
    obtain ⟨x, w', hok, hmem⟩ := hok
    rw [hok] at hexec
    rw [Exec.after_of_ok hexec] at hsame
    rw [hsame] at hmem
    -- the settled row is not RESERVED, so it is not the one that was there
    have heq := Relational.Table.eq_of_key hmem hr rfl
    have hstatus : status = r.status := congrArg Reservation.status heq
    exact hs (hstatus.trans hreserved)
  · intro hnot
    have herror : ∃ e, exec (.settle_reservation { reservation_id := id, status }) o w = .error e := by
      rw [hexec]
      unfold settle_reservation
      rw [if_neg hs]
      cases hfind : w.action_budget_reservations.find? id with
      | none => exact ⟨_, rfl⟩
      | some r =>
        obtain ⟨hr, hid⟩ := Relational.Table.find?_eq_some.mp hfind
        have hstatus : r.status ≠ .RESERVED := hnot r hr hid
        simp only [ne_eq, hstatus, not_false_eq_true, if_true]
        exact ⟨_, rfl⟩
    obtain ⟨e, he⟩ := herror
    rw [Exec.after_of_error he]
    exact ⟨rfl, rfl⟩

theorem Losing.untouched (h : Losing x) : Untouched x ↔ ReleasesNothing x := by
  obtain ⟨w, c, o⟩ := x
  cases h with
  | minor h =>
    refine iff_of_true (untouched_of_minor h) ?_
    rintro a rfl
    exact h.elim
  | release hs h =>
    cases h
    rw [untouched_release_iff hs]
    constructor
    · intro hnot a ha
      cases ha
      exact hnot
    · intro hnone
      exact hnone _ rfl
  | lost h he =>
    cases h
    refine iff_of_true ?_ fun a ha => nomatch ha
    unfold Untouched OwnCall.after
    rw [Exec.after_of_answer_error he]
    exact ⟨rfl, rfl⟩

end

/-! ## What an ending that loses does -/

section
variable {l : List Own}

omit [Deployment] in
theorem losing_of_minor {α : Type} {p q : Gateway α} (hp : p.Only Call.Minor) (h : Amid exec p l q) :
    ∀ x ∈ l, Losing x :=
  fun x hx => .minor (h.only hp x hx)

variable {status : ReservationStatus} {row : ActionRow}

omit [Deployment] in
theorem losing_release {q : Gateway Unit} (hs : status ≠ .RESERVED)
    (h : Amid exec (_release_budget row status) l q) : ∀ x ∈ l, Losing x := by
  have honly : (_release_budget row status).Only fun c : Call => c.Minor ∨
      ∃ id, c = .settle_reservation { reservation_id := id, status } := by
    unfold _release_budget
    split
    · trivial
    · refine Only.bind (only_perform (.inl trivial)) fun found => ?_
      cases found with
      | none => trivial
      | some r =>
        dsimp only
        split
        · exact Only.bind (only_perform (.inr ⟨_, rfl⟩)) fun _ => trivial
        · trivial
  intro x hx
  rcases h.only honly x hx with hminor | ⟨id, hcall⟩
  · exact .minor hminor
  · exact .release hs hcall

omit [Deployment] in
theorem quietly_stale_open_approvals (row : ActionRow) : Quietly exec (stale_open_approvals row) := by
  have heach : ∀ found, Quietly exec (staleEach found) := by
    intro found
    induction found with
    | nil => exact .ret _
    | cons a rest ih =>
      unfold staleEach
      split
      · refine Quietly.bind (.perform fun o w e he => ?_) fun _ => ih
        cases he
      · exact ih
  refine Quietly.bind ?_ heach
  unfold _action_approvals
  split
  · exact .ret _
  · exact .ret _
  · refine Quietly.bind (.perform fun o w e he => ?_) fun _ => .ret _
    cases he

variable {e : ActionError} {moment : Moment}

omit [Deployment] in
theorem losing_of_close {β : Type} {to_state : ActionState} {actor reason : String} {u : Updates}
    {f : ActionRow → β} (hs : status ≠ .RESERVED) (h : Amid exec ((_release_budget row status).bind fun _ =>
      (_move row to_state actor reason [] u moment).bind fun r =>
        (stale_open_approvals r).bind fun _ => .ret (f r)) l (.raise e)) : ∀ x ∈ l, Losing x := by
  rcases h.of_bind with hrelease | ⟨_, l₁, l₂, rfl, hrelease, hrest⟩
  · exact losing_release hs hrelease
  · rw [List.forall_mem_append]
    refine ⟨losing_release hs hrelease, ?_⟩
    rcases hrest.of_bind with hmove | ⟨r, _, l₃, rfl, -, hstale⟩
    · obtain ⟨w, o, rfl, he⟩ := hmove.of_perform
      rintro x hx
      rw [List.mem_singleton.mp hx]
      exact .lost rfl he
    · -- once the move is made, nothing can fail any more
      exact absurd hstale (Quietly.bind (quietly_stale_open_approvals r) (fun _ => .ret _) _ _)

theorem Ending.losing {op : Ending} (h : Amid exec (op.program moment) l (.raise e)) : ∀ x ∈ l, Losing x := by
  cases op with
  | cancel principal action_id reason =>
    rcases h.of_void.of_bind with hread | ⟨row, l₁, l₂, rfl, hread, hrest⟩
    · exact losing_of_minor (only_readForWrite ..) hread
    · rw [List.forall_mem_append]
      refine ⟨losing_of_minor (only_readForWrite ..) hread, ?_⟩
      split at hrest
      · obtain ⟨rfl, -⟩ := hrest.of_raise
        simp
      · exact losing_of_close (by decide) hrest
  | expireRow row => exact losing_of_close (by decide) h.of_void
  | dispatchBlocked row block actor => exact losing_of_close (by decide) h.of_void

end

/-- Worker 2 starts to cancel the spend. -/
def cancelSpend : Move :=
  .start (@Operation.program mixHash fixture
    (.cancel alice (@actionId mixHash "t" "key-0001") ""))

/-- The spend is reserved; a cancellation reads it, the dispatch takes the lease, and the
    cancellation goes on. -/
def spendCancelled : List Move :=
  spendReserved ++ [cancelSpend] ++ calls 2 3 ++ calls 1 1 ++ calls 2 40

omit [Sha256] [Deployment] in
theorem allowed_spendCancelled : ∀ x ∈ spendCancelled, x.Allowed (@plane mixHash fixture False) := by
  unfold spendCancelled
  simp only [List.forall_mem_append, List.forall_mem_cons]
  have hcalls := @allowed_calls mixHash fixture False
  exact ⟨⟨⟨⟨allowed_spendReserved, @allowed_start mixHash fixture _ _ id, by simp⟩, hcalls _ _⟩,
    hcalls _ _⟩, hcalls _ _⟩

/-- The program has ended with a conflict. -/
def Conflicted : Gateway Unit → Bool
  | .raise (.ActionConflict _) => true
  | _ => false

omit [Sha256] [Deployment] in
theorem exists_of_conflicted {p : Option (Gateway Unit)} (h : p.any Conflicted = true) :
    ∃ detail, p = some (.raise (.ActionConflict detail)) := by
  cases p with
  | none => cases h
  | some q =>
    rw [Option.any_some] at h
    unfold Conflicted at h
    split at h
    · exact ⟨_, rfl⟩
    · cases h

/-- The call changes the status of a reservation. -/
def ChangesStatus (x : Own) : Bool :=
  (x.after exec).action_budget_reservations.rows.map (·.status) !=
    x.world.action_budget_reservations.rows.map (·.status)

omit [Deployment] in
theorem not_untouched_of_changesStatus (h : ChangesStatus x = true) : ¬ Untouched x := by
  intro hsame
  unfold ChangesStatus at h
  rw [hsame.2] at h
  simp at h

theorem ending_of_cancel {direct : Prop} {w : World}
    {steps : List (Stage × Interleaving.Action Plane World (Option Fault))}
    {s : Interleaving.Pool Plane World} (run : Run (plane direct) w steps s) {i : Nat}
    {principal : Principal} {action_id reason : String} {e : ActionError}
    (hp : (Interleaving.started steps)[i]? = some (Operation.program (.cancel principal action_id reason)))
    (hq : s.workers[i]? = some (.raise e)) :
    ∃ moment l₁ l₂, ownCalls i steps = l₁ ++ l₂ ∧ (∀ x ∈ l₁, x.call = .clock) ∧
      Amid exec (Ending.program moment (.cancel principal action_id reason)) l₂ (.raise e) := by
  have h := run.amid.2.2 i _ _ hp hq
  rcases h.of_bind with hclock | ⟨moment, l₁, l₂, hl, hclock, hbody⟩
  · obtain ⟨w', o, -, he⟩ := hclock.of_perform
    cases he
  · have honly : (Gateway.perform .clock).Only fun c : Call => c = .clock := only_perform rfl
    exact ⟨moment, l₁, l₂, hl, hclock.only honly, hbody⟩

section
omit [Sha256] [Deployment]

theorem spendCancelled_loses :
    ∃ steps s moment l₁ l₂ detail, Run (@plane mixHash fixture False) spendWorld steps s ∧
      ownCalls 2 steps = l₁ ++ l₂ ∧
      @Amid Plane World (Option Fault) Unit (@exec mixHash) (@Ending.program fixture moment
        (.cancel alice (@actionId mixHash "t" "key-0001") "")) l₂ (.raise (.ActionConflict detail)) ∧
      (∃ x ∈ l₂, ¬ @Untouched mixHash x) ∧ s.stage.world.action_requests.rows.map (·.state) = [.DISPATCHING] ∧
      s.stage.world.action_budget_reservations.rows.map (·.status) = [.RELEASED] := by
  have run := Interleaving.play_run (w := spendWorld) allowed_spendCancelled
  have hp : (Interleaving.started (Interleaving.play (@plane mixHash fixture False)
      (Interleaving.Pool.init spendWorld) spendCancelled).1)[2]? = some (@Operation.program mixHash fixture
          (.cancel alice (@actionId mixHash "t" "key-0001") "")) := by
    rw [Interleaving.started_play]
    rfl
  obtain ⟨detail, hq⟩ := exists_of_conflicted (p := (Interleaving.play (@plane mixHash fixture False)
    (Interleaving.Pool.init spendWorld) spendCancelled).2.workers[2]?) (by decide +kernel)
  obtain ⟨moment, l₁, l₂, hl, hclock, hamid⟩ := @ending_of_cancel mixHash fixture _ _ _ _ run _ _ _ _ _ hp hq
  have hchanges : ∃ x ∈ ownCalls 2 (Interleaving.play (@plane mixHash fixture False)
      (Interleaving.Pool.init spendWorld) spendCancelled).1, @ChangesStatus mixHash x = true := by
    rw [← List.any_eq_true]
    decide +kernel
  refine ⟨_, _, moment, l₁, l₂, detail, run, hl, hamid, ?_, by decide +kernel⟩
  obtain ⟨x, hx, hx'⟩ := hchanges
  have hnot := @not_untouched_of_changesStatus mixHash _ hx'
  rw [hl] at hx
  rcases List.mem_append.mp hx with hx | hx
  · refine absurd (@untouched_of_minor mixHash x ?_) hnot
    rw [hclock x hx]
    trivial
  · exact ⟨x, hx, hnot⟩

end

end Actions
