import MissionControl.Actions.Attempts
import MissionControl.Actions.Endings

/-! # Recovering an action whose lease ran out

A crash leaves the action where its worker last put it, with a lease that runs out. Recovery selects
by three states, and a lease may stand in a fourth: an action verified but not yet completed keeps the
lease it was observed under, and nothing selects it or moves it on (`recoverable_iff`). -/

namespace Actions

open Canonical (Sha256 mixHash)
open Interleaving (Alone Run visited)
open Interleaving.Program (Only only_perform)
open Gateway (perform fromExcept)

variable [Sha256] [Deployment]

omit [Sha256] [Deployment] in
/-- The action is not over, and its lease has run out. -/
structure LeaseExpired (w : World) (row : ActionRow) : Prop where
  mem : row ∈ w.action_requests
  state : row.state ∉ ActionState.TERMINAL
  lease : ∃ e, row.lease_expires_at = some e ∧ e < w.now

/-- An operation that moves an action on: a dispatch, a reconciliation, a retry or a cancellation,
    by anybody. -/
inductive Onward (action_id : String) : Operation → Prop
  | dispatch (principal : Principal) (worker_id : Option String) :
      Onward action_id (.dispatch principal action_id worker_id)
  | reconcile (principal : Option Principal) : Onward action_id (.reconcile action_id principal)
  | retry (principal : Principal) : Onward action_id (.retry principal action_id)
  | cancel (principal : Principal) (reason : String) :
      Onward action_id (.cancel principal action_id reason)

/-- `recover_stale` selects the action, or some operation can move it on from here. -/
def Recoverable (w : World) (row : ActionRow) : Prop :=
  row ∈ leased_past w w.now ActionState.LEASED none ∨
    ∃ op, Onward row.action_id op ∧ ∃ r w', Alone exec op.program w r w' ∧
      row ∉ w'.action_requests

/-! ## A verified action stays where it is -/

section alone

variable {w w' : World} {row : ActionRow}

variable {α : Type}

variable {r : Except ActionError α}

omit [Deployment] in
theorem alone_minor {p : Gateway α} (hp : p.Only Call.Minor) (h : Alone exec p w r w') :
    w'.action_requests = w.action_requests := by
  induction h with
  | ret => rfl
  | raise => rfl
  | @call c _ w _ _ o _ ih =>
    have hcall : Untouched ⟨w, c, o⟩ := untouched_of_minor hp.1
    exact (ih (hp.2 _)).trans hcall.1

variable {principal : Principal}

variable {found : Option ActionRow}

omit [Sha256] [Deployment] in
theorem visible_ok (h : visible principal found = .ok row) : found = some row := by
  cases found with
  | none => cases h
  | some x =>
    unfold visible at h
    dsimp only at h
    split at h
    · cases h
    · cases h
      rfl

omit [Deployment] in
theorem alone_fromExcept {x : Except ActionError α} {a : α} (h : Alone exec (fromExcept x) w (.ok a) w') :
    x = .ok a ∧ w' = w := by
  cases x with
  | ok b =>
    obtain ⟨hr, rfl⟩ := h.of_ret
    cases hr
    exact ⟨rfl, rfl⟩
  | error e =>
    obtain ⟨hr, -⟩ := h.of_raise
    cases hr

variable {action_id : String}

omit [Deployment] in
theorem alone_get_request (h : Alone exec (perform (.get_request action_id)) w (.ok found) w') :
    found = w.action_requests.find? action_id ∧ w' = w := by
  obtain ⟨o, hr, rfl⟩ := h.of_perform
  cases hr
  exact ⟨rfl, rfl⟩

theorem alone_readForWrite (h : Alone exec (readForWrite principal action_id) w (.ok row) w') :
    w.action_requests.find? action_id = some row ∧ w'.action_requests = w.action_requests := by
  have hsame := alone_minor (only_readForWrite principal action_id) h
  rcases h.of_bind with ⟨e, -, he⟩ | ⟨found, w₁, hfound, hread⟩
  · cases he
  obtain ⟨rfl, rfl⟩ := alone_get_request hfound
  rcases hread.of_bind with ⟨e, -, he⟩ | ⟨x, w₂, hx, hrest⟩
  · cases he
  obtain ⟨hvisible, rfl⟩ := alone_fromExcept hx
  rcases hrest.of_bind with ⟨e, -, he⟩ | ⟨_, w₃, -, hret⟩
  · cases he
  obtain ⟨hrow, -⟩ := hret.of_ret
  cases hrow
  exact ⟨visible_ok hvisible, hsame⟩

theorem unmoved_of_refused {f : ActionRow → Gateway α}
    (hf : ∀ x, w.action_requests.find? action_id = some x → ∃ e, f x = .raise e)
    (h : Alone exec ((readForWrite principal action_id).bind f) w r w') :
    w'.action_requests = w.action_requests := by
  rcases h.of_bind with ⟨e, h, -⟩ | ⟨x, w₁, hread, h⟩
  · exact alone_minor (only_readForWrite principal action_id) h
  · obtain ⟨hfind, hsame⟩ := alone_readForWrite hread
    obtain ⟨e, he⟩ := hf x hfind
    rw [he] at h
    rw [h.of_raise.2]
    exact hsame

variable {moment : Moment}

theorem reconcileRow_verified {actor : String} {byPerson : Bool} (hs : row.state = .VERIFIED) :
    ∃ e, reconcileRow row actor byPerson moment = .raise e := by
  unfold reconcileRow
  rw [if_pos (by rw [hs]; simp)]
  exact ⟨_, rfl⟩

theorem dispatchRow_verified {worker_id : Option String} (hs : row.state = .VERIFIED) :
    ∃ e, dispatchRow principal row worker_id moment = .raise e := by
  unfold dispatchRow
  rw [if_pos (by rw [hs]; decide)]
  exact ⟨_, rfl⟩

/-- **Nothing moves a verified action on** but the worker that verified it. -/
theorem unmoved_of_verified {op : Operation} {r : Except ActionError Unit} (hrow : row ∈ w.action_requests)
    (hs : row.state = .VERIFIED) (hop : Onward row.action_id op) (h : Alone exec op.program w r w') :
    row ∈ w'.action_requests := by
  have hfind : ∀ x, w.action_requests.find? row.action_id = some x → x.state = .VERIFIED := by
    intro x hx
    rw [Relational.Table.find?_key hrow] at hx
    cases hx
    exact hs
  suffices hsame : w'.action_requests = w.action_requests by
    rw [hsame]
    exact hrow
  rcases h.of_bind with ⟨e, hclock, -⟩ | ⟨moment, w₁, hclock, hbody⟩
  · exact alone_minor (p := perform .clock) (only_perform trivial) hclock
  have hclock : w₁ = w := by
    obtain ⟨o, -, hw⟩ := hclock.of_perform
    exact hw
  subst hclock
  cases hop with
  | dispatch principal worker_id =>
    obtain ⟨_, h, -⟩ := Alone.of_void hbody
    refine unmoved_of_refused (fun x hx => ?_) h
    have hx := hfind x hx
    rw [if_neg (by rw [hx]; decide)]
    exact dispatchRow_verified hx
  | reconcile principal =>
    obtain ⟨_, h, -⟩ := Alone.of_void hbody
    cases principal with
    | some p => exact unmoved_of_refused (fun x hx => reconcileRow_verified (hfind x hx)) h
    | none =>
      rcases h.of_bind with ⟨e, h, -⟩ | ⟨found, w₂, hfound, h⟩
      · exact alone_minor (p := perform (.get_request row.action_id)) (only_perform trivial) h
      · obtain ⟨rfl, rfl⟩ := alone_get_request hfound
        rw [Relational.Table.find?_key hrow] at h
        have hraise : ∃ e, reconcileRow row "system:recovery" false moment = .raise e :=
          reconcileRow_verified hs
        obtain ⟨e, he⟩ := hraise
        change Alone exec (reconcileRow row "system:recovery" false moment) _ _ _ at h
        rw [he] at h
        rw [h.of_raise.2]
  | retry principal =>
    obtain ⟨_, h, -⟩ := Alone.of_void hbody
    refine unmoved_of_refused (fun x hx => ?_) h
    have hx := hfind x hx
    rw [if_pos (.inl (by rw [hx]; decide))]
    exact ⟨_, rfl⟩
  | cancel principal reason =>
    obtain ⟨_, h, -⟩ := Alone.of_void hbody
    refine unmoved_of_refused (fun x hx => ?_) h
    have hx := hfind x hx
    rw [if_pos (by rw [hx]; decide)]
    exact ⟨_, rfl⟩

end alone

/-! ## Every run -/

variable {s : ActionState}

omit [Sha256] [Deployment] in
theorem leased_of_not_verified (h : s ∈ LEASES) (hne : s ≠ .VERIFIED) : s ∈ ActionState.LEASED := by
  revert h hne
  cases s <;> decide

theorem not_recoverable_of_verified {w : World} {row : ActionRow} (hrow : row ∈ w.action_requests)
    (hs : row.state = .VERIFIED) : ¬ Recoverable w row := by
  rintro (hmem | ⟨op, hop, r, w', halone, hnot⟩)
  · obtain ⟨-, hcond⟩ := List.mem_filter.mp ((List.mem_insertionSort _).mp hmem)
    simp only [decide_eq_true_eq] at hcond
    rw [hs] at hcond
    exact absurd hcond.1 (by decide)
  · exact hnot (unmoved_of_verified hrow hs hop halone)

/-- **Every leased action is recoverable, but for a verified one.** In every state a run reaches, an
    action that is not over and whose lease has run out is selected by recovery or can be moved on
    exactly when it is not VERIFIED. -/
theorem recoverable_iff_not_verified {direct : Prop} {w : World} (hw : Fresh w)
    {steps : List (Stage × Interleaving.Action Plane World (Option Fault))}
    {s : Interleaving.Pool Plane World} (run : Run (plane direct) w steps s) :
    ∀ m ∈ visited steps s, ∀ row, LeaseExpired m.world row →
      (Recoverable m.world row ↔ row.state ≠ .VERIFIED) := by
  intro m hm row hexpired
  constructor
  · intro hrec hs
    exact not_recoverable_of_verified hexpired.mem hs hrec
  · intro hne
    obtain ⟨before, s', run', rfl, -⟩ := run.visited hm
    obtain ⟨e, he, hlt⟩ := hexpired.lease
    have hleased := ((run_attempts hw run').rows row hexpired.mem).leased (by rw [he]; simp)
    have hstate := leased_of_not_verified hleased hne
    refine .inl ((List.mem_insertionSort _).mpr (List.mem_filter.mpr ⟨hexpired.mem, ?_⟩))
    rw [decide_eq_true_eq]
    exact ⟨hstate, by simp, e, he, hlt⟩

/-! ## A spend whose worker crashes -/

/-- The spend is dispatched for `n` calls after its budget is reserved; then its worker makes no
    further call, and its lease runs out. -/
def spendCrashed (n : Nat) : List Move :=
  spendReserved ++ calls 1 n ++ [.env (World.waited (1000000 * SECOND))]

omit [Sha256] [Deployment] in
theorem allowed_spendCrashed (n : Nat) : ∀ x ∈ spendCrashed n, x.Allowed (@plane mixHash fixture False) := by
  unfold spendCrashed
  simp only [List.forall_mem_append, List.forall_mem_cons]
  exact ⟨⟨allowed_spendReserved, @allowed_calls mixHash fixture False _ _⟩, outside_waited _, by simp⟩

/-- The state of each row, and whether its lease has run out. -/
def World.leases (w : World) : List (ActionState × Bool) :=
  w.action_requests.rows.map fun x => (x.state, x.lease_expires_at.any (· < w.now))

section
omit [Sha256] [Deployment]

theorem leaseExpired_of_leases {w : World} (h : w.leases = [(s, true)]) (hs : s ∉ ActionState.TERMINAL) :
    ∃ row, LeaseExpired w row ∧ row.state = s := by
  obtain ⟨row, hrows, hrow⟩ := List.map_eq_singleton_iff.mp h
  have hmem : row ∈ w.action_requests.rows := by
    rw [hrows]
    exact List.mem_singleton_self _
  have hstate : row.state = s := congrArg Prod.fst hrow
  have hlease : row.lease_expires_at.any (· < w.now) = true := congrArg Prod.snd hrow
  refine ⟨row, ⟨hmem, hstate ▸ hs, ?_⟩, hstate⟩
  cases he : row.lease_expires_at with
  | none =>
    rw [he] at hlease
    cases hlease
  | some e =>
    rw [he] at hlease
    exact ⟨e, rfl, of_decide_eq_true hlease⟩

theorem recoverable_iff_not_verified_dispatching :
    ∃ steps s row, Run (@plane mixHash fixture False) spendWorld steps s ∧
      LeaseExpired s.stage.world row ∧ row.state = .DISPATCHING ∧
      @Recoverable mixHash fixture s.stage.world row := by
  have run := Interleaving.play_run (w := spendWorld) (allowed_spendCrashed 1)
  obtain ⟨row, hexpired, hs⟩ := leaseExpired_of_leases (s := .DISPATCHING)
    (w := (Interleaving.play (@plane mixHash fixture False) (Interleaving.Pool.init spendWorld)
      (spendCrashed 1)).2.stage.world) (by decide +kernel) (by decide)
  have hiff := @recoverable_iff_not_verified mixHash fixture _ _ ⟨rfl, rfl, rfl, rfl⟩ _ _ run _
    (Interleaving.stage_mem_visited _ _) row hexpired
  exact ⟨_, _, row, run, hexpired, hs, hiff.mpr (by rw [hs]; decide)⟩

/-- The worker crashed after it verified the effect and before it committed the budget. -/
theorem stuck_verified :
    ∃ steps s row, Run (@plane mixHash fixture False) spendWorld steps s ∧
      LeaseExpired s.stage.world row ∧ ¬ @Recoverable mixHash fixture s.stage.world row ∧
      s.stage.world.action_budget_reservations.rows.map (·.status) = [.RESERVED] := by
  have run := Interleaving.play_run (w := spendWorld) (allowed_spendCrashed 8)
  obtain ⟨row, hexpired, hs⟩ := leaseExpired_of_leases (s := .VERIFIED)
    (w := (Interleaving.play (@plane mixHash fixture False) (Interleaving.Pool.init spendWorld)
      (spendCrashed 8)).2.stage.world) (by decide +kernel) (by decide)
  exact ⟨_, _, row, run, hexpired,
    @not_recoverable_of_verified mixHash fixture _ _ hexpired.mem hs, by decide +kernel⟩

end

end Actions
