import MissionControl.Council.Leases
import MissionControl.Interleaving.Amid

/-! # Cancelling a mission

`cancel` sets a flag where the version of the row is the one it has read, and ends a mission that nothing executes where
its status is the one it has read. Neither compare-and-set is looked at when it fails. One that lands is never undone,
and where none does the cancellation is lost, unless the mission has ended or is to be cancelled already
(`cancel_kept`). -/

namespace Council

open Interleaving
open Interleaving.Program (Only only_ret only_raise only_perform)

/-- The mission has ended, or is to be cancelled. -/
def Over (w : World) : Prop := w.status.terminal = true ∨ w.row.cancel_requested = true

/-- The mark a cancellation leaves. -/
def Marked (w : World) : Prop := w.row.cancel_requested = true ∨ w.status = .cancelled

/-- A call of `cancel` whose compare-and-set finds what was read. -/
def Lands (x : OwnCall CouncilCalls World Outside) : Prop :=
  match x.call with
  | .update_mission expected_version fields =>
    fields.cancel_requested = true ∧ x.world.row.version = expected_version
  | .compare_and_set_run_status expected new => new = .cancelled ∧ x.world.status = expected
  | _ => False

instance (x : OwnCall CouncilCalls World Outside) : Decidable (Lands x) := by
  unfold Lands
  split <;> infer_instance

theorem Marked.over {w : World} (h : Marked w) : Over w := by
  rcases h with h | h
  · exact .inr h
  · exact .inl (by rw [h]; rfl)

/-! ## The mark stays -/

theorem marked_after {c : Call} {o : Outside} {w : World} (hc : c.KeepsCancelled) (h : Marked w) :
    Marked (Exec.after exec c o w) := by
  have hfail {α : Type} {r : α} {w' : World} {a : α} (hw : failing o r w = .ok (a, w')) : w' = w := by
    unfold failing at hw
    split at hw
    · cases hw
    · cases hw
      rfl
  unfold Exec.after
  split
  · rename_i a w' hw
    cases c with
    | compare_and_set_run_status expected new =>
      simp only [exec] at hw
      split at hw
      · cases hw
        rcases h with h | h
        · exact .inl h
        · -- a mission that is cancelled is not among those the call expects
          rename_i hexpected
          rw [h] at hexpected
          subst hexpected
          cases hc
      · cases hw
        exact h
    | update_mission expected_version fields =>
      simp only [exec] at hw
      split at hw
      · cases hw
        rcases h with h | h
        · exact .inl (by simp [MissionRow.set, h])
        · exact .inr h
      · cases hw
        exact h
    | acquire_lease owner ttl =>
      simp only [exec] at hw
      split at hw <;> cases hw <;> exact h
    | release_lease owner =>
      simp only [exec] at hw
      split at hw <;> cases hw <;> exact h
    | create_approval_request subject_hash =>
      simp only [exec] at hw
      split at hw <;> cases hw
      exact h
    | resolve_approval approval_id reviewer approve =>
      simp only [exec] at hw
      split at hw <;> cases hw <;> exact h
    | consume_approval approval_id action_hash =>
      simp only [exec] at hw
      split at hw <;> cases hw <;> exact h
    | george | fable | arty | gateway_checks | write_scaffold =>
      rw [hfail hw]
      exact h
    | _ =>
      cases hw
      exact h
  · exact h

variable {x : OwnCall CouncilCalls World Outside}

theorem marked_of_lands (h : Lands x) : Marked (x.after exec) := by
  obtain ⟨w, c, o⟩ := x
  cases c with
  | update_mission expected_version fields =>
    have hversion : w.row.version = expected_version := h.2
    have hafter : (⟨w, .update_mission expected_version fields, o⟩ :
        OwnCall CouncilCalls World Outside).after exec = { w with row := w.row.set fields } := by
      simp [OwnCall.after, Exec.after, exec, hversion]
    rw [hafter]
    exact .inl (by simp [MissionRow.set, show fields.cancel_requested = true from h.1])
  | compare_and_set_run_status expected new =>
    have hstatus : w.status = expected := h.2
    have hafter : (⟨w, .compare_and_set_run_status expected new, o⟩ :
        OwnCall CouncilCalls World Outside).after exec = { w with status := new } := by
      simp [OwnCall.after, Exec.after, exec, hstatus]
    rw [hafter]
    exact .inr h.1
  | _ => cases h

/-! ## No request takes a mission out of its cancellation -/

section

variable [Canonical.Sha256] [Settings]

theorem lasting_drive {owner : String} {run_engine : Engine → Option CouncilState → CouncilProgram EngineStep}
    {pre : CouncilProgram Bool} (hengine : ∀ engine state, Lasting (run_engine engine state)) (hpre : Lasting pre) :
    Lasting (_drive owner run_engine pre) := by
  refine Only.bind (only_perform trivial) fun row => ?_
  cases row with
  | none => exact only_ret _
  | some row =>
    have hdriven : Lasting (driven row run_engine pre) := by
      refine Only.bind hpre fun starts => ?_
      split
      · refine Only.bind (only_perform trivial) fun _ => ?_
        refine Only.bind (only_perform trivial) fun state => ?_
        refine Only.bind (only_perform trivial) fun _ => ?_
        refine Only.bind (Only.attempt (hengine _ state)) fun ended => ?_
        exact Only.bind (only_perform trivial) fun _ => (durably_settle ended).lasting
      · exact only_ret _
    refine Only.bind (Only.attempt hdriven) fun ended => ?_
    refine Only.bind (only_perform trivial) fun _ => ?_
    cases ended with
    | ok _ => exact only_ret _
    | error e => exact only_raise _

variable [TextRules]

theorem lasting_execute (owner : String) : Lasting (execute owner) :=
  lasting_drive (fun engine state => (seated_start engine state).lasting) (only_perform trivial)

theorem lasting_driveRecover (owner : String) : Lasting (driveRecover owner) :=
  lasting_drive (fun engine state => (seated_recover engine state).lasting) (only_ret _)

theorem lasting_resume (owner : String) : Lasting (resume owner) := by
  refine Only.bind (only_perform trivial) fun row => ?_
  refine Only.bind (only_perform trivial) fun status => ?_
  split
  · exact only_raise _
  · refine Only.bind (orderly_rowApproval row).durably.lasting fun approval => ?_
    cases approval with
    | none => exact only_raise _
    | some approval =>
      dsimp only
      split
      · exact only_raise _
      · exact only_raise _
      · refine Only.bind (only_perform trivial) fun state => ?_
        split
        · exact Only.bind (only_perform trivial) fun _ => only_raise _
        · split
          · exact only_raise _
          · refine Only.bind (only_perform trivial) fun used => ?_
            split
            · refine Only.bind (orderly_startResuming approval).durably.lasting fun moved => ?_
              split
              · refine Only.bind (only_perform trivial) fun _ => ?_
                exact lasting_drive (fun engine state => (seated_resume engine _ state).lasting) (only_ret _)
              · exact only_raise _
            · exact only_raise _

theorem lasting_retry (owner : String) : Lasting (retry owner) := by
  refine Only.bind (only_perform trivial) fun row => ?_
  refine Only.bind (only_perform trivial) fun status => ?_
  split
  · exact only_raise _
  · refine Only.bind (only_perform trivial) fun moved => ?_
    split
    · exact Only.bind (only_perform trivial) fun _ => lasting_driveRecover owner
    · exact only_raise _

theorem lasting_recover (owner : String) : Lasting (recover owner) := by
  refine Only.bind (only_perform trivial) fun row => ?_
  refine Only.bind (only_perform trivial) fun status => ?_
  split
  · exact only_raise _
  · refine Only.bind (only_perform trivial) fun now => ?_
    split
    · split
      · exact lasting_execute owner
      · exact lasting_driveRecover owner
    · exact only_raise _

theorem lasting_recover_stale (owner : String) : Lasting (recover_stale owner) := by
  refine Only.bind (only_perform trivial) fun now => ?_
  refine Only.bind (only_perform trivial) fun stale => ?_
  split
  · refine Only.bind (only_perform trivial) fun status => ?_
    split
    · exact lasting_execute owner
    · exact lasting_driveRecover owner
  · exact only_ret _

theorem lasting_request (mission : Mission) (request : Request) : Lasting (request.program mission) := by
  cases request with
  | dispatch owner => exact Only.bind (only_perform trivial) fun _ => lasting_execute owner
  | execute owner => exact lasting_execute owner
  | resume owner => exact lasting_resume owner
  | cancel => exact orderly_cancel.durably.lasting
  | retry owner => exact lasting_retry owner
  | recover owner => exact lasting_recover owner
  | recover_stale owner => exact lasting_recover_stale owner
  | decide approval_id reviewer approve => exact (orderly_decide_approval approval_id reviewer approve).durably.lasting

end

/-! ## What a cancellation comes to -/

/-- A compare-and-set of `cancel`. -/
def OfCancel (c : Call) : Prop :=
  (∃ version, c = .update_mission version { cancel_requested := true }) ∨
    ∃ status, c = .compare_and_set_run_status status .cancelled

theorem cancel_endsIn : EndsIn exec OfCancel cancel := by
  refine endsIn_bind fun row => endsIn_bind fun status => ?_
  split
  · exact endsIn_raise _
  · by_cases hidle : status = .queued ∨ status = .needs_approval
    · simp only [if_pos hidle]
      refine endsIn_bind fun _ => endsIn_bind fun _ => ?_
      exact endsIn_perform (.inr ⟨status, rfl⟩) _
    · simp only [if_neg hidle]
      exact endsIn_perform (.inl ⟨row.version, rfl⟩) _

/-- After the last call the mission is over exactly when that call has landed, or the mission was over before it. -/
theorem over_after_iff (hx : OfCancel x.call) : Over (x.after exec) ↔ Lands x ∨ Over x.world := by
  constructor
  · intro hover
    by_cases hlands : Lands x
    · exact .inl hlands
    · -- a compare-and-set that finds something else changes nothing
      have hsame : x.after exec = x.world := by
        obtain ⟨w, c, o⟩ := x
        rcases hx with ⟨version, hc⟩ | ⟨status, hc⟩
        · cases hc
          have hversion : w.row.version ≠ version := fun h => hlands ⟨rfl, h⟩
          simp [OwnCall.after, Exec.after, exec, hversion]
        · cases hc
          have hstatus : w.status ≠ status := fun h => hlands ⟨rfl, h⟩
          simp [OwnCall.after, Exec.after, exec, hstatus]
      rw [hsame] at hover
      exact .inr hover
  · rintro (hlands | hover)
    · exact (marked_of_lands hlands).over
    · obtain ⟨w, c, o⟩ := x
      rcases hx with ⟨version, hc⟩ | ⟨status, hc⟩
      · cases hc
        rcases hover with h | h
        · left
          simp only [OwnCall.after, Exec.after, exec]
          split_ifs <;> exact h
        · right
          simp only [OwnCall.after, Exec.after, exec]
          split_ifs
          · simp [MissionRow.set]
          · exact h
      · cases hc
        rcases hover with h | h
        · left
          simp only [OwnCall.after, Exec.after, exec]
          split_ifs
          · rfl
          · exact h
        · right
          simp only [OwnCall.after, Exec.after, exec]
          split_ifs <;> exact h

section

variable [Canonical.Sha256] [TextRules] [Settings] {mission : Mission}

theorem marked_step {w : World} {before : List (CouncilStage × Action CouncilCalls World Outside)}
    {s s' : Pool CouncilCalls World} {a : Action CouncilCalls World Outside}
    (run : Run (council mission) w before s) (step : Step (council mission) s a s') (h : Marked s.stage.world) :
    Marked s'.stage.world := by
  have honly : ∀ p ∈ s.workers, p.Only Call.KeepsCancelled :=
    (run.only (S := council mission) (by
      rintro p ⟨request, rfl⟩
      exact lasting_request mission request)).2
  cases step with
  | start hp => exact h
  | call hi =>
    exact marked_after (honly _ (List.mem_of_getElem? hi)).1 h
  | env hw =>
    obtain ⟨hsame, -⟩ : Ticks s.stage.world _ := hw
    rw [hsame]
    exact h

/-- **A cancellation that returns is kept** if one of its compare-and-sets has landed: the mission is over from then on.
    At the moment it returns, the mission is over just in that case, or where it was over before the last call. -/
theorem cancel_kept {w : World} {steps : List (CouncilStage × Action CouncilCalls World Outside)}
    {s : Pool CouncilCalls World} {i : Nat} (run : Run (council mission) w steps s)
    (hi : (started steps)[i]? = some cancel) (hret : s.workers[i]? = some (.ret ())) :
    ((∃ x ∈ ownCalls i steps, Lands x) → Over s.stage.world) ∧
      ∀ before m c o, steps = before ++ [(m, .call i c o)] →
        (Over s.stage.world ↔ (∃ x ∈ ownCalls i steps, Lands x) ∨ Over m.world) := by
  have hkept : (∃ x ∈ ownCalls i steps, Lands x) → Over s.stage.world := by
    rintro ⟨x, hx, hlands⟩
    exact (run.of_after (fun _ _ _ _ => marked_step) hx (marked_of_lands hlands)).over
  refine ⟨hkept, ?_⟩
  intro before m c o hsteps
  have hamid := run.amid.2.2 i _ _ hi hret
  subst hsteps
  rw [ownCalls_snoc] at hamid hkept ⊢
  simp only [Action.ownCall, if_true, Option.toList_some] at hamid hkept ⊢
  obtain ⟨earlier, x, hx, hcancel⟩ := cancel_endsIn _ _ hamid
  have hlast : (⟨m.world, c, o⟩ : OwnCall CouncilCalls World Outside) = x := by
    have hlasts := congrArg List.getLast? hx
    simpa using hlasts
  subst hlast
  constructor
  · intro hover
    rw [run.world_of_call] at hover
    rcases (over_after_iff hcancel).mp hover with hlands | hbefore
    · exact .inl ⟨_, by simp, hlands⟩
    · exact .inr hbefore
  · rintro (hlands | hbefore)
    · exact hkept hlands
    · rw [run.world_of_call]
      exact (over_after_iff hcancel).mpr (.inr hbefore)

end

/-! ## A cancellation while the mission starts -/

section

attribute [local instance] Canonical.plainHash quietRules defaults

/-- Between what `cancel` reads and what it writes, the dispatched mission starts. -/
def startsMeanwhile : List (Move CouncilCalls World Outside) :=
  [serves (.dispatch "host:1"), serves .cancel] ++ calls 0 1 ++ calls 1 2 ++ calls 0 2 ++ calls 1 1

theorem startsMeanwhile_allowed : ∀ x ∈ startsMeanwhile, x.Allowed (council landingPage) := by
  simp only [startsMeanwhile, List.forall_mem_append, List.forall_mem_cons]
  exact ⟨⟨⟨⟨⟨allowed_serves _, allowed_serves _, by simp⟩, allowed_calls 0 1⟩, allowed_calls 1 2⟩, allowed_calls 0 2⟩,
    allowed_calls 1 1⟩

/-- Neither the flag nor the status is written, and the mission goes on. -/
theorem cancel_lost : ¬ ∀ before m c o s i,
    Run (council landingPage) (landingPage.world 0) (before ++ [(m, .call i c o)]) s →
    (started before)[i]? = some cancel → s.workers[i]? = some (.ret ()) → Over s.stage.world := by
  intro h
  have run := play_run startsMeanwhile_allowed (w := landingPage.world 0)
  have hover := h _ _ _ _ _ 1 (run.snoc (.call (i := 1) (o := {}) rfl)) rfl rfl
  exact absurd hover (by unfold Over; decide +kernel)

/-- Nothing happens between what `cancel` reads and what it writes. -/
def cancelledAtOnce : List (Move CouncilCalls World Outside) :=
  [serves (.dispatch "host:1"), serves .cancel] ++ calls 0 1 ++ calls 1 4

theorem cancelledAtOnce_allowed : ∀ x ∈ cancelledAtOnce, x.Allowed (council landingPage) := by
  simp only [cancelledAtOnce, List.forall_mem_append, List.forall_mem_cons]
  exact ⟨⟨⟨allowed_serves _, allowed_serves _, by simp⟩, allowed_calls 0 1⟩, allowed_calls 1 4⟩

theorem cancel_kept_at_once :
    Over (play (council landingPage) (Pool.init (landingPage.world 0)) cancelledAtOnce).2.stage.world :=
  (cancel_kept (i := 1) (play_run cancelledAtOnce_allowed) rfl rfl).1 (by decide +kernel)

end

end Council
