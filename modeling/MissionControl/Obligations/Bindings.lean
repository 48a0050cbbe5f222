import MissionControl.Obligations.Invalidation

/-! # Bindings and their last cause

A recording compares each cause with that of the branch's latest row, which is the row written last. A row is also
written when it is discharged, so the latest row need not be the one created last.

* **In every sequence of operations** the row created last holds the cause recorded last (`kept_run`).
* **A recording compares with it** when no other row of the event class was written since
  (`recordings_compare`). -/

namespace Obligations


/-! ## The operations -/

inductive BindingOp where
  | record (r : Recording) (stamps : EventClass → Option Stamp)
  | resolve (obligation_id : String) (status : ObligationState) (now : Instant)
  | discharge (run_id : String) (artifact_branch : Option String) (status : ObligationState)
      (nows : String → Option Instant)

/-- The rows, and the cause that was recorded last for each branch and event class. -/
structure Branches where
  ledger : Ledger
  causes : String → String → EventClass → Option String

/-- The causes after a recording. -/
def remember (causes : String → String → EventClass → Option String) (r : Recording) (recorded : List EventClass)
    (run_id artifact_branch : String) (event_class : EventClass) : Option String :=
  if run_id = r.run_id ∧ artifact_branch = r.artifact_branch ∧ event_class ∈ recorded then
    some (r.bindings event_class).cause_k
  else
    causes run_id artifact_branch event_class

def BindingOp.step (b : Branches) : BindingOp → Branches
  | record r stamps =>
    let p := record_run_invalidation_bindings b.ledger r stamps
    ⟨p.ledger, remember b.causes r p.recorded⟩
  | resolve obligation_id status now =>
    match resolve_invalidation_obligation b.ledger obligation_id status now with
    | .error _ => b
    | .ok (_, ledger) => { b with ledger }
  | discharge run_id artifact_branch status nows =>
    { b with ledger := discharge_run_obligations b.ledger run_id artifact_branch status nows }

/-- One operation after another, from no rows. -/
def run (ops : List BindingOp) : Branches := ops.foldl BindingOp.step ⟨.empty, fun _ _ _ => none⟩

/-! ## The row created last -/

variable {ledger ledger' : Ledger} {run_id artifact_branch : String} {e : EventClass} {b : Branches}
  {r : Recording} {stamps : EventClass → Option Stamp}

/-- The cause of the row created last. -/
def lastCause (ledger : Ledger) (run_id artifact_branch : String) (e : EventClass) : Option String :=
  (bound ledger run_id artifact_branch e).getLast?.map Obligation.cause_k

/-- The row created last holds the cause recorded last. -/
def Kept (b : Branches) : Prop :=
  ∀ run_id artifact_branch e, lastCause b.ledger run_id artifact_branch e = b.causes run_id artifact_branch e

theorem lastCause_resolve {obligation_id : String} {status : ObligationState} {now : Instant} {found : Option Obligation}
    (h : resolve_invalidation_obligation ledger obligation_id status now = .ok (found, ledger')) :
    lastCause ledger' run_id artifact_branch e = lastCause ledger run_id artifact_branch e := by
  unfold resolve_invalidation_obligation at h
  split at h
  · cases h
  · cases h
    have hrow : ∀ r : Obligation, ∀ r' : Obligation,
        r' = (if r.obligation_id = obligation_id then r.resolve status now else r) →
        r'.run_id = r.run_id ∧ r'.artifact_branch = r.artifact_branch ∧ r'.event_class = r.event_class ∧
          r'.cause_k = r.cause_k := by
      rintro r r' rfl
      split
      · exact (r.resolve_keeps status now).2
      · exact ⟨rfl, rfl, rfl, rfl⟩
    unfold lastCause bound
    show ((ledger.rows.map _).filter _).getLast?.map _ = _
    rw [List.filter_map, List.getLast?_map, Option.map_map]
    have hcause : (Obligation.cause_k ∘ fun r : Obligation =>
        if r.obligation_id = obligation_id then r.resolve status now else r) = Obligation.cause_k :=
      funext fun r => (hrow r _ rfl).2.2.2
    rw [hcause]
    congr 2
    refine List.filter_congr fun r _ => ?_
    obtain ⟨hrun, hbranch, hclass, -⟩ := hrow r _ rfl
    show decide (_ ∧ _ ∧ _) = decide (_ ∧ _ ∧ _)
    rw [hrun, hbranch, hclass]

theorem lastCause_dischargeEach (status : ObligationState) (nows : String → Option Instant)
    (obligation_ids : List String) (ledger : Ledger) :
    lastCause (dischargeEach status nows obligation_ids ledger) run_id artifact_branch e =
      lastCause ledger run_id artifact_branch e := by
  induction obligation_ids generalizing ledger with
  | nil => rfl
  | cons obligation_id obligation_ids ih =>
    unfold dischargeEach
    split
    · rfl
    · split
      · rfl
      · rename_i ledger' hresolve
        rw [ih]
        exact lastCause_resolve hresolve

theorem lastCause_create {row : Obligation} (h : create_invalidation_obligation ledger row = some ledger') :
    lastCause ledger' run_id artifact_branch e =
      if row.run_id = run_id ∧ row.artifact_branch = artifact_branch ∧ row.event_class = e then some row.cause_k
      else lastCause ledger run_id artifact_branch e := by
  unfold create_invalidation_obligation at h
  split at h
  · cases h
    unfold lastCause bound
    show ((ledger.rows ++ [row]).filter _).getLast?.map _ = _
    rw [List.filter_append]
    split
    · rename_i hrow
      simp [hrow]
    · rename_i hrow
      simp [hrow]
  · cases h

/-! ## A recording -/

/-- No row of the branch and event class was written at or after the moment the one created last was. -/
def NewestLast (ledger : Ledger) (run_id artifact_branch : String) (e : EventClass) : Prop :=
  ∀ before newest, bound ledger run_id artifact_branch e = before ++ [newest] →
    ∀ row ∈ before, row.updated_at < newest.updated_at

theorem NewestLast.latest (h : NewestLast ledger run_id artifact_branch e) :
    latest_branch_obligations ledger run_id artifact_branch e = (bound ledger run_id artifact_branch e).getLast? := by
  unfold latest_branch_obligations
  cases hbound : bound ledger run_id artifact_branch e using List.reverseRecOn with
  | nil => rfl
  | append_singleton before newest =>
    have hnewest : ∀ x ∈ before ++ [newest], x.updated_at ≤ newest.updated_at := by
      intro x hx
      rcases List.mem_append.mp hx with hx | hx
      · exact (h before newest hbound x hx).le
      · rw [List.mem_singleton.mp hx]
    have hkept : ([newest].filter fun r => ∀ x ∈ before ++ [newest], x.updated_at ≤ r.updated_at) = [newest] := by
      rw [List.filter_eq_self]
      intro r hr
      rw [List.mem_singleton.mp hr]
      exact decide_eq_true hnewest
    rw [List.filter_append, hkept, List.getLast?_concat, List.getLast?_concat]

/-- What became of an event class that was gone through: its cause is the one before and no row was created, or one
    was, with the state of a first or of another cause. -/
structure Handled (r : Recording) (current : EventClass → Option Obligation) (created : List Obligation)
    (e : EventClass) : Prop where
  first : current e = none → ∃ row ∈ created, row.event_class = e ∧
    row.state = initialState (r.bindings e).status
  equal : ∀ previous, current e = some previous → previous.cause_k = (r.bindings e).cause_k →
    ∀ row ∈ created, row.event_class ≠ e
  differs : ∀ previous, current e = some previous → previous.cause_k ≠ (r.bindings e).cause_k →
    ∃ row ∈ created, row.event_class = e ∧ row.state = nextState (r.bindings e).status

/-- A recording on its way. -/
structure Recorded (b : Branches) (r : Recording) (current : EventClass → Option Obligation) (p : Progress) : Prop where
  kept : Kept ⟨p.ledger, remember b.causes r p.recorded⟩
  created : ∀ row ∈ p.created, row.event_class ∈ p.recorded
  handled : ∀ e ∈ p.recorded, Handled r current p.created e

variable {current : EventClass → Option Obligation} {p : Progress}

theorem Handled.snoc {created : List Obligation} {row : Obligation} (h : Handled r current created e)
    (hrow : row.event_class ≠ e) : Handled r current (created ++ [row]) e where
  first := fun hnone => by
    obtain ⟨row', hrow', heq⟩ := h.first hnone
    exact ⟨row', List.mem_append_left _ hrow', heq⟩
  equal := by
    intro previous hprevious hcause row' hrow'
    rcases List.mem_append.mp hrow' with hrow' | hrow'
    · exact h.equal previous hprevious hcause row' hrow'
    · rw [List.mem_singleton.mp hrow']
      exact hrow
  differs := fun previous hprevious hcause => by
    obtain ⟨row', hrow', heq⟩ := h.differs previous hprevious hcause
    exact ⟨row', List.mem_append_left _ hrow', heq⟩

theorem remember_snoc {causes : String → String → EventClass → Option String} {recorded : List EventClass}
    {e' : EventClass} : remember causes r (recorded ++ [e]) run_id artifact_branch e' =
      if r.run_id = run_id ∧ r.artifact_branch = artifact_branch ∧ e = e' then some (r.bindings e).cause_k
      else remember causes r recorded run_id artifact_branch e' := by
  unfold remember
  by_cases hbranch : r.run_id = run_id ∧ r.artifact_branch = artifact_branch
  · obtain ⟨rfl, rfl⟩ := hbranch
    by_cases he : e = e'
    · subst he
      simp
    · simp [he, Ne.symm he]
  · have hother : ¬ (run_id = r.run_id ∧ artifact_branch = r.artifact_branch) := fun h => hbranch ⟨h.1.symm, h.2.symm⟩
    rw [if_neg fun h => hother ⟨h.1, h.2.1⟩, if_neg fun h => hbranch ⟨h.1, h.2.1⟩, if_neg fun h => hother ⟨h.1, h.2.1⟩]

/-- **A row is created** for an event class that was not gone through before. -/
theorem Recorded.create (h : Recorded b r current p) (hnew : e ∉ p.recorded) {state : ObligationState}
    (hfirst : current e = none → state = initialState (r.bindings e).status)
    (hdiffers : ∀ previous, current e = some previous → previous.cause_k ≠ (r.bindings e).cause_k ∧
      state = nextState (r.bindings e).status) : Recorded b r current (p.create r stamps e state) := by
  unfold Progress.create
  split
  · exact ⟨h.kept, h.created, h.handled⟩
  · rename_i stamp hstamp
    split
    · exact ⟨h.kept, h.created, h.handled⟩
    · rename_i ledger' hcreate
      refine ⟨?_, ?_, ?_⟩
      · intro run_id artifact_branch e'
        show lastCause ledger' run_id artifact_branch e' = remember b.causes r (p.recorded ++ [e]) _ _ _
        have hkept : lastCause p.ledger run_id artifact_branch e' = remember b.causes r p.recorded run_id artifact_branch e' :=
          h.kept run_id artifact_branch e'
        rw [lastCause_create hcreate, remember_snoc, ← hkept]
        rfl
      · intro row hrow
        rcases List.mem_append.mp hrow with hrow | hrow
        · exact List.mem_append_left _ (h.created row hrow)
        · rw [List.mem_singleton.mp hrow]
          exact List.mem_append_right _ (List.mem_singleton.mpr rfl)
      · intro e' he'
        rcases List.mem_append.mp he' with he' | he'
        · apply (h.handled e' he').snoc
          rintro rfl
          exact hnew he'
        · rw [List.mem_singleton.mp he']
          have hrow : r.row e state stamp ∈ p.created ++ [r.row e state stamp] :=
            List.mem_append_right _ (List.mem_singleton.mpr rfl)
          exact
            { first := fun hnone => ⟨_, hrow, rfl, hfirst hnone⟩
              equal := fun previous hprevious hcause => absurd hcause (hdiffers previous hprevious).1
              differs := fun previous hprevious _ => ⟨_, hrow, rfl, (hdiffers previous hprevious).2⟩ }

/-- **One round** of a recording whose latest rows are those created last. -/
theorem Recorded.recordClass (h : Recorded b r current p) (hb : Kept b) (hnew : e ∉ p.recorded)
    (hcurrent : current e = (bound b.ledger r.run_id r.artifact_branch e).getLast?) :
    Recorded b r current (recordClass r current stamps p e) := by
  unfold Obligations.recordClass
  split
  · exact h
  · split
    · rename_i hnone
      apply h.create hnew (fun _ => rfl)
      intro previous hprevious
      rw [hnone] at hprevious
      cases hprevious
    · rename_i previous hprevious
      split
      · rename_i hcause
        -- no row: the one created last holds this cause already
        have hlast : lastCause p.ledger r.run_id r.artifact_branch e = some (r.bindings e).cause_k := by
          refine (h.kept r.run_id r.artifact_branch e).trans ?_
          show remember b.causes r p.recorded r.run_id r.artifact_branch e = _
          unfold remember
          rw [if_neg fun hmem => hnew hmem.2.2, ← hb r.run_id r.artifact_branch e]
          unfold lastCause
          rw [← hcurrent, hprevious, Option.map_some, hcause]
        refine ⟨?_, fun row hrow => List.mem_append_left _ (h.created row hrow), ?_⟩
        · intro run_id artifact_branch e'
          show lastCause p.ledger run_id artifact_branch e' = remember b.causes r (p.recorded ++ [e]) _ _ _
          rw [remember_snoc]
          split
          · rename_i heq
            obtain ⟨rfl, rfl, rfl⟩ := heq
            exact hlast
          · exact h.kept run_id artifact_branch e'
        · intro e' he'
          rcases List.mem_append.mp he' with he' | he'
          · exact h.handled e' he'
          · rw [List.mem_singleton.mp he']
            exact
              { first := fun hnone => by rw [hprevious] at hnone; cases hnone
                equal := fun _ _ _ row hrow hclass => hnew (hclass ▸ h.created row hrow)
                differs := fun previous' hprevious' hdiffers => by
                  rw [hprevious] at hprevious'
                  cases hprevious'
                  exact absurd hcause hdiffers }
      · rename_i hcause
        apply h.create hnew
        · intro hnone
          rw [hprevious] at hnone
          cases hnone
        · intro previous' hprevious'
          rw [hprevious] at hprevious'
          cases hprevious'
          exact ⟨hcause, rfl⟩

theorem recorded_of_recordClass (p : Progress) (e : EventClass) :
    (recordClass r current stamps p e).recorded ⊆ p.recorded ++ [e] := by
  have hcreate : ∀ state, (p.create r stamps e state).recorded ⊆ p.recorded ++ [e] := by
    intro state
    unfold Progress.create
    split
    · exact List.subset_append_left ..
    · split
      · exact List.subset_append_left ..
      · exact List.Subset.refl _
  unfold recordClass
  split
  · exact List.subset_append_left ..
  · split
    · exact hcreate _
    · split
      · exact List.Subset.refl _
      · exact hcreate _

variable {classes : List EventClass}

theorem Recorded.fold (h : Recorded b r current p) (hb : Kept b) (hnodup : classes.Nodup)
    (hnew : ∀ e ∈ classes, e ∉ p.recorded)
    (hcurrent : ∀ e ∈ classes, current e = (bound b.ledger r.run_id r.artifact_branch e).getLast?) :
    Recorded b r current (classes.foldl (Obligations.recordClass r current stamps) p) := by
  induction classes generalizing p with
  | nil => exact h
  | cons e classes ih =>
    rw [List.nodup_cons] at hnodup
    rw [List.forall_mem_cons] at hnew hcurrent
    apply ih (h.recordClass hb hnew.1 hcurrent.1) hnodup.2
    · intro e' he' hmem
      rcases List.mem_append.mp (recorded_of_recordClass p e hmem) with hmem | hmem
      · exact hnew.2 e' he' hmem
      · rw [List.mem_singleton.mp hmem] at he'
        exact hnodup.1 he'
    · exact hcurrent.2

/-- Every latest row of the branch is the one created last. -/
def Latest (b : Branches) (r : Recording) : Prop :=
  ∀ e, e ≠ .HOOK_GAP → NewestLast b.ledger r.run_id r.artifact_branch e

/-- **A recording**, when every latest row is the one created last. -/
theorem record_spec (hb : Kept b) (hlatest : Latest b r) :
    Recorded b r (latest_branch_obligations b.ledger r.run_id r.artifact_branch)
      (record_run_invalidation_bindings b.ledger r stamps) := by
  have hstart : Recorded b r (latest_branch_obligations b.ledger r.run_id r.artifact_branch) ⟨b.ledger, [], [], false⟩ :=
    { kept := fun run_id artifact_branch e => by
        show lastCause b.ledger run_id artifact_branch e = remember b.causes r [] run_id artifact_branch e
        unfold remember
        rw [if_neg fun h => nomatch h.2.2]
        exact hb run_id artifact_branch e
      created := fun row h => nomatch h
      handled := fun e h => nomatch h }
  refine hstart.fold hb (by decide) (fun e _ h => nomatch h) fun e he => ?_
  apply (hlatest e ?_).latest
  exact of_decide_eq_true (List.mem_filter.mp he).2

/-! ## Sequences of operations -/

/-- The recording compared each cause it went through with the one recorded last: another opened an obligation, and
    an equal one created none. -/
def Compares (b : Branches) (r : Recording) (p : Progress) : Prop :=
  ∀ e ∈ p.recorded, ∀ cause, b.causes r.run_id r.artifact_branch e = some cause →
    ((r.bindings e).cause_k ≠ cause → ∃ row ∈ p.created, row.event_class = e ∧ row.state ∈ OPEN_STATES) ∧
      ((r.bindings e).cause_k = cause → ∀ row ∈ p.created, row.event_class ≠ e)

theorem recorded_ne_hook_gap (hclasses : EventClass.HOOK_GAP ∉ classes) (hp : EventClass.HOOK_GAP ∉ p.recorded) :
    EventClass.HOOK_GAP ∉ (classes.foldl (recordClass r current stamps) p).recorded := by
  induction classes generalizing p with
  | nil => exact hp
  | cons e classes ih =>
    rw [List.mem_cons, not_or] at hclasses
    apply ih hclasses.2
    intro hmem
    rcases List.mem_append.mp (recorded_of_recordClass p e hmem) with hmem | hmem
    · exact hp hmem
    · exact hclasses.1 (List.mem_singleton.mp hmem)

theorem record_compares (hb : Kept b) (hlatest : Latest b r) :
    Compares b r (record_run_invalidation_bindings b.ledger r stamps) := by
  intro e he cause hcause
  have hhandled := (record_spec (r := r) hb hlatest).handled e he
  have hne : e ≠ .HOOK_GAP := by
    rintro rfl
    exact recorded_ne_hook_gap (by decide) List.not_mem_nil he
  rw [← hb r.run_id r.artifact_branch e] at hcause
  obtain ⟨previous, hprevious, rfl⟩ := Option.map_eq_some_iff.mp hcause
  rw [← (hlatest e hne).latest] at hprevious
  constructor
  · intro hdiffers
    obtain ⟨row, hrow, hclass, hstate⟩ := hhandled.differs previous hprevious (Ne.symm hdiffers)
    refine ⟨row, hrow, hclass, ?_⟩
    rw [hstate]
    unfold nextState
    split <;> decide
  · exact fun hequal => hhandled.equal previous hprevious hequal.symm

theorem kept_step (hb : Kept b) (op : BindingOp) (hop : ∀ r stamps, op = .record r stamps → Latest b r) :
    Kept (op.step b) := by
  cases op with
  | record r stamps => exact (record_spec hb (hop r stamps rfl)).kept
  | resolve obligation_id status now =>
    unfold BindingOp.step
    dsimp only
    split
    · exact hb
    · rename_i found ledger hresolve
      exact fun run_id artifact_branch e => (lastCause_resolve hresolve).trans (hb run_id artifact_branch e)
  | discharge run_id artifact_branch status nows =>
    exact fun run_id artifact_branch e => (lastCause_dischargeEach ..).trans (hb run_id artifact_branch e)

/-- **In every sequence** whose recordings find the rows created last to be the latest, these hold the causes
    recorded last. -/
theorem kept_run {ops : List BindingOp}
    (h : ∀ before r stamps after, ops = before ++ .record r stamps :: after → Latest (run before) r) :
    Kept (run ops) := by
  induction ops using List.reverseRecOn with
  | nil =>
    intro run_id artifact_branch e
    rfl
  | append_singleton ops op ih =>
    unfold run
    rw [List.foldl_append]
    apply kept_step
    · apply ih
      rintro before r stamps after rfl
      exact h before r stamps (after ++ [op]) (by simp)
    · rintro r stamps rfl
      exact h ops r stamps [] rfl

/-- **Recordings compare with the cause recorded last**, in every sequence of recordings, resolutions and discharges
    whose recordings find no other row of the branch and event class written since the one created last. -/
theorem recordings_compare {ops : List BindingOp}
    (h : ∀ before r stamps after, ops = before ++ .record r stamps :: after → Latest (run before) r)
    {before after : List BindingOp} {r : Recording} {stamps : EventClass → Option Stamp}
    (hops : ops = before ++ .record r stamps :: after) :
    Compares (run before) r (record_run_invalidation_bindings (run before).ledger r stamps) := by
  apply record_compares
  · apply kept_run
    rintro before' r' stamps' after' rfl
    exact h before' r' stamps' (after' ++ .record r stamps :: after) (by rw [hops]; simp)
  · exact h before r stamps after hops

/-! ### Three causes -/

/-- A recording of this cause of the tool results. -/
def toolResult (cause : String) : Recording where
  tenant_id := "t"
  project_id := "p"
  run_id := "run"
  artifact_branch := "art-protected-run"
  bindings := fun e => ⟨if e = .TOOL_RESULT_CHANGE then cause else "same", .BOUND⟩

def stampsAt (name : String) (now : Instant) (e : EventClass) : Option Stamp := some ⟨name ++ e.value, now⟩

/-- Two causes, one after the other. -/
def twoCauses : List BindingOp :=
  [.record (toolResult "A") (stampsAt "a" 1), .record (toolResult "B") (stampsAt "b" 2)]

/-- A third, and then the obligation of the second is resolved. -/
def lateResolution : List BindingOp :=
  twoCauses ++ [.record (toolResult "C") (stampsAt "c" 3),
    .resolve "bTOOL_RESULT_CHANGE" .DISCHARGED_RECOMPUTE 4]

theorem newestLast_of_length (h : (bound ledger run_id artifact_branch e).length ≤ 1) :
    NewestLast ledger run_id artifact_branch e := by
  intro before newest hbound row hrow
  rw [hbound, List.length_append, List.length_singleton] at h
  have hnil : before = [] := List.length_eq_zero_iff.mp (by omega)
  rw [hnil] at hrow
  cases hrow

/-- The second cause opens an obligation. -/
theorem recordings_compare_two_causes :
    Compares (run [.record (toolResult "A") (stampsAt "a" 1)]) (toolResult "B")
      (record_run_invalidation_bindings (run [.record (toolResult "A") (stampsAt "a" 1)]).ledger (toolResult "B")
        (stampsAt "b" 2)) := by
  have hops : twoCauses = [.record (toolResult "A") (stampsAt "a" 1)] ++
      .record (toolResult "B") (stampsAt "b" 2) :: [] := rfl
  refine recordings_compare ?_ hops
  intro before r stamps after hops e he
  apply newestLast_of_length
  rcases before with _ | ⟨op, _ | ⟨op', before⟩⟩
  · exact Nat.zero_le 1
  · unfold twoCauses at hops
    injection hops with hfirst hrest
    injection hrest with hsecond hrest
    injection hsecond with hr hstamps
    rw [← hfirst, ← hr]
    cases e <;> decide +kernel
  · have hlength := congrArg List.length hops
    simp [twoCauses] at hlength

/-- The third cause, recorded again, opens an obligation. -/
theorem equal_cause_opens :
    (run lateResolution).causes "run" "art-protected-run" .TOOL_RESULT_CHANGE = some "C" ∧
      ((toolResult "C").bindings .TOOL_RESULT_CHANGE).cause_k = "C" ∧
      ¬ Compares (run lateResolution) (toolResult "C")
        (record_run_invalidation_bindings (run lateResolution).ledger (toolResult "C") (stampsAt "d" 5)) := by
  have hcause : (run lateResolution).causes "run" "art-protected-run" .TOOL_RESULT_CHANGE = some "C" := by
    decide +kernel
  refine ⟨hcause, rfl, fun h => ?_⟩
  have hnone := (h .TOOL_RESULT_CHANGE (by decide +kernel) "C" hcause).2 rfl
  have hopened : (record_run_invalidation_bindings (run lateResolution).ledger (toolResult "C")
      (stampsAt "d" 5)).created.any (·.event_class = .TOOL_RESULT_CHANGE) = true := by decide +kernel
  obtain ⟨row, hrow, hclass⟩ := List.any_eq_true.mp hopened
  exact hnone row hrow (of_decide_eq_true hclass)

end Obligations
