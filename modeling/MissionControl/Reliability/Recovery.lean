import MissionControl.Reliability.Audit

/-! # Recovery cases

A case is found by an id that is derived from its tenant, project, operation and reason. A report of
a problem that has a case returns that case as it is, whether it is open or has been resolved, and a
resolution is written whatever the case has become. So what reports and resolutions promise holds in
the histories in which each of them comes to an open case. -/

namespace Reliability

open Canonical (Sha256 canonical_hash)
open Interleaving

/-! ## Reports and resolutions -/

/-- The arguments of `open_recovery_case`. -/
structure Report where
  tenant_id : String
  project_id : String
  operation_id : String
  reason : RecoveryReason
  execution_ref : Option String
  observation_ref : Option String
  idempotency_key : Option String
  evidence_refs : List String

/-- The arguments of `resolve_recovery`. -/
structure Resolution where
  tenant_id : String
  project_id : String
  recovery_id : String
  status : RecoveryStatus
  evidence_refs : List String

/-- The case is that of the report: open, with its four facts and its evidence. -/
structure Report.Stands (q : Report) (case : RecoveryCase) : Prop where
  status : case.status = .OPEN
  tenant_id : case.tenant_id = q.tenant_id
  project_id : case.project_id = q.project_id
  operation_id : case.operation_id = q.operation_id
  reason : case.reason = q.reason
  evidence : ∀ ref ∈ q.evidence_refs, ref ∈ case.evidence_refs

variable [Sha256]

/-- The id of the case with these four facts. -/
def recoveryId (tenant_id project_id operation_id : String) (reason : RecoveryReason) : String :=
  "recovery-" ++ String.ofList ((canonical_hash (.dict [("tenant_id", .str tenant_id),
    ("project_id", .str project_id), ("operation_id", .str operation_id),
    ("reason", .str reason.value)])).toList.take 24)

/-- The id of the case of the report. -/
def Report.recovery_id (q : Report) : String :=
  recoveryId q.tenant_id q.project_id q.operation_id q.reason

/-- The case a first report opens. -/
def Report.case (q : Report) (created_at : Instant) : RecoveryCase where
  recovery_id := q.recovery_id
  tenant_id := q.tenant_id
  project_id := q.project_id
  operation_id := q.operation_id
  reason := q.reason
  execution_ref := q.execution_ref
  observation_ref := q.observation_ref
  idempotency_key := q.idempotency_key
  status := .OPEN
  evidence_refs := q.evidence_refs
  created_at := created_at
  resolved_at := none

theorem Report.stands_case (q : Report) (created_at : Instant) : q.Stands (q.case created_at) :=
  ⟨rfl, rfl, rfl, rfl, rfl, fun _ h => h⟩

/-- The case a resolution leaves. -/
def Resolution.resolved (q : Resolution) (current : RecoveryCase) (resolved_at : Instant) : RecoveryCase :=
  { current with
    status := q.status
    evidence_refs := sortRefs (current.evidence_refs ++ q.evidence_refs).dedup
    resolved_at := some resolved_at }

variable [JsonTime]

def Report.program (q : Report) : Trust RecoveryCase :=
  open_recovery_case q.tenant_id q.project_id q.operation_id q.reason q.execution_ref q.observation_ref
    q.idempotency_key q.evidence_refs

def Resolution.program (q : Resolution) : Trust RecoveryCase :=
  resolve_recovery q.tenant_id q.project_id q.recovery_id q.status q.evidence_refs

variable {w w' : ReliabilityState} {r : Except TrustError RecoveryCase}

omit [JsonTime] in
theorem allOrNothing_ask_transaction (writes : List Write) : AllOrNothing exec (ask (.transaction writes)) := by
  intro w e w' h
  obtain ⟨o, hanswer, rfl⟩ := h.of_perform
  exact Exec.after_of_answer_error hanswer.symm

/-- **A report, alone.** It raises and changes nothing, or it returns the case that is stored under
    its id, or it opens one there. -/
theorem Report.of_program {q : Report} (h : Alone exec q.program w r w') : (∃ e, r = .error e ∧ w' = w) ∨
    (∃ existing, w.recovery.find? q.recovery_id = some existing ∧ r = .ok existing ∧ w' = w) ∨
    ∃ created_at, w.recovery.find? q.recovery_id = none ∧ r = .ok (q.case created_at) ∧
      w'.recovery = w.recovery.put (q.case created_at) := by
  rcases (quiet_assert_scope q.tenant_id q.project_id).of_bind h with ⟨e, he, hw⟩ | ⟨binding, -, h⟩
  · exact .inl ⟨e, he, hw⟩
  rcases quiet_state.of_bind h with ⟨e, he, hw⟩ | ⟨state, hstate, h⟩
  · exact .inl ⟨e, he, hw⟩
  obtain ⟨rfl, -⟩ := of_ask_state hstate
  split at h
  · rename_i existing hfind
    obtain ⟨rfl, rfl⟩ := h.of_ret
    exact .inr (.inl ⟨existing, hfind, rfl, rfl⟩)
  · rename_i hnone
    rcases quiet_utc_now.of_bind h with ⟨e, he, hw⟩ | ⟨created_at, -, h⟩
    · exact .inl ⟨e, he, hw⟩
    rcases h.of_bind with ⟨e, hwrite, rfl⟩ | ⟨⟨⟩, w₁, hwrite, h⟩
    · exact .inl ⟨e, rfl, allOrNothing_ask_transaction _ _ _ _ hwrite⟩
    · obtain ⟨now, rfl⟩ := recovery_transaction hwrite
      obtain ⟨rfl, rfl⟩ := h.of_ret
      exact .inr (.inr ⟨created_at, hnone, rfl, rfl⟩)

/-- **A resolution, alone.** It raises and changes nothing, or it rewrites the case it was asked to
    resolve. -/
theorem Resolution.of_program {q : Resolution} (h : Alone exec q.program w r w') :
    (∃ e, r = .error e ∧ w' = w) ∨
    ∃ current resolved_at, w.recovery.find? q.recovery_id = some current ∧ q.status ≠ .OPEN ∧
      r = .ok (q.resolved current resolved_at) ∧
      w'.recovery = w.recovery.put (q.resolved current resolved_at) := by
  unfold Resolution.program resolve_recovery at h
  split at h
  · obtain ⟨hr, hw⟩ := h.of_raise
    exact .inl ⟨_, hr, hw⟩
  rename_i hterminal
  rcases (quiet_assert_scope q.tenant_id q.project_id).of_bind h with ⟨e, he, hw⟩ | ⟨binding, -, h⟩
  · exact .inl ⟨e, he, hw⟩
  rcases quiet_state.of_bind h with ⟨e, he, hw⟩ | ⟨state, hstate, h⟩
  · exact .inl ⟨e, he, hw⟩
  obtain ⟨rfl, -⟩ := of_ask_state hstate
  split at h
  · obtain ⟨hr, hw⟩ := h.of_raise
    exact .inl ⟨_, hr, hw⟩
  rename_i current hfind
  split at h
  · obtain ⟨hr, hw⟩ := h.of_raise
    exact .inl ⟨_, hr, hw⟩
  rcases quiet_utc_now.of_bind h with ⟨e, he, hw⟩ | ⟨resolved_at, -, h⟩
  · exact .inl ⟨e, he, hw⟩
  rcases h.of_bind with ⟨e, hwrite, rfl⟩ | ⟨⟨⟩, w₁, hwrite, h⟩
  · exact .inl ⟨e, rfl, allOrNothing_ask_transaction _ _ _ _ hwrite⟩
  · obtain ⟨now, rfl⟩ := recovery_transaction hwrite
    obtain ⟨rfl, rfl⟩ := h.of_ret
    exact .inr ⟨current, resolved_at, hfind, hterminal, rfl, rfl⟩

/-! ## Histories -/

inductive RecoveryCall where
  | report (q : Report)
  | resolve (q : Resolution)

def RecoveryCall.program : RecoveryCall → Trust RecoveryCase
  | report q => q.program
  | resolve q => q.program

/-- A call that was made: the state it found, how it ended, and the state it left. -/
structure RecoveryEvent where
  before : ReliabilityState
  call : RecoveryCall
  result : Except TrustError RecoveryCase
  after : ReliabilityState

/-- Calls one after another, in any order. In between the kernel writes other records. -/
inductive History (w : ReliabilityState) : List RecoveryEvent → ReliabilityState → Prop
  | nil : History w [] w
  | call {events : List RecoveryEvent} {w₁ w₂ : ReliabilityState} {c : RecoveryCall}
      {r : Except TrustError RecoveryCase} (h : History w events w₁)
      (hcall : Alone exec c.program w₁ r w₂) : History w (events ++ [⟨w₁, c, r, w₂⟩]) w₂
  | other {events : List RecoveryEvent} {w₁ w₂ : ReliabilityState} (h : History w events w₁)
      (hsame : w₂.recovery = w₁.recovery) : History w events w₂

/-- The states of a history, each as a call left it. -/
def states (w : ReliabilityState) (events : List RecoveryEvent) : List ReliabilityState :=
  w :: events.map RecoveryEvent.after

/-- Every case has the id of its facts. -/
def Derived (w : ReliabilityState) : Prop :=
  ∀ case ∈ w.recovery, case.recovery_id =
    recoveryId case.tenant_id case.project_id case.operation_id case.reason

/-- A resolved case keeps its outcome. -/
def SettledStay (w w' : ReliabilityState) : Prop :=
  ∀ id case, w.recovery.find? id = some case → case.status ≠ .OPEN →
    ∃ case', w'.recovery.find? id = some case' ∧ case'.status = case.status

/-- **A report that returned has its case**: an open one, with its facts and its evidence, is stored. -/
def RecoveryEvent.Reported (e : RecoveryEvent) : Prop :=
  match e.call with
  | .report q => e.result.isOk → ∃ case ∈ e.after.recovery, q.Stands case
  | .resolve _ => True

/-- **A call that returned came to an open case.** The case stored under the report's id, if there
    was one, was the report's own; the case resolved was open, or had the outcome already. -/
def RecoveryEvent.Fits (e : RecoveryEvent) : Prop :=
  e.result.isOk → match e.call with
    | .report q => ∀ existing, e.before.recovery.find? q.recovery_id = some existing → q.Stands existing
    | .resolve q => ∀ existing, e.before.recovery.find? q.recovery_id = some existing →
      existing.status = .OPEN ∨ existing.status = q.status

omit [Sha256] [JsonTime] in
theorem SettledStay.of_eq (h : w'.recovery = w.recovery) : SettledStay w w' := by
  intro id case hfind _
  rw [h]
  exact ⟨case, hfind, rfl⟩

omit [Sha256] [JsonTime] in
theorem SettledStay.trans {w₁ w₂ w₃ : ReliabilityState} (h : SettledStay w₁ w₂) (h' : SettledStay w₂ w₃) :
    SettledStay w₁ w₃ := by
  intro id case hfind hsettled
  obtain ⟨case', hfind', hstatus⟩ := h id case hfind hsettled
  obtain ⟨case'', hfind'', hstatus'⟩ := h' id case' hfind' (hstatus ▸ hsettled)
  exact ⟨case'', hfind'', hstatus'.trans hstatus⟩

omit [JsonTime] in
theorem Derived.put {case : RecoveryCase} (h : Derived w) (hw : w'.recovery = w.recovery.put case)
    (hcase : case.recovery_id = recoveryId case.tenant_id case.project_id case.operation_id case.reason) :
    Derived w' := by
  intro x hx
  rw [hw, Relational.Table.mem_put] at hx
  rcases hx with rfl | ⟨hx, -⟩
  · exact hcase
  · exact h x hx

omit [JsonTime] in
theorem Derived.of_eq (h : Derived w) (hw : w'.recovery = w.recovery) : Derived w' := by
  intro x hx
  rw [hw] at hx
  exact h x hx

/-! ### One call -/

variable {q : Report}

theorem Report.settledStay (h : Alone exec q.program w r w') : SettledStay w w' := by
  rcases q.of_program h with ⟨e, -, rfl⟩ | ⟨existing, -, -, rfl⟩ | ⟨created_at, hnone, -, hput⟩
  · exact .of_eq rfl
  · exact .of_eq rfl
  · intro id case hfind hsettled
    have hne : q.recovery_id ≠ id := by
      rintro rfl
      rw [hnone] at hfind
      cases hfind
    refine ⟨case, ?_, rfl⟩
    rw [hput, Relational.Table.find?_put]
    exact (if_neg hne).trans hfind

theorem Report.derived (hw : Derived w) (h : Alone exec q.program w r w') : Derived w' := by
  rcases q.of_program h with ⟨e, -, rfl⟩ | ⟨existing, -, -, rfl⟩ | ⟨created_at, -, -, hput⟩
  · exact hw
  · exact hw
  · exact hw.put hput rfl

/-- **A report has its case exactly when it came to no other.** -/
theorem Report.reported_iff (hw : Derived w) (h : Alone exec q.program w r w') :
    (⟨w, .report q, r, w'⟩ : RecoveryEvent).Reported ↔ (⟨w, .report q, r, w'⟩ : RecoveryEvent).Fits := by
  refine imp_congr_right fun hok => ?_
  show (∃ case ∈ w'.recovery, q.Stands case) ↔
    ∀ existing, w.recovery.find? q.recovery_id = some existing → q.Stands existing
  rcases q.of_program h with ⟨e, rfl, -⟩ | ⟨existing, hfind, rfl, rfl⟩ | ⟨created_at, hnone, rfl, hput⟩
  · cases hok
  · constructor
    · rintro ⟨case, hcase, hstands⟩ existing' hfind'
      -- a case with these facts is stored under the id of the report
      have hid : case.recovery_id = q.recovery_id := by
        rw [hw case hcase, hstands.tenant_id, hstands.project_id, hstands.operation_id, hstands.reason]
        rfl
      have hcase' := Relational.Table.find?_key hcase
      rw [hid, hfind'] at hcase'
      cases hcase'
      exact hstands
    · intro hstands
      exact ⟨existing, Relational.Table.mem_of_find? hfind, hstands existing hfind⟩
  · refine iff_of_true ⟨q.case created_at, ?_, q.stands_case created_at⟩ fun existing hfind => ?_
    · rw [hput]
      exact Relational.Table.mem_put.mpr (.inl rfl)
    · rw [hnone] at hfind
      cases hfind

variable {q : Resolution}

theorem Resolution.derived (hw : Derived w) (h : Alone exec q.program w r w') : Derived w' := by
  rcases q.of_program h with ⟨e, -, rfl⟩ | ⟨current, resolved_at, hfind, -, -, hput⟩
  · exact hw
  · exact hw.put hput (hw current (Relational.Table.mem_of_find? hfind))

/-- **A resolution changes no outcome exactly when it came to an open case**, or to one that had its
    outcome. -/
theorem Resolution.settledStay_iff (h : Alone exec q.program w r w') :
    SettledStay w w' ↔ (⟨w, .resolve q, r, w'⟩ : RecoveryEvent).Fits := by
  show SettledStay w w' ↔ (r.isOk → ∀ existing, w.recovery.find? q.recovery_id = some existing →
    existing.status = .OPEN ∨ existing.status = q.status)
  rcases q.of_program h with ⟨e, rfl, rfl⟩ | ⟨current, resolved_at, hfind, -, rfl, hput⟩
  · exact iff_of_true (.of_eq rfl) fun hok => nomatch hok
  have hkey : current.recovery_id = q.recovery_id := Relational.Table.key_of_find? hfind
  constructor
  · intro hstay _ existing hexisting
    by_cases hopen : existing.status = .OPEN
    · exact .inl hopen
    · obtain ⟨case', hfind', hstatus⟩ := hstay _ existing hexisting hopen
      rw [hput, Relational.Table.find?_put, if_pos (show (q.resolved current resolved_at).recovery_id = _ from hkey)]
        at hfind'
      cases hfind'
      exact .inr hstatus.symm
  · intro hfits id case hcase hsettled
    rw [hput, Relational.Table.find?_put]
    by_cases hid : q.recovery_id = id
    · subst hid
      refine ⟨_, if_pos hkey, ?_⟩
      rcases hfits rfl case hcase with hopen | hsame
      · exact absurd hopen hsettled
      · exact hsame.symm
    · exact ⟨case, (if_neg (hkey.trans_ne hid)).trans hcase, rfl⟩

/-! ### Whole histories -/

variable {c : RecoveryCall}

theorem RecoveryCall.derived (hw : Derived w) (h : Alone exec c.program w r w') : Derived w' := by
  cases c with
  | report q => exact q.derived hw h
  | resolve q => exact q.derived hw h

/-- **One call** keeps its promise and every outcome exactly when it fits. -/
theorem RecoveryCall.upholds_iff (hw : Derived w) (h : Alone exec c.program w r w') :
    ((⟨w, c, r, w'⟩ : RecoveryEvent).Reported ∧ SettledStay w w') ↔ (⟨w, c, r, w'⟩ : RecoveryEvent).Fits := by
  cases c with
  | report q =>
    rw [← q.reported_iff hw h]
    exact and_iff_left (q.settledStay h)
  | resolve q =>
    rw [← q.settledStay_iff h]
    exact and_iff_right trivial

omit [Sha256] [JsonTime] in
theorem pairwise_settledStay_concat {l : List ReliabilityState} {last w : ReliabilityState}
    (hlast : l.getLast? = some last) :
    (l ++ [w]).Pairwise SettledStay ↔ l.Pairwise SettledStay ∧ SettledStay last w := by
  obtain ⟨l, rfl⟩ := List.getLast?_eq_some_iff.mp hlast
  rw [List.pairwise_append]
  constructor
  · rintro ⟨hl, -, hnew⟩
    exact ⟨hl, hnew last (List.mem_append_right _ (List.mem_singleton_self _)) w (List.mem_singleton_self _)⟩
  · rintro ⟨hl, hnew⟩
    refine ⟨hl, List.pairwise_singleton _ _, fun x hx y hy => ?_⟩
    rw [List.mem_singleton.mp hy]
    rcases List.mem_append.mp hx with hx | hx
    · exact ((List.pairwise_append.mp hl).2.2 x hx last (List.mem_singleton_self _)).trans hnew
    · rw [List.mem_singleton.mp hx]
      exact hnew

theorem History.kept {events : List RecoveryEvent} (hw : Derived w) (h : History w events w') :
    Derived w' ∧ ∃ last, (states w events).getLast? = some last ∧ w'.recovery = last.recovery := by
  induction h with
  | nil => exact ⟨hw, w, rfl, rfl⟩
  | call h hcall ih =>
    refine ⟨RecoveryCall.derived ih.1 hcall, _, ?_, rfl⟩
    unfold states
    rw [List.map_append, ← List.cons_append]
    exact List.getLast?_concat
  | other h hsame ih =>
    obtain ⟨hderived, last, hlast, hlasteq⟩ := ih
    exact ⟨hderived.of_eq hsame, last, hlast, hsame.trans hlasteq⟩

/-- **Recovery cases.** In every history, each report that returned has an open case with its facts
    and its evidence, and no resolved case gets another outcome, exactly when each call that returned
    came to a case of its own that was open. -/
theorem recovery_upheld_iff {events : List RecoveryEvent} (hw : Derived w) (h : History w events w') :
    ((∀ e ∈ events, e.Reported) ∧ (states w events).Pairwise SettledStay) ↔ ∀ e ∈ events, e.Fits := by
  induction h with
  | nil => simp [states]
  | other h hsame ih => exact ih
  | @call events w₁ w₂ c r h hcall ih =>
    obtain ⟨hderived, last, hlast, hsame⟩ := h.kept hw
    have hstates : states w (events ++ [⟨w₁, c, r, w₂⟩]) = states w events ++ [w₂] := by
      unfold states
      rw [List.map_append, ← List.cons_append]
      rfl
    have hstep : SettledStay last w₂ ↔ SettledStay w₁ w₂ :=
      ⟨(SettledStay.of_eq hsame.symm).trans, (SettledStay.of_eq hsame).trans⟩
    rw [hstates, pairwise_settledStay_concat hlast, hstep, List.forall_mem_append, List.forall_mem_append,
      List.forall_mem_singleton, List.forall_mem_singleton, ← ih, ← RecoveryCall.upholds_iff hderived hcall]
    constructor
    · rintro ⟨⟨hreported, hlast⟩, hpairs, hstay⟩
      exact ⟨⟨hreported, hpairs⟩, hlast, hstay⟩
    · rintro ⟨⟨hreported, hpairs⟩, hlast, hstay⟩
      exact ⟨⟨hreported, hlast⟩, hpairs, hstay⟩

/-! ### A problem that recurs -/

/-- An execution that nobody observed. -/
def unobserved (evidence : String) : Report where
  tenant_id := "t"
  project_id := "p"
  operation_id := "operation"
  reason := .EXECUTION_WITHOUT_OBSERVATION
  execution_ref := none
  observation_ref := none
  idempotency_key := none
  evidence_refs := [evidence]

/-- Its case is resolved. -/
def resolvedAs (status : RecoveryStatus) : Resolution where
  tenant_id := "t"
  project_id := "p"
  recovery_id := (unobserved "").recovery_id
  status := status
  evidence_refs := []

/-- The call, with nothing going wrong. -/
def made (w : ReliabilityState) (c : RecoveryCall) : RecoveryEvent :=
  let ended := runAlone exec calm c.program [] w
  ⟨w, c, ended.1, ended.2⟩

theorem History.made {events : List RecoveryEvent} (h : History w events w') (c : RecoveryCall) :
    History w (events ++ [Reliability.made w' c]) (Reliability.made w' c).after :=
  h.call (alone_runAlone exec calm c.program [] w')

omit [Sha256] [JsonTime]

/-- The problem is reported, -/
def reportedOnce : RecoveryEvent := @made Canonical.mixHash epochTime oneProject (.report (unobserved "first"))

/-- it is resolved, -/
def resolvedOnce : RecoveryEvent :=
  @made Canonical.mixHash epochTime reportedOnce.after (.resolve (@resolvedAs Canonical.mixHash .RECONCILED))

/-- it is reported again, -/
def reportedAgain : RecoveryEvent := @made Canonical.mixHash epochTime resolvedOnce.after (.report (unobserved "second"))

/-- and it is resolved otherwise. -/
def resolvedAgain : RecoveryEvent :=
  @made Canonical.mixHash epochTime reportedAgain.after (.resolve (@resolvedAs Canonical.mixHash .ESCALATED))

/-- The outcome of the case. -/
def outcome (w : ReliabilityState) : Option RecoveryStatus :=
  (w.recovery.find? (@resolvedAs Canonical.mixHash .OPEN).recovery_id).map RecoveryCase.status

theorem oneProject_recovery : oneProject.recovery.rows = [] := by decide +kernel

theorem oneProject_derived : @Derived Canonical.mixHash oneProject := by
  intro case hcase
  rw [← Relational.Table.mem_rows, oneProject_recovery] at hcase
  cases hcase

theorem resolvedOnce_history :
    @History Canonical.mixHash epochTime oneProject [reportedOnce, resolvedOnce] resolvedOnce.after :=
  have h := @History.made Canonical.mixHash epochTime _ _ _ (@History.nil Canonical.mixHash epochTime oneProject)
    (.report (unobserved "first"))
  @History.made Canonical.mixHash epochTime _ _ _ h (.resolve (@resolvedAs Canonical.mixHash .RECONCILED))

theorem resolvedAgain_history :
    @History Canonical.mixHash epochTime oneProject [reportedOnce, resolvedOnce, reportedAgain, resolvedAgain] resolvedAgain.after :=
  have h := @History.made Canonical.mixHash epochTime _ _ _ resolvedOnce_history (.report (unobserved "second"))
  @History.made Canonical.mixHash epochTime _ _ _ h (.resolve (@resolvedAs Canonical.mixHash .ESCALATED))

/-- The second report returns the case of the first as it was resolved; no case is open, and the
    second resolution gives it another outcome. -/
theorem recurrence_lost : ∃ w events w', @Derived Canonical.mixHash w ∧
    @History Canonical.mixHash epochTime w events w' ∧ ¬ (∀ e ∈ events, e.Reported) ∧
    ¬ (states w events).Pairwise SettledStay := by
  refine ⟨oneProject, _, _, oneProject_derived, resolvedAgain_history, fun hreported => ?_, fun hpairs => ?_⟩
  · have hall : ∀ x ∈ reportedAgain.after.recovery.rows, x.status = .RECONCILED := by decide +kernel
    have hreturned : reportedAgain.result.isOk := by decide +kernel
    obtain ⟨case, hcase, hstands⟩ := hreported reportedAgain (by simp) hreturned
    have hopen := hstands.status
    rw [hall case hcase] at hopen
    cases hopen
  · have hreconciled : outcome resolvedOnce.after = some .RECONCILED := by decide +kernel
    have hescalated : outcome resolvedAgain.after = some .ESCALATED := by decide +kernel
    have hstay : SettledStay resolvedOnce.after resolvedAgain.after := by
      have hlast := (List.pairwise_cons.mp (List.pairwise_cons.mp hpairs).2).2
      exact (List.pairwise_cons.mp hlast).1 _ (by simp)
    obtain ⟨case, hcase, hstatus⟩ := Option.map_eq_some_iff.mp hreconciled
    obtain ⟨case', hcase', hstatus'⟩ := Option.map_eq_some_iff.mp hescalated
    obtain ⟨case'', hcase'', hsame⟩ := hstay _ case hcase (by rw [hstatus]; decide)
    rw [hcase'] at hcase''
    cases hcase''
    rw [hstatus', hstatus] at hsame
    cases hsame

/-- A first report and its resolution. -/
theorem recovery_upheld_once : (∀ e ∈ [reportedOnce, resolvedOnce], e.Reported) ∧
    (states oneProject [reportedOnce, resolvedOnce]).Pairwise SettledStay := by
  have hopen : ∀ x ∈ resolvedOnce.before.recovery.rows, x.status = .OPEN := by decide +kernel
  refine (@recovery_upheld_iff Canonical.mixHash epochTime _ _ _ oneProject_derived resolvedOnce_history).mpr
    fun e he => ?_
  rw [List.mem_cons, List.mem_singleton] at he
  rcases he with rfl | rfl
  · intro _ existing hfind
    have hmem := Relational.Table.mem_of_find? hfind
    rw [← Relational.Table.mem_rows] at hmem
    replace hmem : existing ∈ oneProject.recovery.rows := hmem
    rw [oneProject_recovery] at hmem
    cases hmem
  · intro _ existing hfind
    have hmem := Relational.Table.mem_of_find? hfind
    exact .inl (hopen existing hmem)

end Reliability
