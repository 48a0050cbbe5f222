import MissionControl.Agency.Propagation
import MissionControl.Relational.Reach

/-! # What a propagation writes

It writes the severities it found over whatever status the dependents have, and the
table of transitions is not asked. Within one propagation `invalidated` outweighs
`review_required`; a later one from another artifact knows nothing of that. -/

namespace Agency

open Interleaving
open Relational (Walk)

variable {s : KernelState} {source : String}

/-! ## What the operations write -/

/-- A call as a log records it. -/
abbrev Entry : Type := KernelState × Program.Exchange KernelCalls

/-- The entry writes these statuses to the artifacts of an engagement. -/
def Entry.Writes (e : Entry) (affected : List (String × ArtifactStatus)) (engagement_id : String) :
    Prop :=
  ∃ now, e.2 = ⟨.set_statuses affected now engagement_id, .ok ()⟩

/-- The statuses a propagation from `source` may write in the state `s`: those of the
    paths there are, in its own engagement. -/
def Propagation (s : KernelState) (source : String) (affected : List (String × ArtifactStatus))
    (engagement_id : String) : Prop :=
  (∃ a, s.artifacts.find? source = some a ∧ a.engagement_id = engagement_id) ∧
    ∃ severity : Severities, Exact s source severity ∧
      ∀ d st, (d, st) ∈ affected ↔ severity.get d = some st

/-- The only writes of a log are a propagation's, from the state `s`; it ends in `s`, or
    after those writes. -/
def Propagates (source : String) (s : KernelState) (log : List Entry) (s' : KernelState) : Prop :=
  (∀ e ∈ log, ∀ affected engagement_id, e.Writes affected engagement_id →
    e.1 = s ∧ Propagation s source affected engagement_id) ∧
  (s' = s ∨ ∃ affected now engagement_id,
    (s, ⟨.set_statuses affected now engagement_id, .ok ()⟩) ∈ log ∧
    s' = affected.foldl (KernelState.setStatus · now engagement_id) s)

variable {severity : Severities}

theorem Severities.mem_sorted {d : String} {st : ArtifactStatus} :
    (d, st) ∈ severity.rows.insertionSort (·.1 ≤ ·.1) ↔ severity.get d = some st := by
  rw [List.mem_insertionSort, Relational.Table.mem_rows]
  unfold Severities.get
  rw [Option.map_eq_some_iff]
  constructor
  · intro h
    exact ⟨(d, st), Relational.Table.find?_key h, rfl⟩
  · rintro ⟨⟨d', st'⟩, h, rfl⟩
    obtain ⟨hmem, hkey⟩ := Relational.Table.find?_eq_some.mp h
    cases hkey
    exact hmem

/-- The entry writes no statuses. -/
def Entry.Silent (e : Entry) : Prop := ∀ affected engagement_id, ¬ e.Writes affected engagement_id

theorem silent_of_reads {e : Entry} (h : e.2.1.Reads) : e.Silent := by
  rintro affected engagement_id ⟨now, hwrites⟩
  rw [hwrites] at h
  exact h

variable {fuel : ℕ} {log : List Entry}

theorem silent_propagateFrom {queue visited : List (String × ArtifactStatus)} {s s' : KernelState}
    {r : Except KernelError Severities} (h : Logged exec (propagateFrom fuel queue visited severity) s log r s') :
    ∀ e ∈ log, e.Silent := fun e he =>
  silent_of_reads (h.only (only_propagateFrom fuel queue visited severity) e he)

theorem Propagates.of_silent {s s' : KernelState} (hlog : ∀ e ∈ log, e.Silent) (hs : s' = s) :
    Propagates source s log s' :=
  ⟨fun e he affected engagement_id hwrites => absurd hwrites (hlog e he affected engagement_id), .inl hs⟩

theorem Propagates.append {log₁ log₂ : List Entry} {s s' : KernelState}
    (h₁ : ∀ e ∈ log₁, e.Silent) (h : Propagates source s log₂ s') : Propagates source s (log₁ ++ log₂) s' := by
  refine ⟨fun e he affected engagement_id hwrites => ?_, h.2.imp_right ?_⟩
  · rcases List.mem_append.mp he with he | he
    · exact absurd hwrites (h₁ e he affected engagement_id)
    · exact h.1 e he affected engagement_id hwrites
  · rintro ⟨affected, now, engagement_id, hmem, hs⟩
    exact ⟨affected, now, engagement_id, List.mem_append_right _ hmem, hs⟩

theorem Propagates.snoc {log₁ log₂ : List Entry} {s s' : KernelState}
    (h : Propagates source s log₁ s') (h₂ : ∀ e ∈ log₂, e.Silent) : Propagates source s (log₁ ++ log₂) s' := by
  refine ⟨fun e he affected engagement_id hwrites => ?_, h.2.imp_right ?_⟩
  · rcases List.mem_append.mp he with he | he
    · exact h.1 e he affected engagement_id hwrites
    · exact absurd hwrites (h₂ e he affected engagement_id)
  · rintro ⟨affected, now, engagement_id, hmem, hs⟩
    exact ⟨affected, now, engagement_id, List.mem_append_left _ hmem, hs⟩

theorem Propagates.cons {entry : Entry} {s s' : KernelState} (hentry : entry.Silent)
    (h : Propagates source s log s') : Propagates source s (entry :: log) s' := by
  rw [← List.singleton_append]
  exact .append (by simpa using hentry) h

theorem logged_read {α : Type} {c : Call} (hc : c.Reads) {f : c.Resp → Kernel α} {s s' : KernelState}
    {r : Except KernelError α} (h : Logged exec ((ask c).bind f) s log r s') :
    ((∀ e ∈ log, e.Silent) ∧ s' = s) ∨
      ∃ a now entry log', log = entry :: log' ∧ entry.Silent ∧ c.run now s = .ok (a, s) ∧
        Logged exec (f a) s log' r s' := by
  have hread : ∀ {r s' log}, Logged exec (ask c) s log r s' →
      s' = s ∧ ∃ entry : Entry, log = [entry] ∧ entry.Silent := by
    intro r s' log h
    refine ⟨hc.quiet _ _ _ h.alone, ?_⟩
    obtain ⟨o, -, -, rfl⟩ := h.of_perform
    exact ⟨_, rfl, silent_of_reads hc⟩
  rcases h.of_bind with ⟨e, hfirst, -⟩ | ⟨a, s₁, log₁, log₂, rfl, hfirst, hrest⟩
  · obtain ⟨hs, entry, rfl, hentry⟩ := hread hfirst
    exact .inl ⟨by simpa using hentry, hs⟩
  · obtain ⟨rfl, entry, rfl, hentry⟩ := hread hfirst
    obtain ⟨now, hrun⟩ := of_ask hfirst.alone
    exact .inr ⟨a, now, entry, log₂, rfl, hentry, hrun, hrest⟩

variable {engagement_id : String} {affected : List (String × ArtifactStatus)} {now : Instant}

theorem logged_set_statuses {s s' : KernelState} {r : Except KernelError Unit}
    (h : Logged exec (ask (.set_statuses affected now engagement_id)) s log r s') :
    (s' = s ∧ ∃ e, log = [(s, ⟨.set_statuses affected now engagement_id, .error e⟩)]) ∨
      s' = affected.foldl (KernelState.setStatus · now engagement_id) s ∧
        log = [(s, ⟨.set_statuses affected now engagement_id, .ok ()⟩)] := by
  obtain ⟨o, -, hafter, hlog⟩ := h.of_perform
  cases hfault : o.fault with
  | true =>
    have hexec : exec (.set_statuses affected now engagement_id) o s = .error .fault := if_pos hfault
    rw [Exec.after_of_error hexec] at hafter
    rw [show exec.answer (.set_statuses affected now engagement_id) o s = .error .fault from
      congrArg (Except.map Prod.fst) hexec] at hlog
    exact .inl ⟨hafter, _, hlog⟩
  | false =>
    have hexec : exec (.set_statuses affected now engagement_id) o s =
        .ok ((), affected.foldl (KernelState.setStatus · now engagement_id) s) := by
      unfold exec
      rw [hfault]
      rfl
    rw [Exec.after_of_ok hexec] at hafter
    rw [show exec.answer (.set_statuses affected now engagement_id) o s = .ok () from
      congrArg (Except.map Prod.fst) hexec] at hlog
    exact .inr ⟨hafter, hlog⟩

theorem Propagates.write {s s' : KernelState} {r : Except KernelError Unit}
    (hpropagation : Propagation s source affected engagement_id)
    (h : Logged exec (ask (.set_statuses affected now engagement_id)) s log r s') :
    Propagates source s log s' := by
  rcases logged_set_statuses h with ⟨hs, e, rfl⟩ | ⟨hs, rfl⟩
  · refine ⟨fun entry hentry affected' engagement_id' hwrites => ?_, .inl hs⟩
    obtain rfl := List.mem_singleton.mp hentry
    obtain ⟨now', heq⟩ := hwrites
    cases heq
  · refine ⟨fun entry hentry affected' engagement_id' hwrites => ?_,
      .inr ⟨affected, now, engagement_id, List.mem_singleton.mpr rfl, hs⟩⟩
    obtain rfl := List.mem_singleton.mp hentry
    obtain ⟨now', heq⟩ := hwrites
    cases heq
    exact ⟨rfl, hpropagation⟩

variable (hash_payload : List (String × ArtifactStatus) → String)

/-- **A propagation** writes what it found, in the state it started from. -/
theorem propagate_propagates {s s' : KernelState} {r : Except KernelError (List (String × ArtifactStatus))}
    (h : Logged exec (propagate_artifact_change hash_payload fuel source) s log r s') :
    Propagates source s log s' := by
  rcases logged_read (c := .get_artifact source) trivial h with
    ⟨hlog, hs⟩ | ⟨found, now, entry, log, rfl, hentry, hrun, hfound⟩
  · exact .of_silent hlog hs
  cases hrun
  refine .cons hentry ?_
  split at hfound
  · cases hfound
    exact .of_silent (by simp) rfl
  rename_i artifact hartifact
  rcases hfound.of_bind with ⟨e, hloop, -⟩ | ⟨severity, s₁, log₁, log₂, rfl, hloop, hclock⟩
  · exact .of_silent (silent_propagateFrom hloop)
      (quiet_propagateFrom _ _ _ _ _ _ _ hloop.alone)
  obtain rfl := quiet_propagateFrom _ _ _ _ _ _ _ hloop.alone
  have hexact : Exact s₁ source severity := propagateFrom_exact .init (by simp [Expanded]) hloop.alone
  refine .append (silent_propagateFrom hloop) ?_
  rcases logged_read (c := .now) trivial hclock with
    ⟨hlog, hs⟩ | ⟨now, now', entry', log', rfl, hentry', -, hwrite⟩
  · exact .of_silent hlog hs
  refine .cons hentry' ?_
  have hpropagation : Propagation s₁ source (severity.rows.insertionSort (·.1 ≤ ·.1))
      artifact.engagement_id :=
    ⟨⟨artifact, hartifact, rfl⟩, severity, hexact, fun d st => Severities.mem_sorted⟩
  rcases hwrite.of_bind with ⟨e, hset, -⟩ | ⟨x, s₂, log₃, log₄, rfl, hset, hrecord⟩
  · exact .write hpropagation hset
  -- after the write only the trust kernel is told
  split at hrecord
  · cases hrecord
    exact .snoc (.write hpropagation hset) (by simp)
  · have hlast : (∀ e ∈ log₄, Entry.Silent e) ∧ s' = s₂ := by
      rcases logged_read (c := .record_trust_policy _) trivial hrecord with
        ⟨hlog, hs⟩ | ⟨x, now', entry, log, rfl, hentry, -, hret⟩
      · exact ⟨hlog, hs⟩
      · cases hret
        exact ⟨by simpa using hentry, rfl⟩
    rw [hlast.2]
    exact .snoc (.write hpropagation hset) hlast.1

variable {artifact_id : String}

theorem revise_of_run {base_version : ℕ} {content_hash semantic_fingerprint content_location : Option String}
    {now' : Instant} {s s' : KernelState} (h : Call.run now' s (.revise artifact_id base_version content_hash
      semantic_fingerprint content_location now) = .ok ((), s')) :
    s.revise artifact_id base_version content_hash semantic_fingerprint content_location now = .ok s' := by
  simp only [Call.run] at h
  cases hrevise : s.revise artifact_id base_version content_hash semantic_fingerprint
      content_location now with
  | error e =>
    rw [hrevise] at h
    cases h
  | ok s₁ =>
    rw [hrevise] at h
    cases h
    rfl

theorem silent_aftermath {α : Type} {ids : List String} {ref decision_id : String} {a : α} {s s' : KernelState}
    {r : Except KernelError α} (h : Logged exec ((ask (.settle_impacted ids ref)).bind fun _ =>
      (ask (.record_trust_policy decision_id)).bind fun _ => .ret a) s log r s') :
    (∀ e ∈ log, Entry.Silent e) ∧ s' = s := by
  rcases logged_read (c := .settle_impacted ids ref) trivial h with
    ⟨hlog, hs⟩ | ⟨x, now, entry, log, rfl, hentry, -, hrecord⟩
  · exact ⟨hlog, hs⟩
  rw [List.forall_mem_cons]
  rcases logged_read (c := .record_trust_policy decision_id) trivial hrecord with
    ⟨hlog, hs⟩ | ⟨x, now, entry', log, rfl, hentry', -, hret⟩
  · exact ⟨⟨hentry, hlog⟩, hs⟩
  · cases hret
    exact ⟨⟨hentry, by simpa using hentry'⟩, rfl⟩

/-- **A revision** rewrites its own artifact, and then propagates. -/
theorem revise_propagates {rev : Revision} {s s' : KernelState}
    {r : Except KernelError (Artifact × List (String × ArtifactStatus))}
    (h : Logged exec (record_artifact_revision hash_payload fuel rev) s log r s') :
    ∃ s₁, (s₁ = s ∨ ∃ base_version now, s.revise rev.artifact_id base_version rev.content_hash
        rev.semantic_fingerprint rev.content_location now = .ok s₁) ∧ Propagates rev.artifact_id s₁ log s' := by
  rcases logged_read (c := .get_artifact rev.artifact_id) trivial h with
    ⟨hlog, hs⟩ | ⟨found, now, entry, log, rfl, hentry, hrun, hfound⟩
  · exact ⟨s, .inl rfl, .of_silent hlog hs⟩
  cases hrun
  split at hfound
  · cases hfound
    exact ⟨s, .inl rfl, .cons hentry (.of_silent (by simp) rfl)⟩
  rename_i artifact hartifact
  dsimp only at hfound
  split at hfound
  · cases hfound
    exact ⟨s, .inl rfl, .cons hentry (.of_silent (by simp) rfl)⟩
  rcases logged_read (c := .now) trivial hfound with
    ⟨hlog, hs⟩ | ⟨now, now', entry', log', rfl, hentry', -, hrevise⟩
  · exact ⟨s, .inl rfl, .cons hentry (.of_silent hlog hs)⟩
  have hsilent : ∀ ans, Entry.Silent (s, ⟨.revise rev.artifact_id artifact.version
      rev.content_hash rev.semantic_fingerprint rev.content_location now, ans⟩) := by
    rintro ans affected engagement_id ⟨now, heq⟩
    cases heq
  rcases hrevise.of_bind with ⟨e, hcas, -⟩ | ⟨x, s₁, log₁, log₂, rfl, hcas, hrest⟩
  · obtain ⟨o, hanswer, hafter, rfl⟩ := hcas.of_perform
    rw [Exec.after_of_answer_error hanswer.symm] at hafter
    refine ⟨s, .inl rfl, .cons hentry (.cons hentry' (.of_silent ?_ hafter))⟩
    rw [List.forall_mem_singleton]
    exact hsilent _
  refine ⟨s₁, .inr ?_, .cons hentry (.cons hentry' (.append ?_ ?_))⟩
  · obtain ⟨now', hrun⟩ := of_ask hcas.alone
    exact ⟨artifact.version, now, revise_of_run hrun⟩
  · obtain ⟨o, -, -, rfl⟩ := hcas.of_perform
    rw [List.forall_mem_singleton]
    exact hsilent _
  rcases logged_read (c := .get_artifact rev.artifact_id) trivial hrest with
    ⟨hlog, hs⟩ | ⟨found', now, entry, log, rfl, hentry, hrun, hfound⟩
  · exact .of_silent hlog hs
  refine .cons hentry ?_
  split at hfound
  · cases hfound
    exact .of_silent (by simp) rfl
  rcases hfound.of_bind with ⟨e, hpropagate, -⟩ | ⟨affected, s₂, log₃, log₄, rfl, hpropagate, hlast⟩
  · exact propagate_propagates hash_payload hpropagate
  have hquiet := silent_aftermath hlast
  rw [hquiet.2]
  exact .snoc (propagate_propagates hash_payload hpropagate) hquiet.1

/-! ## Sequences of operations -/

inductive Op where
  | propagate_artifact_change (artifact_id : String)
  | record_artifact_revision (rev : Revision)

/-- The artifact whose change is propagated. -/
def Op.changed : Op → String
  | propagate_artifact_change artifact_id => artifact_id
  | record_artifact_revision rev => rev.artifact_id

/-- The operation is a revision of the artifact. -/
def Op.Revises (artifact_id : String) : Op → Prop
  | propagate_artifact_change _ => False
  | record_artifact_revision rev => rev.artifact_id = artifact_id

def Op.program (fuel : ℕ) : Op → Kernel Unit
  | propagate_artifact_change artifact_id =>
    (Agency.propagate_artifact_change hash_payload fuel artifact_id).void
  | record_artifact_revision rev => (Agency.record_artifact_revision hash_payload fuel rev).void

/-- An operation as it went: how long its search ran at most, its calls, and its end. -/
structure Performed where
  op : Op
  fuel : ℕ
  log : List Entry
  result : Except KernelError Unit

def Performs (s : KernelState) (x : Performed) (s' : KernelState) : Prop :=
  Logged exec (x.op.program hash_payload x.fuel) s x.log x.result s'

/-- Every status that was written is an edge of `ARTIFACT_TRANSITIONS` away from the
    status the artifact had. -/
def Performed.Legal (x : Performed) : Prop :=
  ∀ e ∈ x.log, ∀ affected engagement_id, Entry.Writes e affected engagement_id →
    ∀ a ∈ e.1.artifacts, a.engagement_id = engagement_id →
      ∀ st, (a.artifact_id, st) ∈ affected → st ∈ ARTIFACT_TRANSITIONS a.status

/-- Where a propagation writes, the artifacts of its engagement that a hard path
    reaches may be invalidated, and those that only other paths reach may be sent to
    review. -/
def Performed.Permitted (x : Performed) : Prop :=
  ∀ e ∈ x.log, ∀ affected engagement_id, Entry.Writes e affected engagement_id →
    ∀ a ∈ e.1.artifacts, a.engagement_id = engagement_id →
      (HardReaches e.1 x.op.changed a.artifact_id → .invalidated ∈ ARTIFACT_TRANSITIONS a.status) ∧
      (Reaches e.1 x.op.changed a.artifact_id → ¬ HardReaches e.1 x.op.changed a.artifact_id →
        .review_required ∈ ARTIFACT_TRANSITIONS a.status)

def Invalidated (s : KernelState) (artifact_id : String) : Prop :=
  ∃ a, s.artifacts.find? artifact_id = some a ∧ a.status = .invalidated

variable {hash_payload : List (String × ArtifactStatus) → String} {x : Performed} {s' : KernelState}

theorem Performs.propagates (h : Performs hash_payload s x s') :
    ∃ s₁, (s₁ = s ∨ ∃ rev base_version now, x.op = .record_artifact_revision rev ∧
        s.revise rev.artifact_id base_version rev.content_hash rev.semantic_fingerprint
          rev.content_location now = .ok s₁) ∧ Propagates x.op.changed s₁ x.log s' := by
  obtain ⟨op, fuel, log, result⟩ := x
  cases op with
  | propagate_artifact_change artifact_id =>
    obtain ⟨r, hr⟩ := Logged.of_void h
    exact ⟨s, .inl rfl, propagate_propagates hash_payload hr⟩
  | record_artifact_revision rev =>
    obtain ⟨r, hr⟩ := Logged.of_void h
    obtain ⟨s₁, hs₁, hpropagates⟩ := revise_propagates hash_payload hr
    refine ⟨s₁, hs₁.imp_right ?_, hpropagates⟩
    rintro ⟨base_version, now, hrevise⟩
    exact ⟨rev, base_version, now, rfl, hrevise⟩

theorem Performs.legal_iff (h : Performs hash_payload s x s') : x.Legal ↔ x.Permitted := by
  obtain ⟨s₁, -, hwrites, -⟩ := h.propagates
  constructor
  · intro hlegal e he affected engagement_id hwrite a ha hengagement
    obtain ⟨rfl, -, severity, hexact, hmem⟩ := hwrites e he affected engagement_id hwrite
    obtain ⟨hhard, hreview, -⟩ := hexact a.artifact_id
    refine ⟨fun hpath => hlegal e he _ _ hwrite a ha hengagement _ ?_,
      fun hpath hnot => hlegal e he _ _ hwrite a ha hengagement _ ?_⟩
    · exact (hmem _ _).mpr (hhard.mpr hpath)
    · exact (hmem _ _).mpr (hreview.mpr ⟨hpath, hnot⟩)
  · intro hpermitted e he affected engagement_id hwrite a ha hengagement st hst
    obtain ⟨rfl, -, severity, hexact, hmem⟩ := hwrites e he affected engagement_id hwrite
    obtain ⟨hhard, hreview, honly⟩ := hexact a.artifact_id
    obtain ⟨hinvalidate, hsend⟩ := hpermitted e he _ _ hwrite a ha hengagement
    have hget := (hmem _ _).mp hst
    rcases honly st hget with rfl | rfl
    · exact hinvalidate (hhard.mp hget)
    · exact hsend (hreview.mp hget).1 (hreview.mp hget).2

/-! ## Invalidated artifacts -/

theorem find?_setStatuses {a : Artifact} (ha : s.artifacts.find? artifact_id = some a)
    (hother : ∀ st, (artifact_id, st) ∈ affected → a.engagement_id ≠ engagement_id) :
    (affected.foldl (KernelState.setStatus · now engagement_id) s).artifacts.find? artifact_id = some a := by
  induction affected generalizing s with
  | nil => exact ha
  | cons x affected ih =>
    rw [List.foldl_cons]
    refine ih ?_ fun st hst => hother st (List.mem_cons_of_mem _ hst)
    unfold KernelState.setStatus
    dsimp only
    rw [Relational.Table.find?_update, ha]
    split
    · rename_i hid
      rw [Option.map_some, if_neg (hother x.2 (by rw [hid]; exact List.mem_cons_self))]
    · rfl

theorem Propagates.invalidated {s₁ : KernelState} (h : Propagates source s₁ log s')
    (hlegal : ∀ e ∈ log, ∀ affected engagement_id, Entry.Writes e affected engagement_id →
      ∀ a ∈ e.1.artifacts, a.engagement_id = engagement_id →
        ∀ st, (a.artifact_id, st) ∈ affected → st ∈ ARTIFACT_TRANSITIONS a.status)
    (hinvalidated : Invalidated s₁ artifact_id) : Invalidated s' artifact_id := by
  obtain ⟨hwrites, rfl | ⟨affected, now, engagement_id, hmem, rfl⟩⟩ := h
  · exact hinvalidated
  obtain ⟨a, ha, hstatus⟩ := hinvalidated
  have hwrite : Entry.Writes (s₁, ⟨.set_statuses affected now engagement_id, .ok ()⟩) affected
      engagement_id := ⟨now, rfl⟩
  obtain ⟨-, -, severity, hexact, hseverity⟩ := hwrites _ hmem _ _ hwrite
  refine ⟨a, find?_setStatuses ha fun st hst hengagement => ?_, hstatus⟩
  -- neither severity is an edge away from `invalidated`
  obtain ⟨hrow, rfl⟩ := Relational.Table.find?_eq_some.mp ha
  have hedge := hlegal _ hmem _ _ hwrite a hrow hengagement st hst
  rw [hstatus] at hedge
  rcases (hexact _).2.2 st ((hseverity _ _).mp hst) with rfl | rfl
  · simp [ARTIFACT_TRANSITIONS] at hedge
  · simp [ARTIFACT_TRANSITIONS] at hedge

theorem Performs.invalidated (h : Performs hash_payload s x s') (hlegal : x.Legal)
    (hrevises : ¬ x.op.Revises artifact_id) (hinvalidated : Invalidated s artifact_id) :
    Invalidated s' artifact_id := by
  obtain ⟨s₁, hs₁, hpropagates⟩ := h.propagates
  refine hpropagates.invalidated hlegal ?_
  rcases hs₁ with rfl | ⟨rev, base_version, now, hop, hrevise⟩
  · exact hinvalidated
  · obtain ⟨a, ha, hstatus⟩ := hinvalidated
    have hne : artifact_id ≠ rev.artifact_id := by
      rintro rfl
      rw [hop] at hrevises
      exact hrevises rfl
    refine ⟨a, ?_, hstatus⟩
    unfold KernelState.revise at hrevise
    split at hrevise
    · split at hrevise
      · cases hrevise
        dsimp only
        rw [Relational.Table.find?_update, if_neg hne]
        exact ha
      · cases hrevise
    · cases hrevise

/-- **Invalidation never weakens** exactly where every propagation is permitted what it
    writes: then, and only then, it writes along edges only, and what is invalidated
    stays so until it is revised itself. -/
theorem invalidation_stands {s₀ s : KernelState} {l : List Performed}
    (h : Walk (Performs hash_payload) s₀ l s) :
    ((∀ x ∈ l, x.Legal) ∧ ∀ l₁ l₂ l₃ s₁ s₂, l = l₁ ++ (l₂ ++ l₃) →
      Walk (Performs hash_payload) s₀ l₁ s₁ → Walk (Performs hash_payload) s₁ l₂ s₂ →
      ∀ artifact_id, Invalidated s₁ artifact_id → (∀ x ∈ l₂, ¬ x.op.Revises artifact_id) →
        Invalidated s₂ artifact_id) ↔ ∀ x ∈ l, x.Permitted := by
  have hiff : ∀ x ∈ l, x.Legal ↔ x.Permitted := by
    intro x hx
    obtain ⟨l₁, l₂, rfl⟩ := List.append_of_mem hx
    obtain ⟨s₁, s₂, -, hperforms, -⟩ := Walk.middle.mp h
    exact hperforms.legal_iff
  constructor
  · rintro ⟨hlegal, -⟩ x hx
    exact (hiff x hx).mp (hlegal x hx)
  · intro hpermitted
    have hlegal : ∀ x ∈ l, x.Legal := fun x hx => (hiff x hx).mpr (hpermitted x hx)
    refine ⟨hlegal, ?_⟩
    rintro l₁ l₂ l₃ s₁ s₂ rfl - hwalk artifact_id hinvalidated hrevises
    refine hwalk.invariant (P := fun s => Invalidated s artifact_id) hinvalidated ?_
    intro s x s' hx hs hperforms
    refine hperforms.invalidated (hlegal x ?_) (hrevises x hx) hs
    exact List.mem_append_right _ (List.mem_append_left _ hx)

/-! ## Two propagations -/

/-- An operation in calm circumstances. -/
def performed (op : Op) (s : KernelState) : Performed where
  op
  fuel := 10
  log := logAlone exec ⟨0, false⟩ (op.program (fun _ => "h") 10) [] s
  result := (runAlone exec ⟨0, false⟩ (op.program (fun _ => "h") 10) [] s).1

def afterOp (op : Op) (s : KernelState) : KernelState :=
  (runAlone exec ⟨0, false⟩ (op.program (fun _ => "h") 10) [] s).2

theorem performs_afterOp (op : Op) (s : KernelState) :
    Performs (fun _ => "h") s (performed op s) (afterOp op s) :=
  logged_logAlone _ _ _ _ _

/-- An approved artifact. -/
def approved (artifact_id : String) : Artifact :=
  ⟨artifact_id, "e", "t", "p", 1, .approved, none, none, none, 0⟩

/-- `down` depends on `left`, hard, and on `right`, soft. -/
def twoSources : KernelState where
  artifacts := ((Relational.Table.empty.put (approved "down")).put (approved "left")).put
    (approved "right")
  dependencies := (Relational.Table.empty.put ⟨"down", "left", .hard, 0⟩).put
    ⟨"down", "right", .soft, 0⟩

def left : Op := .propagate_artifact_change "left"

def right : Op := .propagate_artifact_change "right"

/-- The status of an artifact. -/
def statusOf (s : KernelState) (artifact_id : String) : Option ArtifactStatus :=
  (s.artifacts.find? artifact_id).map Artifact.status

/-- A change of `left` invalidates `down`, and then a change of `right` sends it to
    review. -/
theorem invalidation_weakened : ∃ x₁ x₂ s₁ s₂,
    Walk (Performs fun _ => "h") twoSources [x₁, x₂] s₂ ∧ Performs (fun _ => "h") twoSources x₁ s₁ ∧
      (∀ x ∈ [x₁, x₂], ¬ x.op.Revises "down") ∧ statusOf s₁ "down" = some .invalidated ∧
      statusOf s₂ "down" = some .review_required ∧
      .review_required ∉ ARTIFACT_TRANSITIONS .invalidated := by
  refine ⟨performed left twoSources, performed right (afterOp left twoSources),
    afterOp left twoSources, afterOp right (afterOp left twoSources),
    ⟨_, performs_afterOp _ _, _, performs_afterOp _ _, rfl⟩, performs_afterOp _ _, ?_,
    by decide +kernel, by decide +kernel, by decide⟩
  simp [performed, left, right, Op.Revises]

theorem invalidated_iff : Invalidated s artifact_id ↔ statusOf s artifact_id = some .invalidated := by
  unfold Invalidated statusOf
  rw [Option.map_eq_some_iff]

/-- The second propagation was not permitted what it wrote. -/
theorem not_permitted_right :
    ¬ ∀ x ∈ [performed left twoSources, performed right (afterOp left twoSources)], x.Permitted := by
  intro hpermitted
  have hwalk : Walk (Performs fun _ => "h") twoSources
      [performed left twoSources, performed right (afterOp left twoSources)]
      (afterOp right (afterOp left twoSources)) :=
    ⟨_, performs_afterOp _ _, _, performs_afterOp _ _, rfl⟩
  obtain ⟨-, hstays⟩ := (invalidation_stands hwalk).mpr hpermitted
  have hstays := hstays [performed left twoSources]
    [performed right (afterOp left twoSources)] [] _ _ rfl ⟨_, performs_afterOp _ _, rfl⟩
    ⟨_, performs_afterOp _ _, rfl⟩ "down" (invalidated_iff.mpr (by decide +kernel))
    (by simp [performed, right, Op.Revises])
  rw [invalidated_iff] at hstays
  exact absurd hstays (by decide +kernel)

end Agency
