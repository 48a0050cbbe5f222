import MissionControl.Council.Leases

/-! # What an approval binds

A council state that carries an approval carries the approval of its own gate: the subject of
the approval row is that of the state's requested actions, strategy and risk. The seats keep
this as long as no engine starts over from a state that is decided already. -/

namespace Council

open Canonical
open Interleaving

/-! ## Approvals only move on -/

/-- A later version of an approval: whom and what it binds is the same, and a decision stands. -/
structure Approval.Next (a a' : Approval) : Prop where
  run_id : a'.run_id = a.run_id
  tenant_id : a'.tenant_id = a.tenant_id
  project_id : a'.project_id = a.project_id
  subject_hash : a'.subject_hash = a.subject_hash
  policy_version : a'.policy_version = a.policy_version
  approve : a.status ≠ .pending → a'.approve = a.approve
  status : a.status ≠ .pending → a'.status ≠ .pending

theorem Approval.Next.refl (a : Approval) : a.Next a := by
  constructor <;> first | rfl | exact fun _ => rfl | exact id

variable {a : Approval}

theorem Approval.Next.trans {a' a'' : Approval} (h : a.Next a') (h' : a'.Next a'') : a.Next a'' := by
  refine ⟨h'.run_id.trans h.run_id, h'.tenant_id.trans h.tenant_id, h'.project_id.trans h.project_id,
    h'.subject_hash.trans h.subject_hash, h'.policy_version.trans h.policy_version, ?_, ?_⟩
  · intro hs
    exact (h'.approve (h.status hs)).trans (h.approve hs)
  · intro hs
    exact h'.status (h.status hs)

/-- Every approval is still there, moved on. -/
def Onward (approvals approvals' : List Approval) : Prop :=
  ∀ approval_id a, findApproval approvals approval_id = some a →
    ∃ a', findApproval approvals' approval_id = some a' ∧ a.Next a'

theorem Onward.refl (approvals : List Approval) : Onward approvals approvals :=
  fun _ a h => ⟨a, h, .refl a⟩

variable {approvals : List Approval}

theorem Onward.trans {approvals' approvals'' : List Approval} (h : Onward approvals approvals')
    (h' : Onward approvals' approvals'') : Onward approvals approvals'' := by
  intro approval_id a ha
  obtain ⟨a', ha', hnext⟩ := h approval_id a ha
  obtain ⟨a'', ha'', hnext'⟩ := h' approval_id a' ha'
  exact ⟨a'', ha'', hnext.trans hnext'⟩

variable {approval_id : String}

theorem findApproval_append (h : findApproval approvals approval_id = some a) (more : List Approval) :
    findApproval (approvals ++ more) approval_id = some a := by
  unfold findApproval at h ⊢
  rw [List.find?_append, h]
  rfl

theorem Onward.append (approvals more : List Approval) : Onward approvals (approvals ++ more) :=
  fun _ a h => ⟨a, findApproval_append h more, .refl a⟩

variable {f : Approval → Approval}

theorem findApproval_onApproval (hf : ∀ a, (f a).approval_id = a.approval_id) (approvals : List Approval)
    (approval_id other : String) : findApproval (onApproval approvals approval_id f) other =
      (findApproval approvals other).map fun a => if a.approval_id = approval_id then f a else a := by
  unfold findApproval onApproval
  rw [List.find?_map]
  congr 1
  refine congrArg (fun p => List.find? p approvals) (funext fun a => ?_)
  show ((if a.approval_id = approval_id then f a else a).approval_id == other) = _
  split
  · rw [hf]
  · rfl

theorem Onward.onApproval (hf : ∀ a, (f a).approval_id = a.approval_id)
    (hnext : ∀ a, findApproval approvals approval_id = some a → a.Next (f a)) :
    Onward approvals (onApproval approvals approval_id f) := by
  intro other a ha
  refine ⟨if a.approval_id = approval_id then f a else a, ?_, ?_⟩
  · rw [findApproval_onApproval hf, ha]
    rfl
  · split
    · rename_i hid
      have hother : a.approval_id = other := by
        simpa using List.find?_some ha
      rw [← hid, hother] at hnext
      exact hnext a ha
    · exact .refl a

/-! ## The world moves on -/

/-- What no worker loses sight of: whose mission it is, the approvals, the checkpoints, and that
    the graph has one of its own. -/
structure World.Onward (w w' : World) : Prop where
  mission_id : w'.row.mission_id = w.row.mission_id
  tenant_id : w'.row.tenant_id = w.row.tenant_id
  project_id : w'.row.project_id = w.row.project_id
  engine : w'.row.engine = w.row.engine
  approvals : Council.Onward w.approvals w'.approvals
  checkpoints : ∀ state ∈ w.checkpoints, state ∈ w'.checkpoints
  native : w.native.isSome = true → w'.native.isSome = true

theorem World.Onward.refl (w : World) : w.Onward w :=
  ⟨rfl, rfl, rfl, rfl, .refl _, fun _ h => h, id⟩

variable {w' : World}

theorem World.Onward.trans {w w'' : World} (h : w.Onward w') (h' : w'.Onward w'') : w.Onward w'' :=
  ⟨h'.mission_id.trans h.mission_id, h'.tenant_id.trans h.tenant_id, h'.project_id.trans h.project_id,
    h'.engine.trans h.engine, h.approvals.trans h'.approvals,
    fun state hs => h'.checkpoints state (h.checkpoints state hs), fun hn => h'.native (h.native hn)⟩

theorem onward_stale (approvals : List Approval) (approval_id : String) :
    Onward approvals (onApproval approvals approval_id fun a => { a with status := .stale }) := by
  refine Onward.onApproval (fun _ => rfl) fun a _ => ?_
  exact ⟨rfl, rfl, rfl, rfl, rfl, fun _ => rfl, fun _ => by simp⟩

theorem onward_resolve (reviewer : String) (approve : Bool)
    (h : (findApproval approvals approval_id).any (·.status = .pending) = true) :
    Onward approvals (onApproval approvals approval_id fun a =>
      { a with status := .resolved, reviewer := some reviewer, approve := some approve }) := by
  refine Onward.onApproval (fun _ => rfl) fun a ha => ?_
  have hpending : a.status = .pending := by
    rw [ha] at h
    simpa using h
  exact ⟨rfl, rfl, rfl, rfl, rfl, fun hs => absurd hpending hs, fun hs => absurd hpending hs⟩

/-- **Every call moves the world on.** -/
theorem onward_after (c : Call) (o : Outside) (w : World) : w.Onward (Exec.after exec c o w) := by
  unfold Exec.after
  split
  · rename_i r w' hexec
    cases c with
    | create_approval_request subject_hash =>
      simp only [exec] at hexec
      split at hexec
      · cases hexec
      · cases hexec
        exact ⟨rfl, rfl, rfl, rfl, .append _ _, fun _ h => h, id⟩
    | mark_approval_stale approval_id =>
      cases hexec
      exact ⟨rfl, rfl, rfl, rfl, onward_stale _ _, fun _ h => h, id⟩
    | resolve_approval approval_id reviewer approve =>
      simp only [exec] at hexec
      split at hexec
      · rename_i hpending
        cases hexec
        exact ⟨rfl, rfl, rfl, rfl, onward_resolve reviewer approve hpending, fun _ h => h, id⟩
      · cases hexec
        exact .refl _
    | append_checkpoint state =>
      cases hexec
      exact ⟨rfl, rfl, rfl, rfl, .refl _, fun _ h => List.mem_append_left _ h, id⟩
    | put_state native =>
      cases hexec
      exact ⟨rfl, rfl, rfl, rfl, .refl _, fun _ h => h, fun _ => rfl⟩
    | _ =>
      simp only [exec, failing] at hexec
      (repeat' split at hexec) <;> cases hexec <;>
        exact ⟨rfl, rfl, rfl, rfl, .refl _, fun _ h => h, id⟩
  · exact .refl w

theorem Ticks.onward {w : World} (h : Ticks w w') : w.Onward w' := by
  rw [h.same]
  exact ⟨rfl, rfl, rfl, rfl, .refl _, fun _ h => h, id⟩

/-! ## Starting over -/

/-- The state carries an approval. -/
def CouncilState.approved (state : CouncilState) : Bool := state.decision.any (·.approve)

/-- An exchange that started the mission. -/
def starts : Exchange → Bool
  | ⟨.compare_and_set_run_status .queued .running, .ok true⟩ => true
  | _ => false

/-- An exchange that read a last checkpoint that carries an approval. -/
def readsApproved : Exchange → Bool
  | ⟨.latest_checkpoint_state, .ok (some state)⟩ => state.approved
  | _ => false

/-- The worker that started the mission has read a state that was decided already. -/
def StartedOver (t : List Exchange) : Prop :=
  ∃ t₁ x t₂, t = t₁ ++ x :: t₂ ∧ t₁.any starts = true ∧ readsApproved x = true

theorem StartedOver.append {t : List Exchange} (h : StartedOver t) (t' : List Exchange) :
    StartedOver (t ++ t') := by
  obtain ⟨t₁, x, t₂, rfl, hstarted, hread⟩ := h
  exact ⟨t₁, x, t₂ ++ t', by simp, hstarted, hread⟩

/-- No worker has started over from a decided state. -/
def Clean (m : CouncilStage) : Prop := ∀ i, ¬ StartedOver (m.own i)

variable {m m' m'' : CouncilStage} {i : Nat}

theorem clean_of_append {es : List (Event CouncilCalls)} (hes : m'.history = m.history ++ es)
    (h : Clean m') : Clean m := by
  intro j hover
  apply h j
  have hown : m'.own j = m.own j ++ (Stage.mk m'.world es).own j := by
    unfold Stage.own
    rw [hes, List.filterMap_append]
  rw [hown]
  exact hover.append _

/-- From `m` to `m'` the run has gone on. -/
structure Later (m m' : CouncilStage) : Prop where
  clean : Clean m' → Clean m
  world : m.world.Onward m'.world

theorem Later.refl (m : CouncilStage) : Later m m := ⟨id, .refl _⟩

theorem Later.trans (h : Later m m') (h' : Later m' m'') : Later m m'' :=
  ⟨fun hc => h.clean (h'.clean hc), h.world.trans h'.world⟩

theorem later_perform (c : Call) (o : Outside) : Later m (m.perform exec i c o) :=
  ⟨clean_of_append rfl, onward_after c o m.world⟩

/-! ## Sound states -/

section

variable [Sha256] [TextRules] (mission : Mission)

/-- The row is that of the mission. -/
structure Ours (w : World) : Prop where
  mission_id : w.row.mission_id = mission.mission_id
  tenant_id : w.row.tenant_id = mission.tenant_id
  project_id : w.row.project_id = mission.project_id
  engine : w.row.engine = mission.engine

/-- The graph engine has a checkpoint of its own. -/
def Settled (w : World) : Prop := mission.engine = .langgraph → w.native.isSome = true

/-- **A sound state**: it is the mission's, its risk is as strict as the policy, and an
    approval it carries is that of its own gate. -/
structure Sound (w : World) (state : CouncilState) : Prop where
  mission_id : state.mission_id = mission.mission_id
  requested_actions : state.requested_actions = mission.requested
  risk : ∀ r, state.risk = some r → Stricter (policy_for state) r
  decided : state.approved = false ∨ Settled mission w ∧ ∃ decision a, state.decision = some decision ∧
    findApproval w.approvals decision.approval_id = some a ∧
      a.subject_hash = (gate_request state).subject_hash

/-- The seats before the gate. -/
def Node.early : Node → Bool
  | .george | .fable => true
  | _ => false

/-- A checkpoint of the graph. Before the audit has ended nothing is decided. -/
structure SoundNative (w : World) (native : Native) : Prop where
  values : Sound mission w native.values
  early : native.next.early = true → native.values.approved = false

variable {mission} {w w' : World} {state : CouncilState}

omit [Sha256] [TextRules] in
theorem Ours.onward (h : Ours mission w) (hw : w.Onward w') : Ours mission w' :=
  ⟨hw.mission_id.trans h.mission_id, hw.tenant_id.trans h.tenant_id, hw.project_id.trans h.project_id,
    hw.engine.trans h.engine⟩

omit [Sha256] [TextRules] in
theorem Settled.onward (h : Settled mission w) (hw : w.Onward w') : Settled mission w' :=
  fun hengine => hw.native (h hengine)

theorem Sound.onward (h : Sound mission w state) (hw : w.Onward w') : Sound mission w' state := by
  refine ⟨h.mission_id, h.requested_actions, h.risk, ?_⟩
  rcases h.decided with hopen | ⟨hsettled, decision, a, hdecision, ha, hhash⟩
  · exact .inl hopen
  · obtain ⟨a', ha', hnext⟩ := hw.approvals _ a ha
    exact .inr ⟨hsettled.onward hw, decision, a', hdecision, ha', hnext.subject_hash.trans hhash⟩

variable {native : Native}

theorem SoundNative.onward (h : SoundNative mission w native) (hw : w.Onward w') :
    SoundNative mission w' native :=
  ⟨h.values.onward hw, h.early⟩

/-! ## The discipline -/

/-- Whom an exchange leaves between the check of an approval and the write: newest first. -/
def checking : List Exchange → Option String
  | ⟨.get_approval approval_id, .ok (some a)⟩ :: _ =>
    if a.status = .resolved then some approval_id else none
  | ⟨.consume_approval approval_id _, _⟩ :: ⟨.get_approval approval_id', .ok (some a)⟩ :: _ =>
    if a.status = .resolved ∧ approval_id' = approval_id then some approval_id else none
  | _ => none

/-- The approval worker `i` has found resolved and is about to write under. -/
def Checking (m : CouncilStage) (i : Nat) : Option String := checking (m.own i).reverse

variable (mission)

/-- **A write that is approved.** -/
structure WriteApproved (w : World) (state : CouncilState) (approval_id : String) : Prop where
  requested : state.requested_actions = mission.requested
  listed : ∃ a ∈ mission.requested, a.tool_id = WRITE_SCAFFOLD
  approval : ∃ a, findApproval w.approvals approval_id = some a ∧
    a.run_id = mission.mission_id ∧ a.tenant_id = mission.tenant_id ∧
    a.project_id = mission.project_id ∧ a.approve = some true ∧ a.policy_version = POLICY_VERSION ∧
    a.subject_hash = (gate_request state).subject_hash

/-- What a worker owes when it writes a state, or the scaffold of one. -/
def binds (i : Nat) (c : Call) (m : CouncilStage) : Prop :=
  match c with
  | .append_checkpoint state => Clean m → Sound mission m.world state
  | .put_state native => Clean m → SoundNative mission m.world native
  | .write_scaffold state approval_id =>
    Checking m i = some approval_id ∧ (Clean m → WriteApproved mission m.world state approval_id)
  | _ => True

/-- What holds between any two calls. -/
structure Bound (m : CouncilStage) : Prop where
  ours : Ours mission m.world
  checkpoints : Clean m → ∀ state ∈ m.world.checkpoints, Sound mission m.world state
  native : Clean m → ∀ native, m.world.native = some native → SoundNative mission m.world native

variable {c : Call}

variable {o : Outside}

omit [Sha256] [TextRules] in
theorem mem_checkpoints_after {w : World} {state : CouncilState}
    (h : state ∈ (Exec.after exec c o w).checkpoints) :
    state ∈ w.checkpoints ∨ c = .append_checkpoint state := by
  unfold Exec.after at h
  split at h
  · rename_i r w' hexec
    cases c with
    | append_checkpoint state' =>
      cases hexec
      rcases List.mem_append.mp h with h | h
      · exact .inl h
      · rw [List.mem_singleton] at h
        exact .inr (by rw [h])
    | _ =>
      simp only [exec, failing] at hexec
      (repeat' split at hexec) <;> cases hexec <;> exact .inl h
  · exact .inl h

omit [Sha256] [TextRules] in
theorem native_after {w : World} (h : (Exec.after exec c o w).native = some native) :
    w.native = some native ∨ c = .put_state native := by
  unfold Exec.after at h
  split at h
  · rename_i r w' hexec
    cases c with
    | put_state native' =>
      cases hexec
      cases h
      exact .inr rfl
    | _ =>
      simp only [exec, failing] at hexec
      (repeat' split at hexec) <;> cases hexec <;> exact .inl h
  · exact .inl h

variable {mission}

theorem Bound.perform (h : Bound mission m) (hbinds : binds mission i c m) (o : Outside) :
    Bound mission (m.perform exec i c o) := by
  have hlater : Later m (m.perform exec i c o) := later_perform c o
  refine ⟨h.ours.onward hlater.world, ?_, ?_⟩
  · intro hclean state hstate
    have hbefore := hlater.clean hclean
    rcases mem_checkpoints_after hstate with hold | rfl
    · exact (h.checkpoints hbefore state hold).onward hlater.world
    · exact (hbinds hbefore).onward hlater.world
  · intro hclean native hnative
    have hbefore := hlater.clean hclean
    rcases native_after hnative with hold | rfl
    · exact (h.native hbefore native hold).onward hlater.world
    · exact (hbinds hbefore).onward hlater.world

theorem Bound.env (h : Bound mission m) (hw : Ticks m.world w) : Bound mission { m with world := w } := by
  have hchecks : w.checkpoints = m.world.checkpoints := by rw [hw.same]
  have hnative : w.native = m.world.native := by rw [hw.same]
  refine ⟨h.ours.onward hw.onward, fun hclean state hstate => ?_, fun hclean native hn => ?_⟩
  · rw [hchecks] at hstate
    exact (h.checkpoints hclean state hstate).onward hw.onward
  · rw [hnative] at hn
    exact (h.native hclean native hn).onward hw.onward

theorem binds_of_unbound (h : c.Unbound) : binds mission i c m := by
  cases c <;> first | exact False.elim h | trivial

/-! ## What the seats make of a sound state -/

variable (mission) in
/-- The state is sound. -/
def Good (state : CouncilState) (m : CouncilStage) : Prop := Clean m → Sound mission m.world state

/-- The state carries no approval. -/
def Open (state : CouncilState) (m : CouncilStage) : Prop := Clean m → state.approved = false

theorem Good.later (h : Good mission state m) (hlater : Later m m') : Good mission state m' :=
  fun hclean => (h (hlater.clean hclean)).onward hlater.world

omit [Sha256] [TextRules] in
theorem Open.later (h : Open state m) (hlater : Later m m') : Open state m' :=
  fun hclean => h (hlater.clean hclean)

theorem Good.strategy (h : Good mission state m) (hopen : Open state m) (output : Value) :
    Good mission { state with strategy := some output } m := by
  intro hclean
  have hsound := h hclean
  exact ⟨hsound.mission_id, hsound.requested_actions, hsound.risk, .inl (hopen hclean)⟩

theorem Good.audited (h : Good mission state m) (hopen : Open state m) (output : ModelOutput) :
    Good mission { state with risk := some (merge_model_findings (policy_for state) output) } m := by
  intro hclean
  have hsound := h hclean
  refine ⟨hsound.mission_id, hsound.requested_actions, ?_, .inl (hopen hclean)⟩
  intro r hr
  cases hr
  exact merge_stricter _ _ output

theorem Good.scaffolded (h : Good mission state m) (output : Scaffold) :
    Good mission { state with scaffold := some output } m := by
  intro hclean
  have hsound := h hclean
  exact ⟨hsound.mission_id, hsound.requested_actions, hsound.risk, hsound.decided⟩

theorem Good.ended (h : Good mission state m) (terminal : Option Terminal) :
    Good mission { state with terminal := terminal } m := by
  intro hclean
  have hsound := h hclean
  exact ⟨hsound.mission_id, hsound.requested_actions, hsound.risk, hsound.decided⟩

theorem Good.gated (h : Good mission state m) (gate : Option Gate) :
    Good mission { state with gate := gate } m := by
  intro hclean
  have hsound := h hclean
  exact ⟨hsound.mission_id, hsound.requested_actions, hsound.risk, hsound.decided⟩

section

variable [Settings]

variable (mission) in
/-- Whoever writes a state writes a sound one, and writes a scaffold under its approval. -/
def bindingDiscipline : Discipline (council mission) where
  Pre := binds mission
  Ext := World.Onward
  Inv := Bound mission
  ext_refl := .refl
  ext_trans := .trans
  ext_call o _ _ := onward_after _ o _
  ext_env h := h.onward
  inv_call o h hbinds := h.perform hbinds o
  inv_env h hw := h.env hw

theorem Later.of_rely (h : (bindingDiscipline mission).Rely i m m') : Later m m' := by
  obtain ⟨es, hes, -⟩ := h.others
  exact ⟨clean_of_append hes, h.ext⟩

/-! ## Rules -/

/-- What a program that started in `m` leads to. -/
def Leads {α : Type} (m : CouncilStage) (P : α → CouncilStage → Prop) :
    Except Err α → CouncilStage → Prop :=
  fun r m' => Later m m' ∧ Discipline.Returns (I := CouncilCalls) P r m'

variable (mission) in
/-- Worker `i`, in `m`, runs the program within the discipline; what it returns satisfies `P`. -/
abbrev Keeps {α : Type} (i : Nat) (m : CouncilStage) (p : CouncilProgram α)
    (P : α → CouncilStage → Prop) : Prop :=
  (bindingDiscipline mission).Safe i (Leads m P) p m

variable {α β : Type} {P : α → CouncilStage → Prop} {Q : β → CouncilStage → Prop}

omit [Sha256] [TextRules] [Settings] in
theorem Leads.before {r : Except Err α} (h : Leads m' P r m'') (hlater : Later m m') : Leads m P r m'' :=
  ⟨hlater.trans h.1, h.2⟩

theorem Keeps.ret {a : α} (h : ∀ m', Later m m' → P a m') : Keeps mission i m (.ret a) P :=
  fun _ hm => ⟨.of_rely hm, h _ (.of_rely hm)⟩

theorem Keeps.raise {e : Err} : Keeps mission i m (.raise e) P :=
  fun _ hm => ⟨.of_rely hm, trivial⟩

variable {p : CouncilProgram α}

theorem Keeps.bind {f : α → CouncilProgram β} (hp : Keeps mission i m p P)
    (hf : ∀ a m', Later m m' → P a m' → Keeps mission i m' (f a) Q) : Keeps mission i m (p.bind f) Q :=
  Discipline.Safe.bind hp
    (fun a m' h => (hf a m' h.1 h.2).mono fun _ _ h' => Leads.before h' h.1) fun _ _ h => ⟨h.1, trivial⟩

theorem Keeps.attempt_bind {f : Except Err α → CouncilProgram β} (hp : Keeps mission i m p P)
    (hok : ∀ a m', Later m m' → P a m' → Keeps mission i m' (f (.ok a)) Q)
    (herr : ∀ e m', Later m m' → Keeps mission i m' (f (.error e)) Q) :
    Keeps mission i m ((Program.attempt p).bind f) Q := by
  refine Discipline.Safe.attempt_bind hp fun r m' h => ?_
  cases r with
  | ok a => exact (hok a m' h.1 h.2).mono fun _ _ h' => Leads.before h' h.1
  | error e => exact (herr e m' h.1).mono fun _ _ h' => Leads.before h' h.1

theorem Keeps.call {c : Call} {f : c.Resp → CouncilProgram β}
    (hpre : ∀ m', Later m m' → m'.own i = m.own i → binds mission i c m')
    (hok : ∀ m' o r, Later m m' → m'.own i = m.own i → Bound mission m' →
      exec.answer c o m'.world = .ok r → Keeps mission i (m'.perform exec i c o) (f r) Q) :
    Keeps mission i m ((perform c).bind f) Q := by
  refine Discipline.Safe.call (fun m' h => hpre m' (.of_rely h) h.own) ?_ ?_
  · intro m' o r h hr
    refine (hok m' o r (.of_rely h) h.own h.inv hr).mono fun _ _ h' => ?_
    exact h'.before ((Later.of_rely h).trans (later_perform c o))
  · intro m' o e m'' h _ h'
    exact ⟨((Later.of_rely h).trans (later_perform c o)).trans (.of_rely h'), trivial⟩

theorem Keeps.perform {c : Call} {P : c.Resp → CouncilStage → Prop}
    (hpre : ∀ m', Later m m' → m'.own i = m.own i → binds mission i c m')
    (hok : ∀ m' o r m'', Later m m' → Bound mission m' → exec.answer c o m'.world = .ok r →
      Later (m'.perform exec i c o) m'' → P r m'') : Keeps mission i m (Council.perform c) P := by
  refine Discipline.Safe.perform (fun m' h => hpre m' (.of_rely h) h.own) ?_
  intro m' o m'' h h'
  refine ⟨((Later.of_rely h).trans (later_perform c o)).trans (.of_rely h'), ?_⟩
  show Discipline.Returns (I := CouncilCalls) P (exec.answer c o m'.world) m''
  cases hr : exec.answer c o m'.world with
  | ok r => exact hok m' o r m'' (.of_rely h) h.inv hr (.of_rely h')
  | error e => exact trivial

theorem Keeps.mono {P' : α → CouncilStage → Prop} (hp : Keeps mission i m p P)
    (h : ∀ a m', Later m m' → P a m' → P' a m') : Keeps mission i m p P' := by
  refine Discipline.Safe.mono hp fun r m' hr => ⟨hr.1, ?_⟩
  cases r with
  | ok a => exact h a m' hr.1 hr.2
  | error e => exact trivial

theorem Keeps.unbound (hp : p.Only Call.Unbound) : Keeps mission i m p fun _ _ => True := by
  induction p generalizing m with
  | ret a => exact Keeps.ret fun _ _ => trivial
  | raise e => exact Keeps.raise
  | call c next ih =>
    intro m' hm
    refine ⟨binds_of_unbound hp.1, fun o => Discipline.Safe.mono (ih _ (hp.2 _)) ?_⟩
    intro r m'' h
    exact ⟨((Later.of_rely hm).trans (later_perform c o)).trans h.1, h.2⟩

/-! ## The seats -/

theorem keeps_append {f : Unit → CouncilProgram β} (h : Good mission state m)
    (hf : ∀ m', Later m m' → Keeps mission i m' (f ()) Q) :
    Keeps mission i m ((perform (.append_checkpoint state)).bind f) Q := by
  refine Keeps.call (fun m' hm _ => h.later hm) ?_
  intro m' o _ hm _ _ _
  exact hf _ (hm.trans (later_perform _ o))

theorem keeps_seat_started : Keeps mission i m seat_started fun _ _ => True := by
  apply Keeps.unbound
  refine Program.Only.bind (Program.only_perform trivial) fun row => ?_
  split
  · exact Program.only_raise _
  · exact Program.only_ret _

end

end

end Council
