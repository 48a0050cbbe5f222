import MissionControl.Actions.Operations

/-! # The gateway refines its state machine

The persistence layer writes whatever state it is told to. That every write is
nevertheless an edge of the state machine is a property of the callers, whatever
they interleave with: seen from outside, the table of actions is a map from ids
to states that only the machine's own steps change. -/

namespace Actions

open Canonical (Sha256 plainHash)
open Interleaving (Run Step visited)
open Relational (Table)

variable [Sha256] [Deployment]

/-! ## The state machine -/

/-- Who each action is, and its state. -/
abbrev Machine : Type := String → Option (ActionIdentity × ActionState)

/-- **One step of the machine**: nothing happens, an action is proposed, or one
    action goes along an edge. Who an action is never changes. -/
inductive Machine.Step (M : Machine) : Machine → Prop where
  | stutter : Machine.Step M M
  | propose {x : ActionIdentity} (new : M x.action_id = none) :
      Machine.Step M (Function.update M x.action_id (some (x, .PROPOSED)))
  | move {x : ActionIdentity} {s s' : ActionState} (current : M x.action_id = some (x, s))
      (edge : ActionState.Edge s s') :
      Machine.Step M (Function.update M x.action_id (some (x, s')))

/-- An action stays who it is, and where it is once its state is terminal. -/
def Machine.Stays (M M' : Machine) : Prop :=
  ∀ action_id x s, M action_id = some (x, s) →
    ∃ s', M' action_id = some (x, s') ∧ (s ∈ ActionState.TERMINAL → s' = s)

section
omit [Sha256] [Deployment]

theorem Machine.Stays.refl (M : Machine) : M.Stays M :=
  fun _ _ s h => ⟨s, h, fun _ => rfl⟩

theorem Machine.Stays.trans {M₁ M₂ M₃ : Machine} (h : M₁.Stays M₂) (h' : M₂.Stays M₃) : M₁.Stays M₃ := by
  intro action_id x s hs
  obtain ⟨s', hs', hterm⟩ := h action_id x s hs
  obtain ⟨s'', hs'', hterm'⟩ := h' action_id x s' hs'
  refine ⟨s'', hs'', fun ht => ?_⟩
  have hsame := hterm ht
  rw [← hsame]
  apply hterm'
  rw [hsame]
  exact ht

theorem Machine.Step.stays {M M' : Machine} (h : M.Step M') : M.Stays M' := by
  intro action_id x s hs
  cases h with
  | stutter => exact ⟨s, hs, fun _ => rfl⟩
  | @propose y new =>
    refine ⟨s, ?_, fun _ => rfl⟩
    rw [Function.update_of_ne]
    · exact hs
    · rintro rfl
      rw [new] at hs
      cases hs
  | @move y t t' current edge =>
    by_cases hid : action_id = y.action_id
    · subst hid
      rw [current] at hs
      cases hs
      refine ⟨t', Function.update_self .., fun ht => ?_⟩
      exact absurd edge (ActionState.not_edge_of_terminal ht)
    · refine ⟨s, ?_, fun _ => rfl⟩
      rw [Function.update_of_ne hid]
      exact hs

end

/-! ## The machine of a world -/

/-- What the machine says of the actions of a world. -/
def World.machine (w : World) : Machine := fun action_id =>
  (w.action_requests.find? action_id).map fun r => (r.toActionIdentity, r.state)

variable {w : World}

omit [Sha256] [Deployment] in
theorem World.machine_eq_some {action_id : String} {x : ActionIdentity} {s : ActionState} :
    w.machine action_id = some (x, s) ↔
      ∃ r ∈ w.action_requests, r.action_id = action_id ∧ r.toActionIdentity = x ∧ r.state = s := by
  unfold World.machine
  rw [Option.map_eq_some_iff]
  constructor
  · rintro ⟨r, hr, h⟩
    cases h
    obtain ⟨hmem, hid⟩ := Table.find?_eq_some.mp hr
    exact ⟨r, hmem, hid, rfl, rfl⟩
  · rintro ⟨r, hmem, hid, rfl, rfl⟩
    exact ⟨r, Table.find?_eq_some.mpr ⟨hmem, hid⟩, rfl⟩

variable {w' : World}

variable {r : ActionRow}

omit [Sha256] [Deployment] in
theorem World.machine_update (h : ∀ x, x ∈ w'.action_requests ↔
      x = r ∨ (x ∈ w.action_requests ∧ x.action_id ≠ r.action_id)) :
    w'.machine = Function.update w.machine r.action_id (some (r.toActionIdentity, r.state)) := by
  funext action_id
  apply Option.ext
  rintro ⟨x, s⟩
  rw [World.machine_eq_some]
  by_cases hid : action_id = r.action_id
  · subst hid
    rw [Function.update_self]
    constructor
    · rintro ⟨y, hy, hyid, rfl, rfl⟩
      rcases (h y).mp hy with rfl | ⟨-, hne⟩
      · rfl
      · exact absurd hyid hne
    · intro hx
      cases hx
      exact ⟨r, (h r).mpr (.inl rfl), rfl, rfl, rfl⟩
  · rw [Function.update_of_ne hid, World.machine_eq_some]
    constructor
    · rintro ⟨y, hy, hyid, rfl, rfl⟩
      rcases (h y).mp hy with rfl | ⟨hmem, -⟩
      · exact absurd hyid.symm hid
      · exact ⟨y, hmem, hyid, rfl, rfl⟩
    · rintro ⟨y, hy, hyid, rfl, rfl⟩
      refine ⟨y, (h y).mpr (.inr ⟨hy, ?_⟩), hyid, rfl, rfl⟩
      rw [hyid]
      exact hid

variable {row : ActionRow}

omit [Sha256] [Deployment] in
theorem RowDone.machine (h : RowDone w w' row r) : w.machine.Step w'.machine := by
  have hid : r.action_id = row.action_id := congrArg ActionIdentity.action_id h.identity
  have hrow : w.machine row.action_id = some (row.toActionIdentity, row.state) :=
    World.machine_eq_some.mpr ⟨row, h.mem, rfl, rfl, rfl⟩
  have hafter := World.machine_update (hid ▸ h.requests)
  rw [h.identity] at hafter
  rw [hafter]
  rcases h.legal with hedge | ⟨hs, hs'⟩
  · exact .move hrow hedge
  · -- an annotation leaves the machine where it is
    rw [hs', ← hs, ← hrow, Function.update_eq_self]
    exact .stutter

theorem InsertDone.machine (h : InsertDone w w' row) (hp : Proposed row) : w.machine.Step w'.machine := by
  have hafter : w'.machine = _ := World.machine_update (w := w) (r := row) fun x => by
    rw [h.requests x, or_comm]
    constructor
    · rintro (rfl | hx)
      · exact .inl rfl
      · exact .inr ⟨hx, h.fresh x hx⟩
    · rintro (rfl | ⟨hx, -⟩)
      · exact .inl rfl
      · exact .inr hx
  rw [hafter, hp.state]
  apply Machine.Step.propose
  unfold World.machine
  rw [Table.find?_eq_none.mpr h.fresh]
  rfl

omit [Sha256] [Deployment] in
theorem World.machine_congr (h : w'.action_requests = w.action_requests) : w.machine.Step w'.machine := by
  have hsame : w'.machine = w.machine := by
    unfold World.machine
    rw [h]
  rw [hsame]
  exact .stutter

variable {direct : Prop}

theorem Change.machine {i : Nat} {c : Call} {ans : Plane.Answer c} {m : Stage} (h : Change direct i m w' c ans) :
    m.world.machine.Step w'.machine := by
  cases h with
  | quiet _ rest => exact World.machine_congr (by rw [rest])
  | insert done proposed => exact done.machine proposed
  | move done purpose _ => exact (done.row purpose).machine
  | annotate done state => exact (done.row state).machine
  | reserve done => exact World.machine_congr (by rw [done.rest])
  | settle done => exact World.machine_congr (by rw [done.rest])
  | put done => exact World.machine_congr (by rw [done.rest])
  | alter done => exact World.machine_congr (by rw [done.rest])

/-! ## Every run -/

/-- What the log of each action records: a walk of the machine from its proposal
    to its present state, with one entry for each version. -/
structure Chained (w : World) : Prop where
  rows : ∀ r ∈ w.action_requests, Logged (w.log r.action_id) r.state ∧
    (w.log r.action_id).length = r.version
  entries : ∀ e ∈ w.action_transitions, ∃ r ∈ w.action_requests, r.action_id = e.action_id

theorem Sound.chained (h : Sound w) : Chained w :=
  ⟨fun r hr => ⟨(h.rows r hr).logged, (h.rows r hr).version⟩, h.entries⟩

variable {s : Interleaving.Pool Plane World}
  {steps : List (Stage × Interleaving.Action Plane World (Option Fault))}

theorem run_sound (hw : Fresh w) (run : Run (plane direct) w steps s) : Sound s.stage.world :=
  (Interleaving.Discipline.run_kept (covers direct) (D := discipline direct) hw.sound run).inv

theorem step_machine (hw : Fresh w) {s' : Interleaving.Pool Plane World}
    {a : Interleaving.Action Plane World (Option Fault)} (run : Run (plane direct) w steps s)
    (step : Step (plane direct) s a s') : s.stage.world.machine.Step s'.stage.world.machine := by
  cases step with
  | start hp => exact .stutter
  | @call i c next o hi =>
    have hpre : Pre direct i c s.stage :=
      (Interleaving.Discipline.run_pre (covers direct) (D := discipline direct) hw.sound run hi).2
    exact (hpre.change o).machine
  | env hw => exact World.machine_congr hw.requests

/-- **The gateway refines its state machine.** In every run of any operations in
    any interleaving: at each point the log of every action is a chain of edges
    (and annotations of a completed action) that leads from its proposal to its
    state, with as many entries as its row has versions; every further step is a
    step of the machine; and from each point on every action stays who it is, and
    where it is once that is terminal. -/
theorem gateway_refines_machine {direct : Prop} {w : World} (hw : Fresh w)
    {steps : List (Stage × Interleaving.Action Plane World (Option Fault))}
    {s : Interleaving.Pool Plane World} (run : Run (plane direct) w steps s) :
    (∀ m ∈ visited steps s, Chained m.world) ∧
    (∀ a s', Step (plane direct) s a s' → s.stage.world.machine.Step s'.stage.world.machine) ∧
    (∀ m ∈ visited steps s, m.world.machine.Stays s.stage.world.machine ∧
      m.world.action_transitions <+: s.stage.world.action_transitions) := by
  refine ⟨fun m hm => ?_, fun a s' step => step_machine hw run step, fun m hm => ?_⟩
  · obtain ⟨before, s', run', rfl, -⟩ := run.visited hm
    exact (run_sound hw run').chained
  · refine Interleaving.Discipline.run_later (covers direct) (D := discipline direct)
      (K := fun _ _ => True)
      (R := fun m m' => m.world.machine.Stays m'.world.machine ∧
        m.world.action_transitions <+: m'.world.action_transitions)
      (fun m => ⟨.refl _, List.prefix_refl _⟩)
      (fun m₁ m₂ m₃ h h' => ⟨h.1.trans h'.1, h.2.trans h'.2⟩) hw.sound ?_ ?_ run
      (fun _ _ => trivial) hm
    · intro m i c o hs hpre _
      exact ⟨(Pre.change hpre o).machine.stays, ((Pre.change hpre o).kept hs).later.transitions⟩
    · intro m w' henv
      exact ⟨(World.machine_congr henv.requests).stays, henv.transitions ▸ List.prefix_refl _⟩

/-- **Effects and money are accounted for** in every run: an effect at a provider was made for an action, with the
    payload that was checked, a committed reservation is the one that a verified action names, and no two actions of a
    tenant have one key. -/
theorem effects_accounted {direct : Prop} {w : World} (hw : Fresh w)
    {steps : List (Stage × Interleaving.Action Plane World (Option Fault))}
    {s : Interleaving.Pool Plane World} (run : Run (plane direct) w steps s) : ∀ m ∈ visited steps s,
      (∀ e ∈ m.world.action_sandbox_effects, ∃ r ∈ m.world.action_requests,
        WellFormed r.toActionIdentity ∧ MadeFor r.toActionIdentity e) ∧
      (∀ res ∈ m.world.action_budget_reservations, res.status = .COMMITTED → ∃ r ∈ m.world.action_requests,
        r.budget_reservation_id = some res.reservation_id ∧ r.state ∈ CHECKED ∧ ReservedFor r.toActionIdentity res) ∧
      ∀ r ∈ m.world.action_requests, ∀ r' ∈ m.world.action_requests, r.tenant_id = r'.tenant_id →
        r.idempotency_key = r'.idempotency_key → r = r' := by
  intro m hm
  obtain ⟨before, s', run', rfl, -⟩ := run.visited hm
  have hsound := run_sound hw run'
  refine ⟨fun e he => ?_, fun res hres hstatus => ?_, hsound.keys⟩
  · obtain ⟨r, hr, hmade⟩ := hsound.effects e he
    exact ⟨r, hr, (hsound.rows r hr).wellFormed, hmade⟩
  · obtain ⟨r, hr, hnamed, hchecked⟩ := hsound.committed res hres hstatus
    obtain ⟨res', hres', hid, hreserved⟩ := (hsound.rows r hr).named _ hnamed
    rw [Relational.Table.eq_of_key hres' hres hid] at hreserved
    exact ⟨r, hr, hnamed, hchecked, hreserved⟩

/-! ## Schedules

A deployment without outside texts to scan, and the moves of its runs. -/

/-- A deployment that scans nothing and has no entries of other dispatchers. -/
@[reducible] def fixture : Deployment where
  lower := id
  hostname := id
  check_public_url := some
  has_secrets := fun _ => false
  injection_flags := fun _ => []
  model_dump := fun a => .str a.id
  others := []
  foreign := fun _ hd => absurd hd List.not_mem_nil
  approver_roles := ["reviewer", "admin", "owner"]

abbrev Move : Type := Interleaving.Move Plane World (Option Fault)

/-- The requester. -/
def alice : Principal := ⟨"alice", "t", "editor", ["*"]⟩

/-- The project is registered, and may ask for approvals. -/
def World.opened (w : World) : World :=
  { w with projects := [("p", "t")], action_project_settings := [("p", .REQUEST_APPROVAL)] }

/-- Every approval is given now, each by the reviewer of its subject. -/
def World.approved (w : World) : World :=
  { w with approvals := w.approvals.map fun a => { a with
      status := .resolved, decision := some .approve, reviewer := some a.subject_type
      decided_at := some w.now } }

/-- The clock moves on. -/
def World.waited (t : Nat) (w : World) : World := { w with now := w.now + t }

/-- Worker `i` makes up to `n` calls, without a fault. -/
def calls (i n : Nat) : List Move := List.replicate n (.call i none)

section
omit [Sha256] [Deployment]

theorem outside_opened (w : World) : Outside w w.opened :=
  ⟨Nat.le_refl _, rfl, Nat.le_refl _, rfl, rfl, rfl, rfl, rfl⟩

theorem outside_approved (w : World) : Outside w w.approved :=
  ⟨Nat.le_refl _, rfl, Nat.le_refl _, rfl, rfl, rfl, rfl, rfl⟩

theorem outside_waited (t : Nat) (w : World) : Outside w (w.waited t) :=
  ⟨Nat.le_add_right _ _, rfl, Nat.le_refl _, rfl, rfl, rfl, rfl, rfl⟩

end

theorem allowed_calls (i n : Nat) : ∀ x ∈ calls i n, x.Allowed (plane direct) := by
  intro x hx
  rw [List.eq_of_mem_replicate hx]
  trivial

theorem allowed_start {op : Operation} (h : op.Direct → direct) :
    (.start op.program : Move).Allowed (plane direct) :=
  ⟨op, h, rfl⟩

/-- A draft is proposed, dispatched and completed. -/
def draftSchedule : List Move :=
  [.env World.opened,
    .start (@Operation.program plainHash fixture (.propose alice
      { capability_id := "sandbox.cms.create_draft", project_id := "p", environment := "SANDBOX"
        args := .draft "site" "/home" "Home" "Hello", idempotency_key := "key-0001" }))] ++
  calls 0 20 ++
  [.start (@Operation.program plainHash fixture
    (.dispatch alice (@actionId plainHash "t" "key-0001") none))] ++
  calls 1 30

omit [Sha256] [Deployment] in
theorem allowed_draftSchedule : ∀ x ∈ draftSchedule, x.Allowed (@plane plainHash fixture False) := by
  unfold draftSchedule
  simp only [List.forall_mem_append, List.forall_mem_cons]
  exact ⟨⟨⟨⟨outside_opened, @allowed_start plainHash fixture _ _ id, by simp⟩,
    @allowed_calls plainHash fixture _ _ _⟩, @allowed_start plainHash fixture _ _ id, by simp⟩,
    @allowed_calls plainHash fixture _ _ _⟩

omit [Sha256] [Deployment] in
theorem gateway_refines_machine_draft :
    ∃ steps s, Run (@plane plainHash fixture False) (.fresh .sqlite []) steps s ∧
      s.stage.world.action_requests.rows.map (fun r => (r.state, r.version)) = [(.COMPLETED, 8)] ∧
      (∀ m ∈ visited steps s, Chained m.world) ∧
      (∀ m ∈ visited steps s, m.world.machine.Stays s.stage.world.machine ∧
        m.world.action_transitions <+: s.stage.world.action_transitions) := by
  have run := Interleaving.play_run (S := @plane plainHash fixture False)
    (w := .fresh .sqlite []) allowed_draftSchedule
  obtain ⟨hchained, -, hstays⟩ :=
    @gateway_refines_machine plainHash fixture False _ ⟨rfl, rfl, rfl, rfl⟩ _ _ run
  exact ⟨_, _, run, by decide +kernel, hchained, hstays⟩

omit [Sha256] [Deployment] in
theorem effects_accounted_draft : ∃ steps s, Run (@plane plainHash fixture False) (.fresh .sqlite []) steps s ∧
      s.stage.world.action_sandbox_effects.rows.length = 1 ∧ ∀ e ∈ s.stage.world.action_sandbox_effects,
        ∃ r ∈ s.stage.world.action_requests, @WellFormed plainHash fixture r.toActionIdentity ∧
          @MadeFor plainHash fixture r.toActionIdentity e := by
  have run := Interleaving.play_run (S := @plane plainHash fixture False)
    (w := .fresh .sqlite []) allowed_draftSchedule
  exact ⟨_, _, run, by decide +kernel,
    (@effects_accounted plainHash fixture False _ ⟨rfl, rfl, rfl, rfl⟩ _ _ run _
      (Interleaving.stage_mem_visited _ _)).1⟩

end Actions
