import MissionControl.Council.Frames

/-! # Leases

A drive holds the lease of the mission from its acquisition to its release, and runs one
engine call in between. The lease names a process, not a drive: a second drive of the same
process acquires it again and releases it for both. Where no process drives the mission twice
at once, and no engine call goes on after another drive has taken the lease over, engine
calls exclude each other and a drive releases no lease but its own. -/

namespace Council

open Interleaving

/-- A stage of the council. -/
abbrev CouncilStage : Type := Stage CouncilCalls World

/-- A call of the council with its answer. -/
abbrev Exchange : Type := Program.Exchange CouncilCalls

/-! ## Leases and engine calls -/

/-- The owner and the end of the lease an exchange has taken. -/
def takes : Exchange → Option (String × Instant)
  | ⟨.acquire_lease owner _, .ok (some row)⟩ => some (owner, row.lease_expires_at.getD 0)
  | _ => none

def gives : Exchange → Bool
  | ⟨.release_lease _, _⟩ => true
  | _ => false

def begins : Exchange → Bool
  | ⟨.engine_begins, _⟩ => true
  | _ => false

def ends : Exchange → Bool
  | ⟨.engine_ends, _⟩ => true
  | _ => false

/-- Worker `i` has taken the lease, until then, and has not released it. -/
structure Lease (m : CouncilStage) (i : Nat) (owner : String) (expires : Instant) : Prop where
  taken : ∃ x ∈ m.own i, takes x = some (owner, expires)
  kept : ∀ x ∈ m.own i, gives x = false

/-- An engine call of worker `i` has begun and not ended. -/
structure Running (m : CouncilStage) (i : Nat) : Prop where
  begun : ∃ x ∈ m.own i, begins x = true
  on : ∀ x ∈ m.own i, ends x = false

/-- An engine call that runs while its lease is unexpired. -/
structure RunsInTime (m : CouncilStage) (i : Nat) : Prop where
  running : Running m i
  unexpired : ∃ owner expires, Lease m i owner expires ∧ m.world.clock ≤ expires

instance (m : CouncilStage) (i : Nat) (owner : String) (expires : Instant) :
    Decidable (Lease m i owner expires) :=
  decidable_of_iff ((∃ x ∈ m.own i, takes x = some (owner, expires)) ∧ ∀ x ∈ m.own i, gives x = false)
    ⟨fun h => ⟨h.1, h.2⟩, fun h => ⟨h.taken, h.kept⟩⟩

instance (m : CouncilStage) (i : Nat) : Decidable (Running m i) :=
  decidable_of_iff ((∃ x ∈ m.own i, begins x = true) ∧ ∀ x ∈ m.own i, ends x = false)
    ⟨fun h => ⟨h.1, h.2⟩, fun h => ⟨h.begun, h.on⟩⟩

instance (m : CouncilStage) (i : Nat) : Decidable (RunsInTime m i) :=
  decidable_of_iff (Running m i ∧ (∀ x ∈ m.own i, gives x = false) ∧
      ∃ x ∈ m.own i, ∃ lease ∈ takes x, m.world.clock ≤ lease.2) <| by
    constructor
    · intro ⟨hrun, hkept, x, hx, ⟨owner, expires⟩, htaken, hin⟩
      exact ⟨hrun, owner, expires, ⟨⟨x, hx, htaken⟩, hkept⟩, hin⟩
    · intro ⟨hrun, owner, expires, ⟨⟨x, hx, htaken⟩, hkept⟩, hin⟩
      exact ⟨hrun, hkept, x, hx, (owner, expires), htaken, hin⟩

/-- The worker that took the lease last. -/
def holder (history : List (Event CouncilCalls)) : Option Nat :=
  (history.reverse.find? fun e => (takes ⟨e.call, e.answer⟩).isSome).map (·.worker)

theorem holder_snoc (history : List (Event CouncilCalls)) (e : Event CouncilCalls) : holder (history ++ [e]) =
      if (takes ⟨e.call, e.answer⟩).isSome then some e.worker else holder history := by
  unfold holder
  rw [List.reverse_append, List.reverse_singleton, List.singleton_append, List.find?_cons]
  cases (takes ⟨e.call, e.answer⟩).isSome <;> rfl

variable {x : Exchange}

theorem takes_of_plain (h : x.1.Plain) : takes x = none := by
  obtain ⟨c, r⟩ := x
  cases c <;> first | rfl | exact Bool.noConfusion (show true = false from h)

theorem gives_of_plain (h : x.1.Plain) : gives x = false := by
  obtain ⟨c, r⟩ := x
  cases c <;> first | rfl | exact Bool.noConfusion (show true = false from h)

theorem begins_of_plain (h : x.1.Plain) : begins x = false := by
  obtain ⟨c, r⟩ := x
  cases c <;> first | rfl | exact Bool.noConfusion (show true = false from h)

/-! ## What a worker has made of its lease -/

variable {m m' : CouncilStage} {i j : Nat} {owner owner' : String} {expires expires' : Instant}

theorem Lease.of_own (h : Lease m i owner expires) (hown : m'.own i = m.own i) : Lease m' i owner expires := by
  constructor
  · rw [hown]
    exact h.taken
  · rw [hown]
    exact h.kept

theorem Running.of_own (h : Running m i) (hown : m'.own i = m.own i) : Running m' i := by
  constructor
  · rw [hown]
    exact h.begun
  · rw [hown]
    exact h.on

theorem Lease.after {t : List Exchange} (h : Lease m i owner expires) (hown : m'.own i = m.own i ++ t)
    (ht : ∀ x ∈ t, gives x = false) : Lease m' i owner expires := by
  constructor
  · obtain ⟨x, hx, htaken⟩ := h.taken
    refine ⟨x, ?_, htaken⟩
    rw [hown]
    exact List.mem_append_left _ hx
  · rw [hown]
    intro x hx
    rcases List.mem_append.mp hx with hx | hx
    · exact h.kept x hx
    · exact ht x hx

theorem forall_own {p : Exchange → Prop} {t : List Exchange} (h : ∀ x ∈ m.own i, p x)
    (hown : m'.own i = m.own i ++ t) (ht : ∀ x ∈ t, p x) : ∀ x ∈ m'.own i, p x := by
  rw [hown]
  intro x hx
  rcases List.mem_append.mp hx with hx | hx
  · exact h x hx
  · exact ht x hx

theorem not_running (h : ∀ x ∈ m.own i, begins x = false) : ¬ Running m i := by
  intro hrun
  obtain ⟨x, hx, hbegins⟩ := hrun.begun
  rw [h x hx] at hbegins
  cases hbegins

/-! ## The discipline -/

/-- What a worker owes when it makes a call of a drive. -/
def duty (i : Nat) (c : Call) (m : CouncilStage) : Prop :=
  match c with
  | .acquire_lease .. => ∀ x ∈ m.own i, x.1.Plain
  | .release_lease owner => (∃ expires, Lease m i owner expires) ∧ ¬ Running m i
  | .engine_begins => ∃ owner expires, Lease m i owner expires
  | _ => True

variable {c : Call}

theorem duty_of_plain (h : c.Plain) : duty i c m := by
  cases c <;> first | exact Bool.noConfusion (show true = false from h) | trivial

section

variable [Canonical.Sha256] [TextRules] [Settings] (mission : Mission)

/-- A worker takes the lease once, and gives it back when its engine call has ended. -/
def leaseDiscipline : Discipline (council mission) where
  Pre := duty
  Ext _ _ := True
  Inv _ := True
  ext_refl _ := trivial
  ext_trans _ _ := trivial
  ext_call _ _ _ := trivial
  ext_env _ := trivial
  inv_call _ _ _ := trivial
  inv_env _ _ := trivial

variable {mission}

theorem safe_plain {α : Type} {p : CouncilProgram α} (hp : Plainly p) :
    (leaseDiscipline mission).Safe i ((leaseDiscipline mission).Ends Call.Plain i m fun _ _ => True)
      p m :=
  (Discipline.Safe.only (fun _ _ _ h => duty_of_plain h) (fun _ h => h) hp).mono
    fun _ _ h => ⟨h.1, trivial⟩

theorem went_plain {R : Call → Prop} {p : Exchange → Prop} (h : ∀ x ∈ m.own i, p x)
    (hw : (leaseDiscipline mission).Went R i m m') (hp : ∀ x : Exchange, R x.1 → p x) :
    ∀ x ∈ m'.own i, p x := by
  obtain ⟨t, hown, ht⟩ := hw.own
  exact forall_own h hown fun x hx => hp x (ht x hx)

theorem went_lease (h : Lease m i owner expires)
    (hw : (leaseDiscipline mission).Went Call.Plain i m m') : Lease m' i owner expires := by
  obtain ⟨t, hown, ht⟩ := hw.own
  exact h.after hown fun x hx => gives_of_plain (ht x hx)

/-- A drive that holds the lease and is not in an engine call. -/
def Drives (owner : String) (i : Nat) (m : CouncilStage) : Prop :=
  (∃ expires, Lease m i owner expires) ∧ ¬ Running m i

variable {run_engine : Engine → Option CouncilState → CouncilProgram EngineStep} {row : MissionRow}

theorem safe_engine {state : Option CouncilState} (hengine : ∀ engine state, Plainly (run_engine engine state))
    (hlease : Lease m i owner expires) : (leaseDiscipline mission).Safe i (fun _ m' => Drives owner i m')
      ((Program.attempt (run_engine row.engine state)).bind fun ended =>
        (perform .engine_ends).bind fun _ => settle ended) m := by
  refine Discipline.Safe.attempt_bind (safe_plain (hengine _ _)) ?_
  intro ended m₁ ⟨h₁, _⟩
  refine Discipline.Safe.call (fun _ _ => trivial) ?_ ?_
  · intro m₂ o _ h₂ ho
    have hown := Stage.own_perform (council mission).exec m₂ i .engine_ends o
    have hlease₂ := ((went_lease hlease h₁).of_own h₂.own).after hown (by simp [gives])
    have hended : ¬ ∀ x ∈ (m₂.perform (council mission).exec i .engine_ends o).own i, ends x = false := by
      rw [hown]
      simp [ends]
    refine (safe_plain (durably_settle ended).plainly).mono ?_
    intro r m₃ ⟨h₃, _⟩
    refine ⟨⟨_, went_lease hlease₂ h₃⟩, fun hrun => hended fun x hx => ?_⟩
    obtain ⟨t, hown₃, -⟩ := h₃.own
    refine hrun.on x ?_
    rw [hown₃]
    exact List.mem_append_left _ hx
  · intro m₂ o e m₃ h₂ he
    cases he

variable {pre : CouncilProgram Bool}

theorem safe_driven (hengine : ∀ engine state, Plainly (run_engine engine state)) (hpre : Plainly pre)
    (hlease : Lease m i owner expires) (hnone : ∀ x ∈ m.own i, begins x = false) :
    (leaseDiscipline mission).Safe i (fun _ m' => Drives owner i m') (driven row run_engine pre) m := by
  have hbefore {m₁ : CouncilStage} (h : (leaseDiscipline mission).Went Call.Plain i m m₁) : Drives owner i m₁ :=
    ⟨⟨_, went_lease hlease h⟩, not_running (went_plain hnone h fun x hx => begins_of_plain hx)⟩
  refine Discipline.Safe.bind (safe_plain hpre) ?_ fun e m₁ h₁ => hbefore h₁.1
  intro going m₁ ⟨h₁, _⟩
  cases going with
  | false => exact fun m₂ h₂ => hbefore (h₁.trans h₂.went)
  | true =>
    refine Discipline.Safe.bind (safe_plain (Plainly.perform rfl)) ?_
      fun e m₂ h₂ => hbefore (h₁.trans h₂.1)
    intro _ m₂ ⟨h₂, _⟩
    refine Discipline.Safe.bind (safe_plain (Plainly.perform rfl)) ?_
      fun e m₃ h₃ => hbefore ((h₁.trans h₂).trans h₃.1)
    intro state m₃ ⟨h₃, _⟩
    have hlease₃ := went_lease hlease ((h₁.trans h₂).trans h₃)
    refine Discipline.Safe.call (fun m₄ h₄ => ⟨_, _, hlease₃.of_own h₄.own⟩) ?_ ?_
    · intro m₄ o _ h₄ _
      have hown := Stage.own_perform (council mission).exec m₄ i .engine_begins o
      exact safe_engine hengine ((hlease₃.of_own h₄.own).after hown (by simp [gives]))
    · intro m₄ o e m₅ h₄ he
      cases he

/-- **A drive**: it takes the lease, and gives back what it has taken. -/
theorem safe_drive {owner : String} (hengine : ∀ engine state, Plainly (run_engine engine state))
    (hpre : Plainly pre) (hplain : ∀ x ∈ m.own i, x.1.Plain) :
    (leaseDiscipline mission).Safe i (Discipline.Anything (α := Unit))
      (_drive owner run_engine pre) m := by
  have hplain' {m₁ : CouncilStage} (h : (leaseDiscipline mission).Rely i m m₁) : ∀ x ∈ m₁.own i, x.1.Plain := by
    rw [h.own]
    exact hplain
  refine Discipline.Safe.call (fun m₁ h₁ => hplain' h₁) ?_ fun _ _ _ _ _ _ _ => trivial
  intro m₁ o row h₁ ho
  cases row with
  | none => exact fun _ _ => trivial
  | some row =>
    have hown := Stage.own_perform (council mission).exec m₁ i (.acquire_lease owner lease_ttl) o
    rw [ho] at hown
    have hlease : Lease (m₁.perform (council mission).exec i (.acquire_lease owner lease_ttl) o) i owner
        (row.lease_expires_at.getD 0) := by
      constructor
      · refine ⟨⟨.acquire_lease owner lease_ttl, .ok (some row)⟩, ?_, rfl⟩
        rw [hown]
        exact List.mem_append_right _ List.mem_cons_self
      · refine forall_own (fun x hx => gives_of_plain (hplain' h₁ x hx)) hown ?_
        simp [gives]
    have hnone := forall_own (fun x hx => begins_of_plain (hplain' h₁ x hx)) hown
      (by simp [begins])
    refine Discipline.Safe.attempt_bind (safe_driven hengine hpre hlease hnone) ?_
    intro ended m₂ hdrives
    refine Discipline.Safe.call ?_ (fun m₃ o' r h₃ _ => ?_) fun _ _ _ _ _ _ _ => trivial
    · intro m₃ h₃
      obtain ⟨⟨expires, hlease₂⟩, hrun⟩ := hdrives
      exact ⟨⟨expires, hlease₂.of_own h₃.own⟩, fun h => hrun (h.of_own h₃.own.symm)⟩
    · cases ended with
      | ok _ => exact fun _ _ => trivial
      | error e => exact fun _ _ => trivial

theorem safe_before {α : Type} {p : CouncilProgram α} {f : α → CouncilProgram Unit} (hp : Plainly p)
    (hplain : ∀ x ∈ m.own i, x.1.Plain) (hf : ∀ a m', (∀ x ∈ m'.own i, x.1.Plain) →
      (leaseDiscipline mission).Safe i (Discipline.Anything (α := Unit)) (f a) m') :
    (leaseDiscipline mission).Safe i (Discipline.Anything (α := Unit)) (p.bind f) m :=
  Discipline.Safe.bind (safe_plain hp)
    (fun a m' h => hf a m' (went_plain hplain h.1 fun _ hx => hx)) fun _ _ _ => trivial

theorem safe_of_plainly {p : CouncilProgram Unit} (hp : Plainly p) :
    (leaseDiscipline mission).Safe i (Discipline.Anything (α := Unit)) p m :=
  (safe_plain hp).mono fun _ _ _ => trivial

theorem safe_execute {owner : String} (hplain : ∀ x ∈ m.own i, x.1.Plain) :
    (leaseDiscipline mission).Safe i (Discipline.Anything (α := Unit)) (execute owner) m :=
  safe_drive plainly_start (Plainly.perform rfl) hplain

theorem safe_driveRecover {owner : String} (hplain : ∀ x ∈ m.own i, x.1.Plain) :
    (leaseDiscipline mission).Safe i (Discipline.Anything (α := Unit)) (driveRecover owner) m :=
  safe_drive plainly_recover (Interleaving.Program.only_ret _) hplain

theorem safe_resumeWith {owner : String} {approval : Approval} (hplain : ∀ x ∈ m.own i, x.1.Plain) :
    (leaseDiscipline mission).Safe i (Discipline.Anything (α := Unit))
      (resumeWith owner row approval) m := by
  refine safe_before (Plainly.perform rfl) hplain fun used m₁ h₁ => ?_
  cases used with
  | false => exact fun _ _ => trivial
  | true =>
    refine safe_before (orderly_startResuming approval).durably.plainly h₁ fun moved m₂ h₂ => ?_
    cases moved with
    | false => exact fun _ _ => trivial
    | true =>
      refine safe_before (Plainly.perform rfl) h₂ fun _ m₃ h₃ => ?_
      exact safe_drive (fun engine => plainly_resume engine _) (Program.only_ret _) h₃

theorem safe_resume {owner : String} (hplain : ∀ x ∈ m.own i, x.1.Plain) :
    (leaseDiscipline mission).Safe i (Discipline.Anything (α := Unit)) (resume owner) m := by
  refine safe_before (Plainly.perform rfl) hplain fun row m₁ h₁ => ?_
  refine safe_before (Plainly.perform rfl) h₁ fun status m₂ h₂ => ?_
  split
  · exact fun _ _ => trivial
  · refine safe_before (orderly_rowApproval row).durably.plainly h₂ fun approval m₃ h₃ => ?_
    cases approval with
    | none => exact fun _ _ => trivial
    | some approval =>
      dsimp only
      split
      · exact fun _ _ => trivial
      · exact fun _ _ => trivial
      · refine safe_before (Plainly.perform rfl) h₃ fun state m₄ h₄ => ?_
        split
        · exact safe_of_plainly (Plainly.call rfl fun _ => Program.only_raise _)
        · split
          · exact fun _ _ => trivial
          · exact safe_resumeWith h₄

theorem safe_retry {owner : String} (hplain : ∀ x ∈ m.own i, x.1.Plain) :
    (leaseDiscipline mission).Safe i (Discipline.Anything (α := Unit)) (retry owner) m := by
  refine safe_before (Plainly.perform rfl) hplain fun row m₁ h₁ => ?_
  refine safe_before (Plainly.perform rfl) h₁ fun status m₂ h₂ => ?_
  split
  · exact fun _ _ => trivial
  · refine safe_before (Plainly.perform rfl) h₂ fun moved m₃ h₃ => ?_
    cases moved with
    | false => exact fun _ _ => trivial
    | true =>
      refine safe_before (Plainly.perform rfl) h₃ fun _ m₄ h₄ => ?_
      exact safe_driveRecover h₄

theorem safe_resubmit {owner : String} {status : RunStatus} (hplain : ∀ x ∈ m.own i, x.1.Plain) :
    (leaseDiscipline mission).Safe i (Discipline.Anything (α := Unit))
      (if status = .queued then execute owner else driveRecover owner) m := by
  split
  · exact safe_execute hplain
  · exact safe_driveRecover hplain

theorem safe_recover {owner : String} (hplain : ∀ x ∈ m.own i, x.1.Plain) :
    (leaseDiscipline mission).Safe i (Discipline.Anything (α := Unit)) (recover owner) m := by
  refine safe_before (Plainly.perform rfl) hplain fun row m₁ h₁ => ?_
  refine safe_before (Plainly.perform rfl) h₁ fun status m₂ h₂ => ?_
  split
  · exact fun _ _ => trivial
  · refine safe_before (Plainly.perform rfl) h₂ fun now m₃ h₃ => ?_
    split
    · exact safe_resubmit h₃
    · exact fun _ _ => trivial

theorem safe_recover_stale {owner : String} (hplain : ∀ x ∈ m.own i, x.1.Plain) :
    (leaseDiscipline mission).Safe i (Discipline.Anything (α := Unit)) (recover_stale owner) m := by
  refine safe_before (Plainly.perform rfl) hplain fun now m₁ h₁ => ?_
  refine safe_before (Plainly.perform rfl) h₁ fun stale m₂ h₂ => ?_
  cases stale with
  | false => exact fun _ _ => trivial
  | true =>
    refine safe_before (Plainly.perform rfl) h₂ fun status m₃ h₃ => ?_
    exact safe_resubmit h₃

theorem lease_covers : (leaseDiscipline mission).Covers := by
  intro p hp i m hown
  obtain ⟨request, rfl⟩ := hp
  have hplain : ∀ x ∈ m.own i, x.1.Plain := by
    rw [hown]
    simp
  cases request with
  | dispatch owner =>
    exact safe_before (Plainly.perform rfl) hplain fun _ _ h => safe_execute h
  | execute owner => exact safe_execute hplain
  | resume owner => exact safe_resume hplain
  | cancel => exact safe_of_plainly orderly_cancel.durably.plainly
  | retry owner => exact safe_retry hplain
  | recover owner => exact safe_recover hplain
  | recover_stale owner => exact safe_recover_stale hplain
  | decide approval_id reviewer approve =>
    exact safe_of_plainly (orderly_decide_approval approval_id reviewer approve).durably.plainly

end

/-! ## Exclusion -/

/-- Every drive of the process has released the lease. -/
def Free (m : CouncilStage) (owner : String) : Prop :=
  ∀ e ∈ m.history, (takes ⟨e.call, e.answer⟩).any (·.1 == owner) = true →
    ∃ x ∈ m.own e.worker, gives x = true

theorem Free.not_lease (h : Free m owner) : ¬ Lease m i owner expires := by
  intro hlease
  obtain ⟨⟨c, r⟩, hx, htaken⟩ := hlease.taken
  obtain ⟨y, hy, hgiven⟩ := h ⟨i, c, r⟩ (Stage.mem_own.mp hx) (by
    show (takes ⟨c, r⟩).any (·.1 == owner) = true
    rw [htaken]
    exact beq_self_eq_true owner)
  rw [hlease.kept y hy] at hgiven
  cases hgiven

/-- The process a call wants the lease for. -/
def wants : Call → Option String
  | .acquire_lease owner _ => some owner
  | _ => none

/-- No process takes the lease while an earlier drive of it has not released it, and no engine
    call goes on, after its lease has expired, when another drive has taken the lease. -/
def Steady (m : CouncilStage) : Action CouncilCalls World Outside → Prop
  | .call i c _ =>
    (∀ owner ∈ wants c, mayAcquire m.world.row m.world.clock owner = true → Free m owner) ∧
      (Running m i → RunsInTime m i ∨ holder m.history = some i)
  | _ => True

instance (m : CouncilStage) (owner : String) : Decidable (Free m owner) :=
  inferInstanceAs (Decidable (∀ e ∈ m.history, _ → ∃ x ∈ m.own e.worker, gives x = true))

instance (m : CouncilStage) : (a : Action CouncilCalls World Outside) → Decidable (Steady m a)
  | .call i c _ => inferInstanceAs (Decidable
      ((∀ owner ∈ wants c, mayAcquire m.world.row m.world.clock owner = true → Free m owner) ∧
        (Running m i → RunsInTime m i ∨ holder m.history = some i)))
  | .start _ => .isTrue trivial
  | .env _ => .isTrue trivial

/-- **What every steady run keeps.** -/
structure Leased (m : CouncilStage) : Prop where
  /-- Drives that hold a lease are of different processes. -/
  owners : ∀ {i j owner e e'}, Lease m i owner e → Lease m j owner e' → i = j
  /-- A worker takes the lease once. -/
  once : ∀ {i owner owner' e e'}, Lease m i owner e → Lease m i owner' e' → owner = owner' ∧ e = e'
  /-- An unexpired lease is the one on the row. -/
  row : ∀ {i owner e}, Lease m i owner e → m.world.clock ≤ e →
    m.world.row.lease_owner = some owner ∧ m.world.row.lease_expires_at = some e
  /-- The lease on the row was taken last. -/
  last : ∀ {i owner e}, Lease m i owner e → m.world.row.lease_owner = some owner →
    holder m.history = some i
  /-- An engine call runs under a lease. -/
  running : ∀ {i}, Running m i → ∃ owner e, Lease m i owner e

theorem Leased.init (w : World) : Leased ⟨w, []⟩ := by
  have hnone {i owner e} : ¬ Lease ⟨w, []⟩ i owner e := by
    intro h
    obtain ⟨x, hx, -⟩ := h.taken
    cases hx
  refine ⟨fun h => absurd h hnone, fun h => absurd h hnone, fun h => absurd h hnone,
    fun h => absurd h hnone, fun h => ?_⟩
  obtain ⟨x, hx, -⟩ := h.begun
  cases hx

theorem Leased.alone (h : Leased m) (hi : RunsInTime m i) (hj : RunsInTime m j) : i = j := by
  obtain ⟨owner, e, hlease, hin⟩ := hi.unexpired
  obtain ⟨owner', e', hlease', hin'⟩ := hj.unexpired
  have hrow := (h.row hlease hin).1
  rw [(h.row hlease' hin').1] at hrow
  cases hrow
  exact h.owners hlease hlease'

theorem Leased.holder_of_inTime (h : Leased m) (hi : RunsInTime m i) : holder m.history = some i := by
  obtain ⟨owner, e, hlease, hin⟩ := hi.unexpired
  exact h.last hlease (h.row hlease hin).1

/-! ## One call -/

/-- The lease on a row. -/
def MissionRow.lease (row : MissionRow) : Option String × Option Instant :=
  (row.lease_owner, row.lease_expires_at)

theorem exec_lease (h : c.Plain) {o : Outside} {w w' : World} {r : c.Resp} (hexec : exec c o w = .ok (r, w')) :
    w'.row.lease = w.row.lease := by
  cases c with
  | acquire_lease owner ttl => exact Bool.noConfusion (show true = false from h)
  | release_lease owner => exact Bool.noConfusion (show true = false from h)
  | _ =>
    simp only [exec, failing] at hexec
    (repeat' split at hexec) <;> cases hexec <;> rfl

theorem lease_of_plain (h : c.Plain) (o : Outside) (w : World) :
    (Exec.after exec c o w).row.lease = w.row.lease := by
  unfold Exec.after
  split
  · rename_i r w' hexec
    exact exec_lease h hexec
  · rfl

theorem clock_after (c : Call) (o : Outside) (w : World) : (Exec.after exec c o w).clock = w.clock := by
  unfold Exec.after
  split
  · rename_i r w' hexec
    cases c <;> simp only [exec, failing] at hexec <;> (repeat' split at hexec) <;> cases hexec <;> rfl
  · rfl

/-- What call `c` of worker `i` adds to its exchanges. -/
abbrev made (m : CouncilStage) (c : Call) (o : Outside) : Exchange := ⟨c, exec.answer c o m.world⟩

section

variable {c : Call} {o : Outside}

theorem Lease.of_perform (h : Lease (m.perform exec i c o) j owner expires) :
    Lease m j owner expires ∨ j = i ∧ takes (made m c o) = some (owner, expires) := by
  by_cases hij : i = j
  · subst hij
    have hown := Stage.own_perform exec m i c o
    obtain ⟨x, hx, htaken⟩ := h.taken
    rw [hown] at hx
    rcases List.mem_append.mp hx with hx | hx
    · refine .inl ⟨⟨x, hx, htaken⟩, fun y hy => h.kept y ?_⟩
      rw [hown]
      exact List.mem_append_left _ hy
    · rw [List.mem_singleton] at hx
      rw [hx] at htaken
      exact .inr ⟨rfl, htaken⟩
  · exact .inl (h.of_own (Stage.own_perform_of_ne hij exec m c o).symm)

theorem Running.of_perform (h : Running (m.perform exec i c o) j) :
    Running m j ∨ j = i ∧ begins (made m c o) = true := by
  by_cases hij : i = j
  · subst hij
    have hown := Stage.own_perform exec m i c o
    obtain ⟨x, hx, hbegun⟩ := h.begun
    rw [hown] at hx
    rcases List.mem_append.mp hx with hx | hx
    · refine .inl ⟨⟨x, hx, hbegun⟩, fun y hy => h.on y ?_⟩
      rw [hown]
      exact List.mem_append_left _ hy
    · rw [List.mem_singleton] at hx
      rw [hx] at hbegun
      exact .inr ⟨rfl, hbegun⟩
  · exact .inl (h.of_own (Stage.own_perform_of_ne hij exec m c o).symm)

theorem Lease.perform (h : Lease m j owner expires) (hgives : j = i → gives (made m c o) = false) :
    Lease (m.perform exec i c o) j owner expires := by
  by_cases hij : i = j
  · subst hij
    refine h.after (Stage.own_perform exec m i c o) fun x hx => ?_
    rw [List.mem_singleton] at hx
    rw [hx]
    exact hgives rfl
  · exact h.of_own (Stage.own_perform_of_ne hij exec m c o)

theorem Leased.quiet (h : Leased m) (htakes : takes (made m c o) = none) (hgives : gives (made m c o) = false)
    (hbegins : begins (made m c o) = true → ∃ owner e, Lease m i owner e)
    (hrow : (Exec.after exec c o m.world).row.lease = m.world.row.lease) : Leased (m.perform exec i c o) := by
  have hold {j owner e} (h' : Lease (m.perform exec i c o) j owner e) : Lease m j owner e := by
    rcases h'.of_perform with h' | ⟨-, htaken⟩
    · exact h'
    · rw [htakes] at htaken
      cases htaken
  have howner : (m.perform exec i c o).world.row.lease_owner = m.world.row.lease_owner :=
    congrArg Prod.fst hrow
  have hexpires : (m.perform exec i c o).world.row.lease_expires_at = m.world.row.lease_expires_at :=
    congrArg Prod.snd hrow
  have hclock : (m.perform exec i c o).world.clock = m.world.clock := clock_after c o m.world
  have hholder : holder (m.perform exec i c o).history = holder m.history := by
    show holder (m.history ++ [_]) = _
    rw [holder_snoc]
    exact if_neg (by simp [htakes])
  constructor
  · intro j k owner e e' hj hk
    exact h.owners (hold hj) (hold hk)
  · intro j owner owner' e e' hj hk
    exact h.once (hold hj) (hold hk)
  · intro j owner e hj hin
    rw [howner, hexpires]
    rw [hclock] at hin
    exact h.row (hold hj) hin
  · intro j owner e hj hon
    rw [howner] at hon
    rw [hholder]
    exact h.last (hold hj) hon
  · intro j hj
    rcases hj.of_perform with hj | ⟨rfl, hbegun⟩
    · obtain ⟨owner, e, hlease⟩ := h.running hj
      exact ⟨owner, e, hlease.perform fun _ => hgives⟩
    · obtain ⟨owner, e, hlease⟩ := hbegins hbegun
      exact ⟨owner, e, hlease.perform fun _ => hgives⟩

/-- A release: the lease of the worker ends, and the row keeps any other. -/
theorem Leased.release (h : Leased m) (hlease : Lease m i owner expires) (hrun : ¬ Running m i) :
    Leased (m.perform exec i (.release_lease owner) o) := by
  have hold {j owner' e} (h' : Lease (m.perform exec i (.release_lease owner) o) j owner' e) :
      Lease m j owner' e ∧ owner' ≠ owner := by
    rcases h'.of_perform with hj | ⟨-, htaken⟩
    · refine ⟨hj, ?_⟩
      rintro rfl
      obtain rfl := h.owners hj hlease
      have hgiven := h'.kept (made m (.release_lease owner') o) (by
        rw [Stage.own_perform]
        exact List.mem_append_right _ List.mem_cons_self)
      simp [gives] at hgiven
    · simp [takes] at htaken
  have hclock : (m.perform exec i (.release_lease owner) o).world.clock = m.world.clock :=
    clock_after _ o m.world
  have hholder : holder (m.perform exec i (.release_lease owner) o).history = holder m.history := by
    show holder (m.history ++ [_]) = _
    rw [holder_snoc]
    exact if_neg (by simp [takes])
  have hother (hne : m.world.row.lease_owner ≠ some owner) :
      (m.perform exec i (.release_lease owner) o).world = m.world := by
    show Exec.after exec _ o m.world = _
    simp [Exec.after, exec, hne]
  have hmine (hon : m.world.row.lease_owner = some owner) :
      (m.perform exec i (.release_lease owner) o).world.row.lease_owner = none := by
    show (Exec.after exec _ o m.world).row.lease_owner = _
    simp [Exec.after, exec, hon]
  constructor
  · intro j k owner' e e' hj hk
    exact h.owners (hold hj).1 (hold hk).1
  · intro j owner' owner'' e e' hj hk
    exact h.once (hold hj).1 (hold hk).1
  · intro j owner' e hj hin
    rw [hclock] at hin
    obtain ⟨hj, hne⟩ := hold hj
    have hrow := h.row hj hin
    rw [hother (by rw [hrow.1]; simpa using hne)]
    exact hrow
  · intro j owner' e hj hon
    rw [hholder]
    obtain ⟨hj, hne⟩ := hold hj
    by_cases hrow : m.world.row.lease_owner = some owner
    · rw [hmine hrow] at hon
      cases hon
    · rw [hother hrow] at hon
      exact h.last hj hon
  · intro j hj
    rcases hj.of_perform with hj | ⟨-, hbegun⟩
    · obtain ⟨owner', e, hlease'⟩ := h.running hj
      exact ⟨owner', e, hlease'.perform fun hji => absurd (hji ▸ hj) hrun⟩
    · simp [begins] at hbegun

/-- The row of an acquired mission. -/
def acquired (w : World) (owner : String) (ttl : Instant) : MissionRow :=
  { w.row with
    lease_owner := some owner, lease_expires_at := some (w.clock + ttl), version := w.row.version + 1 }

theorem exec_acquire {w : World} (ttl : Instant) (o : Outside) (hmay : mayAcquire w.row w.clock owner = true) :
    exec (.acquire_lease owner ttl) o w =
      .ok (some (acquired w owner ttl), { w with row := acquired w owner ttl }) := by
  simp only [exec, if_pos hmay, acquired]

/-- An acquisition, when no drive of the process holds a lease. -/
theorem Leased.acquire {ttl : Instant} (h : Leased m) (hplain : ∀ x ∈ m.own i, x.1.Plain)
    (hmay : mayAcquire m.world.row m.world.clock owner = true) (hfree : Free m owner) :
    Leased (m.perform exec i (.acquire_lease owner ttl) o) := by
  have hexec := exec_acquire ttl o hmay
  have htakes : takes (made m (.acquire_lease owner ttl) o) = some (owner, m.world.clock + ttl) := by
    show takes ⟨_, exec.answer _ o m.world⟩ = _
    unfold Exec.answer
    rw [hexec]
    rfl
  have hnew {j owner' e} (h' : Lease (m.perform exec i (.acquire_lease owner ttl) o) j owner' e) :
      (Lease m j owner' e ∧ owner' ≠ owner ∧ j ≠ i) ∨ j = i ∧ owner' = owner ∧ e = m.world.clock + ttl := by
    rcases h'.of_perform with hj | ⟨hji, htaken⟩
    · refine .inl ⟨hj, ?_, ?_⟩
      · rintro rfl
        exact hfree.not_lease hj
      · rintro rfl
        obtain ⟨x, hx, htaken⟩ := hj.taken
        rw [takes_of_plain (hplain x hx)] at htaken
        cases htaken
    · rw [htakes] at htaken
      cases htaken
      exact .inr ⟨hji, rfl, rfl⟩
  have hworld : (m.perform exec i (.acquire_lease owner ttl) o).world =
      { m.world with row := acquired m.world owner ttl } := Exec.after_of_ok hexec
  have hholder : holder (m.perform exec i (.acquire_lease owner ttl) o).history = some i := by
    show holder (m.history ++ [_]) = _
    rw [holder_snoc]
    exact if_pos (by rw [htakes]; rfl)
  constructor
  · intro j k owner' e e' hj hk
    rcases hnew hj with ⟨hj, hne, -⟩ | ⟨rfl, rfl, -⟩
    · rcases hnew hk with ⟨hk, -, -⟩ | ⟨-, heq, -⟩
      · exact h.owners hj hk
      · exact absurd heq hne
    · rcases hnew hk with ⟨-, hne, -⟩ | ⟨rfl, -, -⟩
      · exact absurd rfl hne
      · rfl
  · intro j owner' owner'' e e' hj hk
    rcases hnew hj with ⟨hj, -, hne⟩ | ⟨rfl, rfl, rfl⟩
    · rcases hnew hk with ⟨hk, -, -⟩ | ⟨heq, -, -⟩
      · exact h.once hj hk
      · exact absurd heq hne
    · rcases hnew hk with ⟨-, -, hne⟩ | ⟨-, rfl, rfl⟩
      · exact absurd rfl hne
      · exact ⟨rfl, rfl⟩
  · intro j owner' e hj hin
    rw [hworld] at hin ⊢
    rcases hnew hj with ⟨hj, hne, -⟩ | ⟨-, rfl, rfl⟩
    · -- the lease on the row is good and of another process: it could not be taken
      obtain ⟨howner, hexpires⟩ := h.row hj hin
      have hin' : m.world.clock ≤ e := hin
      simp [mayAcquire, howner, hexpires, hne] at hmay
      exact absurd hmay (not_lt.mpr hin')
    · exact ⟨rfl, rfl⟩
  · intro j owner' e hj hon
    rw [hworld] at hon
    rw [hholder]
    rcases hnew hj with ⟨-, hne, -⟩ | ⟨rfl, -, -⟩
    · cases hon
      exact absurd rfl hne
    · rfl
  · intro j hj
    rcases hj.of_perform with hj | ⟨-, hbegun⟩
    · obtain ⟨owner', e, hlease⟩ := h.running hj
      exact ⟨owner', e, hlease.perform fun _ => rfl⟩
    · cases hbegun

/-- **One step of a steady run.** -/
theorem Leased.call (h : Leased m) (hduty : duty i c m) (hsteady : Steady m (.call i c o)) :
    Leased (m.perform exec i c o) := by
  have hplainly (hc : c.Plain) : Leased (m.perform exec i c o) :=
    h.quiet (takes_of_plain hc) (gives_of_plain hc)
      (fun hbegins => by rw [begins_of_plain hc] at hbegins; cases hbegins) (lease_of_plain hc o _)
  cases c with
  | acquire_lease owner ttl =>
    by_cases hmay : mayAcquire m.world.row m.world.clock owner = true
    · exact h.acquire hduty hmay (hsteady.1 owner rfl hmay)
    · have hexec : exec (.acquire_lease owner ttl) o m.world = .ok (none, m.world) := by
        simp only [exec, if_neg hmay]
      refine h.quiet ?_ rfl (fun hbegins => by cases hbegins) ?_
      · show takes ⟨_, exec.answer _ o m.world⟩ = _
        unfold Exec.answer
        rw [hexec]
        rfl
      · rw [Exec.after_of_ok hexec]
  | release_lease owner =>
    obtain ⟨⟨expires, hlease⟩, hrun⟩ := hduty
    exact h.release hlease hrun
  | engine_begins => exact h.quiet rfl rfl (fun _ => hduty) rfl
  | engine_ends => exact h.quiet rfl rfl (fun hbegins => by cases hbegins) rfl
  | _ => exact hplainly rfl

theorem Leased.env {w : World} (h : Leased m) (hw : Ticks m.world w) : Leased { m with world := w } := by
  have hrow : w.row = m.world.row := by rw [hw.same]
  have hold {j owner e} (h' : Lease { m with world := w } j owner e) : Lease m j owner e :=
    h'.of_own rfl
  constructor
  · intro j k owner e e' hj hk
    exact h.owners (hold hj) (hold hk)
  · intro j owner owner' e e' hj hk
    exact h.once (hold hj) (hold hk)
  · intro j owner e hj hin
    rw [hrow]
    exact h.row (hold hj) (le_trans hw.later hin)
  · intro j owner e hj hon
    rw [hrow] at hon
    exact h.last (hold hj) hon
  · intro j hj
    obtain ⟨owner, e, hlease⟩ := h.running (hj.of_own rfl)
    exact ⟨owner, e, hlease.of_own rfl⟩

end

/-! ## Mutual exclusion -/

/-- **Drives exclude each other**: at every moment at most one engine call runs while its lease
    is unexpired, none goes on beside it, and a drive that releases the lease of the mission
    releases its own. -/
structure Exclusive (steps : List (CouncilStage × Action CouncilCalls World Outside))
    (s : Pool CouncilCalls World) : Prop where
  alone : ∀ m ∈ visited steps s, ∀ i j, RunsInTime m i → RunsInTime m j → i = j
  undisturbed : ∀ m i c o, (m, .call i c o) ∈ steps → Running m i → ∀ j, RunsInTime m j → j = i
  own_release : ∀ m i owner o, (m, .call i (.release_lease owner) o) ∈ steps →
    m.world.row.lease_owner = some owner →
      holder m.history = some i ∧ ∀ j expires, Lease m j owner expires → j = i

section

variable [Canonical.Sha256] [TextRules] [Settings] {mission : Mission}

/-- **In every steady run drives exclude each other.** -/
theorem drives_exclude {clock : Instant}
    {steps : List (CouncilStage × Action CouncilCalls World Outside)} {s : Pool CouncilCalls World}
    (run : Run (council mission) (mission.world clock) steps s) (hsteady : Meets Steady steps) :
    Exclusive steps s := by
  have hcall : ∀ m i c o, Leased m → (leaseDiscipline mission).Inv m →
      (leaseDiscipline mission).Pre i c m → Steady m (.call i c o) →
      Leased (m.perform (council mission).exec i c o) :=
    fun m i c o h _ hduty hstep => h.call hduty hstep
  have henv : ∀ m w', Leased m → (council mission).Env m.world w' → Leased { m with world := w' } :=
    fun m w' h hw => h.env hw
  have hsteps {m i c o} (hmem : (m, .call i c o) ∈ steps) : Leased m ∧ duty i c m :=
    Discipline.run_steps lease_covers (D := leaseDiscipline mission) trivial (Leased.init _) hcall henv
      run hsteady hmem
  constructor
  · intro m hm i j hi hj
    obtain ⟨before, s', run', rfl, hprefix⟩ := run.visited hm
    have hleased : Leased s'.stage := Discipline.run_invariant lease_covers
      (D := leaseDiscipline mission) trivial (Leased.init _) hcall henv run' (hsteady.of_prefix hprefix)
    exact hleased.alone hi hj
  · intro m i c o hmem hrun j hj
    have hleased := (hsteps hmem).1
    rcases (hsteady _ hmem).2 hrun with hi | hi
    · exact hleased.alone hj hi
    · rw [hleased.holder_of_inTime hj] at hi
      exact Option.some.inj hi
  · intro m i owner o hmem hon
    obtain ⟨hleased, ⟨expires, hlease⟩, -⟩ := hsteps hmem
    exact ⟨hleased.last hlease hon, fun j expires' hj => hleased.owners hj hlease⟩

end

/-! ## One process, two drives -/

section

/-- Rules that find nothing. -/
abbrev quietRules : TextRules where
  secret _ := false
  pii _ := false
  rule _ _ := false
  upper text := text

abbrev defaults : Settings where
  seat_max_attempts := 2
  lease_seconds := 300
  attempts_bounds := by decide
  lease_bounds := by decide

/-- A mission whose scaffold is to be written. -/
def landingPage : Mission where
  mission_id := "msn_1"
  tenant_id := "acme"
  project_id := "web"
  engine := .crewai
  idea := ⟨"Landing page", "A page for the launch."⟩
  materialize_scaffold := true

/-- The next `n` calls of worker `i`, with nothing unusual outside. -/
def calls (i n : Nat) : List (Move CouncilCalls World Outside) := List.replicate n (.call i {})

/-- The clock advances. -/
def passes (duration : Nat) : Move CouncilCalls World Outside :=
  .env fun w => { w with clock := w.clock + duration }

section

variable [Canonical.Sha256] [TextRules] [Settings]

def serves (request : Request) : Move CouncilCalls World Outside :=
  .start (request.program landingPage)

theorem allowed_serves (request : Request) : (serves request).Allowed (council landingPage) :=
  ⟨request, rfl⟩

theorem allowed_passes (duration : Nat) : (passes duration).Allowed (council landingPage) :=
  fun _ => ⟨rfl, le_add_of_nonneg_right (Int.natCast_nonneg duration)⟩

theorem allowed_calls (i n : Nat) : ∀ x ∈ calls i n, x.Allowed (council landingPage) := by
  intro x hx
  rw [List.eq_of_mem_replicate hx]
  trivial

end

attribute [local instance] Canonical.plainHash quietRules defaults

/-- A dispatched mission is recovered while it is still queued: both threads of the process take
    its lease, and the second gives it back as it finds the mission started. A third drive, of
    another process, then takes the lease. -/
def doubled : List (Move CouncilCalls World Outside) :=
  [serves (.dispatch "host:1"), serves (.recover "host:1"), serves (.recover "host:2")] ++
    calls 1 3 ++ calls 0 6 ++ calls 1 3 ++ calls 2 7

theorem doubled_allowed : ∀ x ∈ doubled, x.Allowed (council landingPage) := by
  simp only [doubled, List.forall_mem_append, List.forall_mem_cons]
  exact ⟨⟨⟨⟨⟨allowed_serves _, allowed_serves _, allowed_serves _, by simp⟩, allowed_calls 1 3⟩,
    allowed_calls 0 6⟩, allowed_calls 1 3⟩, allowed_calls 2 7⟩

/-- Two drives of one process do not exclude each other, nor a third. -/
theorem drives_not_exclusive : ¬ ∀ steps s,
    Run (council landingPage) (landingPage.world 0) steps s → Exclusive steps s := by
  intro h
  have hexclusive := h _ _ (play_run doubled_allowed)
  have hfirst : RunsInTime (play (council landingPage) (Pool.init (landingPage.world 0)) doubled).2.stage 0 :=
    ⟨by decide +kernel, "host:1", 300000000, by decide +kernel, by decide +kernel⟩
  have hthird : RunsInTime (play (council landingPage) (Pool.init (landingPage.world 0)) doubled).2.stage 2 :=
    ⟨by decide +kernel, "host:2", 300000000, by decide +kernel, by decide +kernel⟩
  exact absurd (hexclusive.alone _ (by simp [visited]) 0 2 hfirst hthird) (by decide)

/-- A worker stops in its engine call; when its lease has expired, another process recovers the
    mission. -/
def takenOver : List (Move CouncilCalls World Outside) :=
  [serves (.dispatch "host:1"), serves (.recover "host:2")] ++ calls 0 7 ++ [passes 301000000] ++ calls 1 9

theorem takenOver_allowed : ∀ x ∈ takenOver, x.Allowed (council landingPage) := by
  simp only [takenOver, List.forall_mem_append, List.forall_mem_cons]
  exact ⟨⟨⟨⟨allowed_serves _, allowed_serves _, by simp⟩, allowed_calls 0 7⟩,
    allowed_passes _, by simp⟩, allowed_calls 1 9⟩

/-- A drive that takes an expired lease over runs alone. -/
theorem drives_exclude_takenOver : Exclusive
    (play (council landingPage) (Pool.init (landingPage.world 0)) takenOver).1
    (play (council landingPage) (Pool.init (landingPage.world 0)) takenOver).2 :=
  drives_exclude (play_run takenOver_allowed) (by decide +kernel)

end

end Council
