import MissionControl.Interleaving.Program
import Mathlib.Data.List.Basic

/-! # Pools of workers

Workers run programs against one shared world. In each step of a pool a new
worker starts, one worker makes its next call, or the world changes on its own
(the clock moves, an operator edits a setting). The order is arbitrary, and a
worker that is never scheduled again has crashed. Nothing else distinguishes a
crash: what a worker has done so far is in the world, and what it would have
done next never happens.

Every call is recorded with its answer in the pool's *history*. No program reads
the history; properties of runs are stated over it. -/

namespace Interleaving

variable {I : Interface} {σ κ : Type}

/-- The semantics of the calls: `κ` is what the outside decides about one call
    (which fault a provider has). A call that raises an error leaves the world
    as it was, as a transaction that is rolled back does. -/
abbrev Exec (I : Interface) (σ κ : Type) : Type :=
  (c : I.Call) → κ → σ → Except I.Err (I.Resp c × σ)

/-- What a call answers in a world. -/
def Exec.answer (exec : Exec I σ κ) (c : I.Call) (o : κ) (w : σ) : I.Answer c :=
  (exec c o w).map Prod.fst

/-- The world after a call. -/
def Exec.after (exec : Exec I σ κ) (c : I.Call) (o : κ) (w : σ) : σ :=
  match exec c o w with
  | .ok (_, w') => w'
  | .error _ => w

variable {o : κ} {exec : Exec I σ κ} {c : I.Call} {w : σ}

variable {r : I.Resp c}

theorem Exec.of_answer (h : exec.answer c o w = .ok r) : exec c o w = .ok (r, exec.after c o w) := by
  unfold Exec.answer at h
  unfold Exec.after
  cases he : exec c o w with
  | ok x =>
    rw [he] at h
    cases h
    rfl
  | error e =>
    rw [he] at h
    cases h

theorem Exec.after_of_ok {w' : σ} (h : exec c o w = .ok (r, w')) : exec.after c o w = w' := by
  unfold Exec.after
  rw [h]

theorem Exec.after_of_error {e : I.Err} (h : exec c o w = .error e) : exec.after c o w = w := by
  unfold Exec.after
  rw [h]

/-- One call that has been made: who made it and what it answered. -/
structure Event (I : Interface) where
  worker : Nat
  call : I.Call
  answer : I.Answer call

/-- The world at one point of a run, with the calls made so far, oldest first. -/
structure Stage (I : Interface) (σ : Type) where
  world : σ
  history : List (Event I)

/-- The stage after worker `i` makes the call `c`. -/
def Stage.perform (exec : Exec I σ κ) (m : Stage I σ) (i : Nat) (c : I.Call) (o : κ) :
    Stage I σ where
  world := exec.after c o m.world
  history := m.history ++ [⟨i, c, exec.answer c o m.world⟩]

/-- What worker `i` has exchanged so far, oldest first. -/
def Stage.own (m : Stage I σ) (i : Nat) : List (Program.Exchange I) :=
  m.history.filterMap fun e => if e.worker = i then some ⟨e.call, e.answer⟩ else none

@[simp] theorem Stage.own_perform (exec : Exec I σ κ) (m : Stage I σ) (i : Nat) (c : I.Call)
    (o : κ) : (m.perform exec i c o).own i = m.own i ++ [⟨c, exec.answer c o m.world⟩] := by
  simp [Stage.own, Stage.perform, List.filterMap_append]

variable {i : Nat}

theorem Stage.own_perform_of_ne {j : Nat} (h : i ≠ j) (exec : Exec I σ κ) (m : Stage I σ) (c : I.Call) (o : κ) :
    (m.perform exec i c o).own j = m.own j := by
  simp [Stage.own, Stage.perform, List.filterMap_append, h]

variable {m : Stage I σ}

variable {ans : I.Answer c}

theorem Stage.mem_own : ⟨c, ans⟩ ∈ m.own i ↔ ⟨i, c, ans⟩ ∈ m.history := by
  unfold Stage.own
  rw [List.mem_filterMap]
  constructor
  · rintro ⟨⟨j, c', ans'⟩, he, h⟩
    split at h
    · rename_i hj
      cases h
      cases hj
      exact he
    · cases h
  · intro he
    exact ⟨_, he, if_pos rfl⟩

theorem Stage.split_of_own {t : List (Program.Exchange I)} (h : m.own i = t ++ [⟨c, ans⟩]) :
    ∃ h₁ h₂, m.history = h₁ ++ ⟨i, c, ans⟩ :: h₂ ∧ ∀ e ∈ h₂, e.worker ≠ i := by
  unfold Stage.own at h
  obtain ⟨l₁, l₂, hl, -, hlast⟩ := List.filterMap_eq_append_iff.mp h
  obtain ⟨a, e, h₂, rfl, -, he, hrest⟩ := List.filterMap_eq_cons_iff.mp hlast
  refine ⟨l₁ ++ a, h₂, ?_, fun e' he' hw => ?_⟩
  · split at he
    · rename_i hw
      subst hw
      cases he
      rw [hl, List.append_assoc]
    · cases he
  · rw [List.filterMap_eq_nil_iff] at hrest
    have := hrest e' he'
    rw [if_pos hw] at this
    cases this

/-- A stage together with the rest of every worker's program. -/
structure Pool (I : Interface) (σ : Type) where
  stage : Stage I σ
  workers : List (Program I Unit)

/-- What one step of a pool is. -/
inductive Action (I : Interface) (σ κ : Type) where
  | start (p : Program I Unit)
  | call (i : Nat) (c : I.Call) (o : κ)
  | env (w : σ)

/-- A system: what its calls do, which programs may start, and how the world may
    change between calls. -/
structure System (I : Interface) (σ κ : Type) where
  exec : Exec I σ κ
  Starts : Program I Unit → Prop
  Env : σ → σ → Prop

variable (S : System I σ κ)

/-- One step of a pool. -/
inductive Step : Pool I σ → Action I σ κ → Pool I σ → Prop where
  | start {s : Pool I σ} {p : Program I Unit} (hp : S.Starts p) :
      Step s (.start p) { s with workers := s.workers ++ [p] }
  | call {s : Pool I σ} {i : Nat} {c : I.Call} {next : I.Answer c → Program I Unit} {o : κ}
      (hi : s.workers[i]? = some (.call c next)) :
      Step s (.call i c o)
        { stage := s.stage.perform S.exec i c o
          workers := s.workers.set i (next (S.exec.answer c o s.stage.world)) }
  | env {s : Pool I σ} {w : σ} (hw : S.Env s.stage.world w) :
      Step s (.env w) { s with stage := { s.stage with world := w } }

/-- The pool in which nothing has happened yet. -/
def Pool.init (w : σ) : Pool I σ := ⟨⟨w, []⟩, []⟩

/-- A run from the world `w`: the steps taken, oldest first, each with the stage
    it was taken in, and the pool they lead to. -/
inductive Run (w : σ) : List (Stage I σ × Action I σ κ) → Pool I σ → Prop where
  | nil : Run w [] (Pool.init w)
  | snoc {steps : List (Stage I σ × Action I σ κ)} {s s' : Pool I σ} {a : Action I σ κ}
      (run : Run w steps s) (step : Step S s a s') : Run w (steps ++ [(s.stage, a)]) s'

/-- The stages a run goes through, the last one included. -/
def visited (steps : List (Stage I σ × Action I σ κ)) (s : Pool I σ) : List (Stage I σ) :=
  steps.map Prod.fst ++ [s.stage]

theorem stage_mem_visited (steps : List (Stage I σ × Action I σ κ)) (s : Pool I σ) : s.stage ∈ visited steps s :=
  List.mem_append_right _ (List.mem_singleton.mpr rfl)

variable {steps : List (Stage I σ × Action I σ κ)} {s : Pool I σ}

variable {a : Action I σ κ}

theorem mem_visited_snoc {s' : Pool I σ} :
    m ∈ visited (steps ++ [(s.stage, a)]) s' ↔ m ∈ visited steps s ∨ m = s'.stage := by
  simp [visited, or_assoc]

/-- Every step of the run meets `Ok` in the stage it is taken in. -/
def Meets (Ok : Stage I σ → Action I σ κ → Prop) (steps : List (Stage I σ × Action I σ κ)) :
    Prop :=
  ∀ x ∈ steps, Ok x.1 x.2

@[simp] theorem meets_nil (Ok : Stage I σ → Action I σ κ → Prop) : Meets Ok [] := by
  intro x hx
  cases hx

variable {Ok : Stage I σ → Action I σ κ → Prop}

theorem meets_snoc : Meets Ok (steps ++ [(m, a)]) ↔ Meets Ok steps ∧ Ok m a := by
  simp [Meets, or_imp, forall_and]

/-- A call made in the step is one of `R`. -/
def Action.Calls (R : I.Call → Prop) : Action I σ κ → Prop
  | .call _ c _ => R c
  | _ => True

/-! ## Rules for runs -/

variable {S}

variable {C : Stage I σ → Action I σ κ → Prop} {P : Stage I σ → Prop}

/-- **The invariant rule**, whatever programs run: what holds at first, and is
    kept by each call that meets `C` and by each change from outside, holds at
    the end of every run whose steps all meet `C`. -/
theorem Run.invariant_of_meets (hinit : P ⟨w, []⟩)
    (hcall : ∀ m i c o, P m → C m (.call i c o) → P (m.perform S.exec i c o))
    (henv : ∀ m w', P m → S.Env m.world w' → P { m with world := w' }) (run : Run S w steps s)
    (hmeets : Meets C steps) : P s.stage := by
  induction run with
  | nil => exact hinit
  | snoc run step ih =>
    obtain ⟨hsteps, hlast⟩ := meets_snoc.mp hmeets
    cases step with
    | start hp => exact ih hsteps
    | call hi => exact hcall _ _ _ _ (ih hsteps) hlast
    | env hw => exact henv _ _ (ih hsteps) hw

theorem Run.invariant (hinit : P ⟨w, []⟩) (hcall : ∀ m i c o, P m → P (m.perform S.exec i c o))
    (henv : ∀ m w', P m → S.Env m.world w' → P { m with world := w' }) (run : Run S w steps s) : P s.stage :=
  run.invariant_of_meets (C := fun _ _ => True) hinit (fun m i c o h _ => hcall m i c o h) henv
    fun _ _ => trivial

variable {R : Stage I σ → Stage I σ → Prop}

/-- **The rule for what never comes back.** A relation each step respects leads
    from every stage of a run to its last. -/
theorem Run.later (hrefl : ∀ m, R m m) (htrans : ∀ m₁ m₂ m₃, R m₁ m₂ → R m₂ m₃ → R m₁ m₃)
    (hcall : ∀ m i c o, R m (m.perform S.exec i c o))
    (henv : ∀ m w', S.Env m.world w' → R m { m with world := w' }) (run : Run S w steps s)
    (hm : m ∈ visited steps s) : R m s.stage := by
  induction run with
  | nil =>
    have hm : m = (Pool.init w).stage := by simpa [visited] using hm
    rw [hm]
    exact hrefl _
  | @snoc steps s s' a run step ih =>
    have hstep : R s.stage s'.stage := by
      cases step with
      | start hp => exact hrefl _
      | call hi => exact hcall _ _ _ _
      | env hw => exact henv _ _ hw
    rcases mem_visited_snoc.mp hm with hm | rfl
    · exact htrans _ _ _ (ih hm) hstep
    · exact hrefl _

theorem Run.visited (run : Run S w steps s) (hm : m ∈ visited steps s) :
    ∃ before s', Run S w before s' ∧ s'.stage = m ∧ before <+: steps := by
  induction run with
  | nil =>
    have hm : m = (Pool.init w).stage := by simpa [Interleaving.visited] using hm
    exact ⟨[], Pool.init w, .nil, hm.symm, List.prefix_refl _⟩
  | @snoc steps s s' a run step ih =>
    rcases mem_visited_snoc.mp hm with hm | rfl
    · obtain ⟨before, s₁, run₁, h₁, hpre⟩ := ih hm
      exact ⟨before, s₁, run₁, h₁, hpre.trans (List.prefix_append _ _)⟩
    · exact ⟨_, s', run.snoc step, rfl, List.prefix_refl _⟩

/-- **The rule for what never comes back, both ways.** A relation holds between every stage of a
    run and each later one exactly when each call is one that respects it. `P` holds in every
    stage. -/
theorem Run.pairwise_iff (hP : ∀ {steps s}, Run S w steps s → P s.stage) (hrefl : ∀ m, R m m)
    (htrans : ∀ m₁ m₂ m₃, R m₁ m₂ → R m₂ m₃ → R m₁ m₃) (hstart : ∀ m p, C m (.start p))
    (hcall : ∀ m i c o, P m → (C m (.call i c o) ↔ R m (m.perform S.exec i c o)))
    (henv : ∀ m w', S.Env m.world w' → C m (.env w') ∧ R m { m with world := w' }) (run : Run S w steps s) :
    (Interleaving.visited steps s).Pairwise R ↔ Meets C steps := by
  induction run with
  | nil => simp [Interleaving.visited]
  | @snoc steps s s' a run step ih =>
    have hstep : C s.stage a ↔ R s.stage s'.stage := by
      cases step with
      | start hp => exact iff_of_true (hstart _ _) (hrefl _)
      | call hi => exact hcall _ _ _ _ (hP run)
      | env hw => exact iff_of_true (henv _ _ hw).1 (henv _ _ hw).2
    have hvisited : Interleaving.visited (steps ++ [(s.stage, a)]) s' =
        Interleaving.visited steps s ++ [s'.stage] := by
      simp [Interleaving.visited]
    have hlast : s.stage ∈ Interleaving.visited steps s := by
      simp [Interleaving.visited]
    rw [hvisited, meets_snoc, ← ih, hstep, List.pairwise_append]
    constructor
    · intro ⟨hpairs, _, hnew⟩
      exact ⟨hpairs, hnew _ hlast _ (List.mem_singleton.mpr rfl)⟩
    · intro ⟨hpairs, hnew⟩
      refine ⟨hpairs, List.pairwise_singleton _ _, fun m hm m' hm' => ?_⟩
      rw [List.mem_singleton] at hm'
      subst hm'
      -- an earlier stage is related to the one before, which is the last of them
      unfold Interleaving.visited at hpairs hm
      rw [List.pairwise_append] at hpairs
      rcases List.mem_append.mp hm with hm | hm
      · exact htrans _ _ _ (hpairs.2.2 m hm _ (List.mem_singleton.mpr rfl)) hnew
      · rw [List.mem_singleton] at hm
        rw [hm]
        exact hnew

/-- **The invariant rule, both ways.** Where each call of `R` is legal and keeps `P` exactly if it meets `C`, the steps
    of a run are legal, and `P` holds in every stage, exactly if each step meets `C`. -/
theorem Run.legal_iff {R : I.Call → Prop} {L : Stage I σ → Action I σ κ → Prop} (hinit : P ⟨w, []⟩)
    (hstart : ∀ m p, C m (.start p) ∧ L m (.start p))
    (hcall : ∀ m i c o, R c → P m → (C m (.call i c o) ↔ L m (.call i c o) ∧ P (m.perform S.exec i c o)))
    (henv : ∀ m w', P m → S.Env m.world w' → C m (.env w') ∧ L m (.env w') ∧ P { m with world := w' })
    (run : Run S w steps s) (honly : Meets (fun _ a => a.Calls R) steps) :
    (Meets L steps ∧ ∀ m ∈ Interleaving.visited steps s, P m) ↔ Meets C steps := by
  induction run with
  | nil =>
    refine iff_of_true ⟨meets_nil L, fun m hm => ?_⟩ (meets_nil C)
    obtain rfl : m = (Pool.init w).stage := by simpa [Interleaving.visited] using hm
    exact hinit
  | @snoc steps s s' a run step ih =>
    obtain ⟨honly, hlast⟩ := meets_snoc.mp honly
    have hstep : P s.stage → (C s.stage a ↔ L s.stage a ∧ P s'.stage) := by
      intro hP
      cases step with
      | start hp => exact iff_of_true (hstart _ _).1 ⟨(hstart _ _).2, hP⟩
      | call hi => exact hcall _ _ _ _ hlast hP
      | env hw => exact iff_of_true (henv _ _ hP hw).1 (henv _ _ hP hw).2
    rw [meets_snoc, meets_snoc, ← ih honly]
    constructor
    · rintro ⟨⟨hlegal, hnew⟩, h⟩
      have hbefore : ∀ m ∈ Interleaving.visited steps s, P m := fun m hm => h m (mem_visited_snoc.mpr (.inl hm))
      refine ⟨⟨hlegal, hbefore⟩, (hstep (hbefore _ (stage_mem_visited steps s))).mpr ⟨hnew, ?_⟩⟩
      exact h _ (mem_visited_snoc.mpr (.inr rfl))
    · rintro ⟨⟨hlegal, hbefore⟩, hC⟩
      obtain ⟨hnew, hafter⟩ := (hstep (hbefore _ (stage_mem_visited steps s))).mp hC
      refine ⟨⟨hlegal, hnew⟩, fun m hm => ?_⟩
      rcases mem_visited_snoc.mp hm with hm | rfl
      · exact hbefore m hm
      · exact hafter

theorem Run.always_iff {R : I.Call → Prop} (hinit : P ⟨w, []⟩) (hstart : ∀ m p, C m (.start p))
    (hcall : ∀ m i c o, R c → P m → (C m (.call i c o) ↔ P (m.perform S.exec i c o)))
    (henv : ∀ m w', P m → S.Env m.world w' → C m (.env w') ∧ P { m with world := w' }) (run : Run S w steps s)
    (honly : Meets (fun _ a => a.Calls R) steps) :
    (∀ m ∈ Interleaving.visited steps s, P m) ↔ Meets C steps := by
  rw [← run.legal_iff (L := fun _ _ => True) hinit (fun m p => ⟨hstart m p, trivial⟩) ?_ ?_ honly]
  · exact (and_iff_right fun _ _ => trivial).symm
  · intro m i c o hc hP
    rw [true_and]
    exact hcall m i c o hc hP
  · exact fun m w' hP hw => ⟨(henv m w' hP hw).1, trivial, (henv m w' hP hw).2⟩

theorem Run.pairwise
    (hlater : ∀ {steps s}, Run S w steps s → Meets C steps → ∀ m ∈ Interleaving.visited steps s, R m s.stage)
    (run : Run S w steps s) (hmeets : Meets C steps) : (Interleaving.visited steps s).Pairwise R := by
  induction run with
  | nil => exact List.pairwise_singleton _ _
  | @snoc steps s s' a run step ih =>
    have hvisited : Interleaving.visited (steps ++ [(s.stage, a)]) s' =
        Interleaving.visited steps s ++ [s'.stage] := by
      simp [Interleaving.visited]
    rw [hvisited, List.pairwise_append]
    refine ⟨ih (meets_snoc.mp hmeets).1, List.pairwise_singleton _ _, fun m hm m' hm' => ?_⟩
    rw [List.mem_singleton.mp hm']
    exact hlater (run.snoc step) hmeets m (mem_visited_snoc.mpr (.inl hm))

theorem Meets.of_prefix {before : List (Stage I σ × Action I σ κ)} (h : Meets Ok steps)
    (hpre : before <+: steps) : Meets Ok before :=
  fun x hx => h x (hpre.subset hx)

theorem Run.steps_of_meets (hinit : P ⟨w, []⟩)
    (hcall : ∀ m i c o, P m → C m (.call i c o) → P (m.perform S.exec i c o))
    (henv : ∀ m w', P m → S.Env m.world w' → P { m with world := w' }) (run : Run S w steps s)
    (hmeets : Meets C steps) (hm : m ∈ Interleaving.visited steps s) : P m := by
  obtain ⟨before, s', run', rfl, hpre⟩ := run.visited hm
  exact run'.invariant_of_meets hinit hcall henv (hmeets.of_prefix hpre)

/-! ## Calls of some kind only -/

/-- **What the programs that start may call is all that is called.** -/
theorem Run.only {R : I.Call → Prop} (hS : ∀ p, S.Starts p → p.Only R) (run : Run S w steps s) :
    Meets (fun _ a => a.Calls R) steps ∧ ∀ p ∈ s.workers, p.Only R := by
  induction run with
  | nil => exact ⟨meets_nil _, fun p hp => by cases hp⟩
  | @snoc steps s s' a run step ih =>
    obtain ⟨hsteps, hworkers⟩ := ih
    cases step with
    | @start p hp =>
      refine ⟨meets_snoc.mpr ⟨hsteps, trivial⟩, fun q hq => ?_⟩
      rcases List.mem_append.mp hq with hq | hq
      · exact hworkers q hq
      · rw [List.mem_singleton.mp hq]
        exact hS p hp
    | @call i c next o hi =>
      obtain ⟨hc, hnext⟩ := hworkers _ (List.mem_of_getElem? hi)
      refine ⟨meets_snoc.mpr ⟨hsteps, hc⟩, fun q hq => ?_⟩
      rcases List.mem_or_eq_of_mem_set hq with hq | rfl
      · exact hworkers q hq
      · exact hnext _
    | env hw => exact ⟨meets_snoc.mpr ⟨hsteps, trivial⟩, hworkers⟩

end Interleaving

/-! # Schedules

A run is a relation; a schedule computes one. It names the worker that moves next
and what the outside decides, and `play` follows it. What it reaches is reached by
a run (`play_run`), so a property of one concrete run is settled by evaluating
the schedule that leads there. -/

namespace Interleaving

variable {I : Interface} {σ κ : Type}

/-- One line of a schedule. -/
inductive Move (I : Interface) (σ κ : Type) where
  | start (p : Program I Unit)
  | call (i : Nat) (o : κ)
  | env (f : σ → σ)

/-- The move is one the system allows in any world. -/
def Move.Allowed (S : System I σ κ) : Move I σ κ → Prop
  | .start p => S.Starts p
  | .call _ _ => True
  | .env f => ∀ w, S.Env w (f w)

/-- A program that has no call left to make. -/
def Program.ended {α : Type} : Program I α → Bool
  | .ret _ | .raise _ => true
  | .call .. => false

variable (S : System I σ κ)

/-- Follow one line. A worker that has ended, or does not exist, does nothing. -/
def advance (s : Pool I σ) : Move I σ κ → Option (Action I σ κ × Pool I σ)
  | .start p => some (.start p, { s with workers := s.workers ++ [p] })
  | .call i o =>
    match s.workers[i]? with
    | some (.call c next) =>
      some (.call i c o,
        { stage := s.stage.perform S.exec i c o
          workers := s.workers.set i (next (S.exec.answer c o s.stage.world)) })
    | _ => none
  | .env f => some (.env (f s.stage.world), { s with stage := { s.stage with world := f s.stage.world } })

/-- Follow a schedule: the steps taken and the pool they lead to. -/
def play : Pool I σ → List (Move I σ κ) → List (Stage I σ × Action I σ κ) × Pool I σ
  | s, [] => ([], s)
  | s, x :: moves =>
    match advance S s x with
    | none => play s moves
    | some (a, s') => ((s.stage, a) :: (play s' moves).1, (play s' moves).2)

variable {S}

variable {s : Pool I σ}

theorem step_advance {s' : Pool I σ} {x : Move I σ κ} {a : Action I σ κ} (hx : x.Allowed S)
    (h : advance S s x = some (a, s')) : Step S s a s' := by
  cases x with
  | start p =>
    cases h
    exact .start hx
  | call i o =>
    simp only [advance] at h
    split at h
    · rename_i c next hi
      cases h
      exact .call hi
    · cases h
  | env f =>
    cases h
    exact .env (hx _)

variable {moves : List (Move I σ κ)}

theorem run_play {w : σ} {steps : List (Stage I σ × Action I σ κ)} (run : Run S w steps s)
    (h : ∀ x ∈ moves, x.Allowed S) : Run S w (steps ++ (play S s moves).1) (play S s moves).2 := by
  induction moves generalizing steps s with
  | nil => simpa [play] using run
  | cons x moves ih =>
    have htail := fun y hy => h y (List.mem_cons_of_mem _ hy)
    rw [play]
    split
    · exact ih run htail
    · rename_i a s' hadv
      have := ih (run.snoc (step_advance (h x List.mem_cons_self) hadv)) htail
      rwa [List.append_assoc, List.singleton_append] at this

/-- **A schedule's run.** From a world in which nothing has happened yet, what a
    schedule plays is a run. -/
theorem play_run {w : σ} (h : ∀ x ∈ moves, x.Allowed S) :
    Run S w (play S (Pool.init w) moves).1 (play S (Pool.init w) moves).2 := by
  have := run_play (.nil (S := S) (w := w)) h
  rwa [List.nil_append] at this

/-- A condition on steps that can be evaluated can be checked along a schedule. -/
instance {Ok : Stage I σ → Action I σ κ → Prop} [∀ m a, Decidable (Ok m a)]
    (steps : List (Stage I σ × Action I σ κ)) : Decidable (Meets Ok steps) :=
  inferInstanceAs (Decidable (∀ x ∈ steps, Ok x.1 x.2))

end Interleaving
