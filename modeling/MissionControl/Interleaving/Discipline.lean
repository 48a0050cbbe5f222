import MissionControl.Interleaving.Pool

/-! # Rely–guarantee reasoning about pools

A *discipline* says, for each call, what must hold when a worker makes it
(`Pre`), which changes of the world every disciplined call and every change from
outside leave a worker free to ignore (`Ext`), and what always holds between
calls (`Inv`). A program is `Safe` when it makes each of its calls within the
discipline, whatever the other workers do in between.

The point of the logic is `run_pre`: in a pool of safe programs every call of
every run is made within the discipline. Invariants of runs are then proved from
`Pre` alone, one call at a time (`run_invariant`), without looking at a program
again. -/

namespace Interleaving

variable {I : Interface} {σ κ α β : Type}

/-- What calls may be made when, and what a worker can rely on between its own
    calls. -/
structure Discipline (S : System I σ κ) where
  /-- What worker `i` owes when it makes the call. -/
  Pre : Nat → I.Call → Stage I σ → Prop
  /-- How the world may have moved on. -/
  Ext : σ → σ → Prop
  /-- What holds between any two calls. -/
  Inv : Stage I σ → Prop
  ext_refl : ∀ w, Ext w w
  ext_trans : ∀ {w₁ w₂ w₃}, Ext w₁ w₂ → Ext w₂ w₃ → Ext w₁ w₃
  ext_call : ∀ {i c m} (o : κ), Inv m → Pre i c m → Ext m.world (S.exec.after c o m.world)
  ext_env : ∀ {w w'}, S.Env w w' → Ext w w'
  inv_call : ∀ {i c m} (o : κ), Inv m → Pre i c m → Inv (m.perform S.exec i c o)
  inv_env : ∀ {m w'}, Inv m → S.Env m.world w' → Inv { m with world := w' }

namespace Discipline

variable {S : System I σ κ} (D : Discipline S)

/-- From `m` to `m'` the world moved on and worker `i` made no call. -/
structure Rely (i : Nat) (m m' : Stage I σ) : Prop where
  ext : D.Ext m.world m'.world
  others : ∃ es, m'.history = m.history ++ es ∧ ∀ e ∈ es, e.worker ≠ i
  inv : D.Inv m'

variable {D} {i : Nat} {m m' m'' : Stage I σ}

theorem Rely.refl (h : D.Inv m) : D.Rely i m m :=
  ⟨D.ext_refl _, ⟨[], by simp, by simp⟩, h⟩

theorem Rely.trans (h : D.Rely i m m') (h' : D.Rely i m' m'') : D.Rely i m m'' := by
  obtain ⟨es, hes, hi⟩ := h.others
  obtain ⟨es', hes', hi'⟩ := h'.others
  refine ⟨D.ext_trans h.ext h'.ext, ⟨es ++ es', ?_, ?_⟩, h'.inv⟩
  · rw [hes', hes, List.append_assoc]
  · intro e he
    rcases List.mem_append.mp he with he | he
    · exact hi e he
    · exact hi' e he

theorem Rely.own (h : D.Rely i m m') : m'.own i = m.own i := by
  obtain ⟨es, hes, hne⟩ := h.others
  have hnone : es.filterMap (fun e => if e.worker = i then
      some (⟨e.call, e.answer⟩ : Program.Exchange I) else none) = [] := by
    rw [List.filterMap_eq_nil_iff]
    intro e he
    exact if_neg (hne e he)
  rw [Stage.own, hes, List.filterMap_append, hnone, List.append_nil, Stage.own]

variable (D)

/-- **Safety of a program.** From the stage `m` on, worker `i` running `p` makes
    every call within the discipline, whatever the others do before each of its
    calls, and ends with a result that satisfies `Q`. -/
def Safe (i : Nat) (Q : Except I.Err α → Stage I σ → Prop) :
    Program I α → Stage I σ → Prop
  | .ret a, m => ∀ m', D.Rely i m m' → Q (.ok a) m'
  | .raise e, m => ∀ m', D.Rely i m m' → Q (.error e) m'
  | .call c next, m => ∀ m', D.Rely i m m' →
      D.Pre i c m' ∧
        ∀ o, Safe i Q (next (S.exec.answer c o m'.world)) (m'.perform S.exec i c o)

/-- The postcondition that promises nothing. -/
def Anything : Except I.Err α → Stage I σ → Prop := fun _ _ => True

variable {D} {Q Q' : Except I.Err α → Stage I σ → Prop} {R : Except I.Err β → Stage I σ → Prop}

variable {p : Program I α}

theorem Safe.rely (hp : D.Safe i Q p m) (h : D.Rely i m m') : D.Safe i Q p m' := by
  cases p with
  | ret a => exact fun m'' h' => hp m'' (h.trans h')
  | raise e => exact fun m'' h' => hp m'' (h.trans h')
  | call c next => exact fun m'' h' => hp m'' (h.trans h')

theorem Safe.of_rely (h : ∀ m', D.Rely i m m' → D.Safe i Q p m') : D.Safe i Q p m := by
  cases p with
  | ret a => exact fun m' hm => h m' hm m' (Rely.refl hm.inv)
  | raise e => exact fun m' hm => h m' hm m' (Rely.refl hm.inv)
  | call c next => exact fun m' hm => h m' hm m' (Rely.refl hm.inv)

/-! ## Rules -/

theorem Safe.ret {a : α} (h : ∀ m', D.Rely i m m' → Q (.ok a) m') : D.Safe i Q (.ret a) m := h

theorem Safe.raise {e : I.Err} (h : ∀ m', D.Rely i m m' → Q (.error e) m') : D.Safe i Q (.raise e) m := h

theorem Safe.mono (hp : D.Safe i Q p m) (h : ∀ r m', Q r m' → Q' r m') : D.Safe i Q' p m := by
  induction p generalizing m with
  | ret a => exact fun m' hm => h _ _ (hp m' hm)
  | raise e => exact fun m' hm => h _ _ (hp m' hm)
  | call c next ih =>
    intro m' hm
    obtain ⟨hpre, hnext⟩ := hp m' hm
    exact ⟨hpre, fun o => ih _ (hnext o)⟩

/-- **Sequencing.** What `p` ends with is what `f` starts from. -/
theorem Safe.bind {f : α → Program I β} (hp : D.Safe i Q p m) (hf : ∀ a m', Q (.ok a) m' → D.Safe i R (f a) m')
    (he : ∀ e m', Q (.error e) m' → R (.error e) m') : D.Safe i R (p.bind f) m := by
  induction p generalizing m with
  | ret a => exact Safe.of_rely fun m' hm => hf a m' (hp m' hm)
  | raise e => exact fun m' hm => he e m' (hp m' hm)
  | call c next ih =>
    intro m' hm
    obtain ⟨hpre, hnext⟩ := hp m' hm
    exact ⟨hpre, fun o => ih _ (hnext o)⟩

variable {f : Except I.Err α → Program I β}

theorem Safe.attempt_bind (hp : D.Safe i Q p m) (hf : ∀ r m', Q r m' → D.Safe i R (f r) m') :
    D.Safe i R (p.attempt.bind f) m := by
  induction p generalizing m with
  | ret a => exact Safe.of_rely fun m' hm => hf _ m' (hp m' hm)
  | raise e => exact Safe.of_rely fun m' hm => hf _ m' (hp m' hm)
  | call c next ih =>
    intro m' hm
    obtain ⟨hpre, hnext⟩ := hp m' hm
    exact ⟨hpre, fun o => ih _ (hnext o)⟩

theorem Safe.void (hp : D.Safe i Q p m) : D.Safe i (Anything (α := Unit)) p.void m := by
  induction p generalizing m with
  | ret a => exact fun _ _ => trivial
  | raise e => exact fun _ _ => trivial
  | call c next ih =>
    intro m' hm
    obtain ⟨hpre, hnext⟩ := hp m' hm
    exact ⟨hpre, fun o => ih _ (hnext o)⟩

variable {c : I.Call}

/-- **One call.** It is made within the discipline, and what it answers satisfies
    `Q` from then on. -/
theorem Safe.perform {Q : Except I.Err (I.Resp c) → Stage I σ → Prop}
    (hpre : ∀ m', D.Rely i m m' → D.Pre i c m')
    (hpost : ∀ m' o m'', D.Rely i m m' → D.Rely i (m'.perform S.exec i c o) m'' →
      Q (S.exec.answer c o m'.world) m'') : D.Safe i Q (Program.perform c) m := by
  intro m' hm
  refine ⟨hpre m' hm, fun o => ?_⟩
  cases hr : S.exec.answer c o m'.world with
  | ok r =>
    intro m'' hm'
    rw [← hr]
    exact hpost m' o m'' hm hm'
  | error e =>
    intro m'' hm'
    rw [← hr]
    exact hpost m' o m'' hm hm'

/-- **A call and what follows it.** The rest starts in the stage right after the
    call, with its answer. -/
theorem Safe.call {f : I.Resp c → Program I α} (hpre : ∀ m', D.Rely i m m' → D.Pre i c m')
    (hok : ∀ m' o r, D.Rely i m m' → S.exec.answer c o m'.world = .ok r →
      D.Safe i Q (f r) (m'.perform S.exec i c o))
    (herr : ∀ m' o e m'', D.Rely i m m' → S.exec.answer c o m'.world = .error e →
      D.Rely i (m'.perform S.exec i c o) m'' → Q (.error e) m'') :
    D.Safe i Q ((Program.perform c).bind f) m := by
  intro m' hm
  refine ⟨hpre m' hm, fun o => ?_⟩
  cases hr : S.exec.answer c o m'.world with
  | ok r => exact hok m' o r hm hr
  | error e => exact fun m'' hm' => herr m' o e m'' hm hr hm'

/-! ## Sequencing with a frame

Most programs end where they started, up to what the discipline lets any worker
do, after calls of some kind only. -/

variable (D) in
/-- From `m` to `m'` the world moved on, and worker `i` made only calls that
    satisfy `R`. -/
structure Went (R : I.Call → Prop) (i : Nat) (m m' : Stage I σ) : Prop where
  ext : D.Ext m.world m'.world
  own : ∃ t, m'.own i = m.own i ++ t ∧ ∀ x ∈ t, R x.1

variable {R : I.Call → Prop}

theorem Went.trans (h : D.Went R i m m') (h' : D.Went R i m' m'') : D.Went R i m m'' := by
  obtain ⟨t, ht, hR⟩ := h.own
  obtain ⟨t', ht', hR'⟩ := h'.own
  refine ⟨D.ext_trans h.ext h'.ext, t ++ t', by rw [ht', ht, List.append_assoc], ?_⟩
  intro x hx
  rcases List.mem_append.mp hx with hx | hx
  · exact hR x hx
  · exact hR' x hx

theorem Rely.went (h : D.Rely i m m') : D.Went R i m m' :=
  ⟨h.ext, [], by rw [h.own, List.append_nil], by simp⟩

variable {R' : I.Call → Prop}

theorem Went.mono (h : D.Went R i m m') (hR : ∀ c, R c → R' c) : D.Went R' i m m' := by
  obtain ⟨t, ht, hx⟩ := h.own
  exact ⟨h.ext, t, ht, fun x hmem => hR _ (hx x hmem)⟩

theorem Went.prefix (h : D.Went R i m m') : m.own i <+: m'.own i := by
  obtain ⟨t, ht, -⟩ := h.own
  exact ⟨t, ht.symm⟩

theorem went_perform (o : κ) (hinv : D.Inv m) (hpre : D.Pre i c m) (hc : R c) :
    D.Went R i m (m.perform S.exec i c o) :=
  ⟨D.ext_call o hinv hpre, [⟨c, S.exec.answer c o m.world⟩], Stage.own_perform .., by simpa using hc⟩

/-- What a result that is returned satisfies. -/
def Returns (P : α → Stage I σ → Prop) : Except I.Err α → Stage I σ → Prop
  | .ok a, m => P a m
  | .error _, _ => True

variable (D) in
/-- The postcondition `P`, within the frame `Went R`. -/
def Ends (R : I.Call → Prop) (i : Nat) (m : Stage I σ) (P : Except I.Err α → Stage I σ → Prop) :
    Except I.Err α → Stage I σ → Prop :=
  fun r m' => D.Went R i m m' ∧ P r m'

variable {P : Except I.Err α → Stage I σ → Prop}

theorem Safe.done {a : α} (h : ∀ m', D.Rely i m m' → P (.ok a) m') : D.Safe i (D.Ends R i m P) (.ret a) m :=
  fun m' hm => ⟨hm.went, h m' hm⟩

theorem Safe.fails {e : I.Err} {P : α → Stage I σ → Prop} : D.Safe i (D.Ends R i m (Returns P)) (.raise e) m :=
  fun _ hm => ⟨hm.went, trivial⟩

theorem Ends.mono {P' : Except I.Err α → Stage I σ → Prop} (hp : D.Safe i (D.Ends R i m P) p m)
    (h : ∀ r m', D.Went R i m m' → P r m' → P' r m') : D.Safe i (D.Ends R i m P') p m :=
  Safe.mono hp fun r m' hr => ⟨hr.1, h r m' hr.1 hr.2⟩

theorem Ends.after (hw : D.Went R i m m') (hp : D.Safe i (D.Ends R i m' P) p m') :
    D.Safe i (D.Ends R i m P) p m' :=
  Safe.mono hp fun _ _ hr => ⟨hw.trans hr.1, hr.2⟩

theorem Safe.seq {P : α → Stage I σ → Prop} {Q : β → Stage I σ → Prop} {f : α → Program I β}
    (hp : D.Safe i (D.Ends R i m (Returns P)) p m)
    (hf : ∀ a m', D.Went R i m m' → P a m' → D.Safe i (D.Ends R i m' (Returns Q)) (f a) m') :
    D.Safe i (D.Ends R i m (Returns Q)) (p.bind f) m :=
  Safe.bind hp (fun a m' h => Ends.after h.1 (hf a m' h.1 h.2)) fun _ _ h => ⟨h.1, trivial⟩

theorem Safe.seq_attempt {Q : Except I.Err β → Stage I σ → Prop} (hp : D.Safe i (D.Ends R i m P) p m)
    (hf : ∀ r m', D.Went R i m m' → P r m' → D.Safe i (D.Ends R i m' Q) (f r) m') :
    D.Safe i (D.Ends R i m Q) (p.attempt.bind f) m :=
  Safe.attempt_bind hp fun r m' h => Ends.after h.1 (hf r m' h.1 h.2)

variable (D) in
/-- Worker `i` made one call, which answered `r`, and nothing else. -/
structure Called (i : Nat) (c : I.Call) (m m' : Stage I σ) (r : I.Answer c) : Prop where
  own : m'.own i = m.own i ++ [⟨c, r⟩]
  call : ∃ m₁ o, D.Rely i m m₁ ∧ D.Pre i c m₁ ∧ S.exec.answer c o m₁.world = r ∧
    D.Ext (S.exec.after c o m₁.world) m'.world

/-- **One call**, with what it did. -/
theorem Safe.one (hc : R c) (hpre : ∀ m', D.Rely i m m' → D.Pre i c m') :
    D.Safe i (D.Ends R i m fun r m' => D.Called i c m m' r) (Program.perform c) m := by
  refine Safe.perform hpre fun m₁ o m₂ h₁ h₂ => ⟨?_, ?_, m₁, o, h₁, hpre m₁ h₁, rfl, h₂.ext⟩
  · exact (h₁.went.trans (went_perform o h₁.inv (hpre m₁ h₁) hc)).trans h₂.went
  · rw [h₂.own, Stage.own_perform, h₁.own]

/-- **Programs whose calls are always allowed.** They are safe, and what they
    exchanged is a trace of theirs. -/
theorem Safe.only (hR : ∀ i c m, R' c → D.Pre i c m) (hR' : ∀ c, R' c → R c) (hp : p.Only R') :
    D.Safe i (D.Ends R i m fun r m' => ∃ t, p.Trace t r ∧ m'.own i = m.own i ++ t) p m := by
  induction p generalizing m with
  | ret a => exact fun m' hm => ⟨hm.went, [], ⟨rfl, rfl⟩, by rw [hm.own, List.append_nil]⟩
  | raise e => exact fun m' hm => ⟨hm.went, [], ⟨rfl, rfl⟩, by rw [hm.own, List.append_nil]⟩
  | call c next ih =>
    intro m' hm
    have hpre := hR i c m' hp.1
    refine ⟨hpre, fun o => (ih _ (hp.2 _)).mono ?_⟩
    rintro r m'' ⟨hwent, t, ht, hown⟩
    refine ⟨(hm.went.trans (went_perform o hm.inv hpre (hR' c hp.1))).trans hwent, ⟨c, _⟩ :: t,
      ⟨_, t, rfl, ht⟩, ?_⟩
    rw [hown, Stage.own_perform, hm.own, List.append_assoc, List.singleton_append]

/-! ## Pools of safe programs -/

variable (D) in
/-- Every program that may start is safe for a worker that has made no call yet. -/
def Covers : Prop :=
  ∀ p, S.Starts p → ∀ i m, m.own i = [] → D.Safe i (Anything (α := Unit)) p m

theorem rely_perform {j : Nat} (o : κ) (hij : i ≠ j) (hinv : D.Inv m) (hpre : D.Pre i c m) :
    D.Rely j m (m.perform S.exec i c o) := by
  refine ⟨D.ext_call o hinv hpre, ⟨[⟨i, c, S.exec.answer c o m.world⟩], rfl, ?_⟩, D.inv_call o hinv hpre⟩
  intro e he
  rw [List.mem_singleton] at he
  rw [he]
  exact hij

/-- What a pool of safe programs keeps: the invariant, every worker's rest is safe
    from here, and only workers that exist have made calls. -/
structure Kept (D : Discipline S) (s : Pool I σ) : Prop where
  inv : D.Inv s.stage
  safe : ∀ i p, s.workers[i]? = some p → D.Safe i (Anything (α := Unit)) p s.stage
  known : ∀ e ∈ s.stage.history, e.worker < s.workers.length

variable {s : Pool I σ}

theorem Kept.own_new (h : Kept D s) : s.stage.own s.workers.length = [] := by
  rw [Stage.own, List.filterMap_eq_nil_iff]
  intro e he
  exact if_neg (Nat.ne_of_lt (h.known e he))

theorem Kept.start {p : Program I Unit} (h : Kept D s) (hD : D.Covers) (hp : S.Starts p) :
    Kept D { s with workers := s.workers ++ [p] } := by
  refine ⟨h.inv, ?_, ?_⟩
  · intro i q hq
    rcases Nat.lt_trichotomy i s.workers.length with hi | hi | hi
    · rw [List.getElem?_append_left hi] at hq
      exact h.safe i q hq
    · subst hi
      simp only [List.getElem?_append_right (Nat.le_refl _), Nat.sub_self,
        List.getElem?_cons_zero, Option.some.injEq] at hq
      subst hq
      exact hD p hp _ _ h.own_new
    · have : (s.workers ++ [p])[i]? = none := List.getElem?_eq_none (by simp; omega)
      rw [this] at hq
      cases hq
  · intro e he
    have := h.known e he
    simp only [List.length_append, List.length_singleton]
    omega

theorem Kept.call {i : Nat} {next : I.Answer c → Program I Unit} {o : κ} (h : Kept D s)
    (hi : s.workers[i]? = some (.call c next)) :
    Kept D { stage := s.stage.perform S.exec i c o
             workers := s.workers.set i (next (S.exec.answer c o s.stage.world)) } := by
  have hlt : i < s.workers.length := (List.getElem?_eq_some_iff.mp hi).1
  obtain ⟨hpre, hnext⟩ := h.safe i _ hi s.stage (Rely.refl h.inv)
  refine ⟨D.inv_call o h.inv hpre, ?_, ?_⟩
  · intro j q hq
    by_cases hij : i = j
    · subst hij
      rw [List.getElem?_set_self hlt] at hq
      cases hq
      exact hnext o
    · rw [List.getElem?_set_ne hij] at hq
      exact (h.safe j q hq).rely (rely_perform o hij h.inv hpre)
  · intro e he
    rw [List.length_set]
    rcases List.mem_append.mp he with he | he
    · exact h.known e he
    · rw [List.mem_singleton] at he
      rw [he]
      exact hlt

variable {w : σ}

theorem Kept.env (h : Kept D s) (hw : S.Env s.stage.world w) :
    Kept D { s with stage := { s.stage with world := w } } := by
  have hinv := D.inv_env h.inv hw
  exact ⟨hinv, fun i p hp => (h.safe i p hp).rely ⟨D.ext_env hw, ⟨[], by simp, by simp⟩, hinv⟩, h.known⟩

variable {steps : List (Stage I σ × Action I σ κ)}

theorem run_kept (hD : D.Covers) (hw : D.Inv ⟨w, []⟩) (run : Run S w steps s) : Kept D s := by
  induction run with
  | nil => exact ⟨hw, by simp [Pool.init], by simp [Pool.init]⟩
  | snoc _ step ih =>
    cases step with
    | start hp => exact ih.start hD hp
    | call hi => exact ih.call hi
    | env hw => exact ih.env hw

/-- **Every call of every run is made within the discipline.** -/
theorem run_pre (hD : D.Covers) (hw : D.Inv ⟨w, []⟩) {i : Nat} {next : I.Answer c → Program I Unit}
    (run : Run S w steps s) (hi : s.workers[i]? = some (.call c next)) : D.Inv s.stage ∧ D.Pre i c s.stage := by
  have hk := run_kept hD hw run
  exact ⟨hk.inv, (hk.safe i _ hi s.stage (Rely.refl hk.inv)).1⟩

variable {J : Stage I σ → Prop} {K : Stage I σ → Action I σ κ → Prop}

/-- **The invariant rule.** What holds at first, and is kept by each disciplined
    call that meets `K` and by each change from outside, holds at the end of
    every run whose steps all meet `K`. -/
theorem run_invariant (hD : D.Covers) (hw : D.Inv ⟨w, []⟩) (hinit : J ⟨w, []⟩)
    (hcall : ∀ m i c o, J m → D.Inv m → D.Pre i c m → K m (.call i c o) →
      J (m.perform S.exec i c o)) (henv : ∀ m w', J m → S.Env m.world w' → J { m with world := w' })
    (run : Run S w steps s) (hok : Meets K steps) : J s.stage := by
  induction run with
  | nil => exact hinit
  | snoc run step ih =>
    obtain ⟨hsteps, hlast⟩ := meets_snoc.mp hok
    cases step with
    | start hp => exact ih hsteps
    | call hi =>
      obtain ⟨hinv, hpre⟩ := run_pre hD hw run hi
      exact hcall _ _ _ _ (ih hsteps) hinv hpre hlast
    | env hw => exact henv _ _ (ih hsteps) hw

/-- **The rule for steps.** The invariant holds in the stage of every step, and every call is
    made within the discipline. -/
theorem run_steps (hD : D.Covers) (hw : D.Inv ⟨w, []⟩) (hinit : J ⟨w, []⟩)
    (hcall : ∀ m i c o, J m → D.Inv m → D.Pre i c m → K m (.call i c o) →
      J (m.perform S.exec i c o)) (henv : ∀ m w', J m → S.Env m.world w' → J { m with world := w' })
    (run : Run S w steps s) (hok : Meets K steps) {m : Stage I σ} {i : Nat} {o : κ}
    (hmem : (m, .call i c o) ∈ steps) : J m ∧ D.Pre i c m := by
  induction run with
  | nil => cases hmem
  | @snoc steps s s' a run step ih =>
    obtain ⟨hsteps, -⟩ := meets_snoc.mp hok
    rcases List.mem_append.mp hmem with hmem | hmem
    · exact ih hsteps hmem
    · rw [List.mem_singleton] at hmem
      cases hmem
      cases step with
      | call hi => exact ⟨run_invariant hD hw hinit hcall henv run hsteps, (run_pre hD hw run hi).2⟩

/-- **The rule for what never comes back**, in runs whose steps all meet `K`. -/
theorem run_later (hD : D.Covers) {R : Stage I σ → Stage I σ → Prop} (hrefl : ∀ m, R m m)
    (htrans : ∀ m₁ m₂ m₃, R m₁ m₂ → R m₂ m₃ → R m₁ m₃) (hw : D.Inv ⟨w, []⟩)
    (hcall : ∀ m i c o, D.Inv m → D.Pre i c m → K m (.call i c o) → R m (m.perform S.exec i c o))
    (henv : ∀ m w', S.Env m.world w' → R m { m with world := w' }) (run : Run S w steps s) (hok : Meets K steps)
    {m : Stage I σ} (hm : m ∈ visited steps s) : R m s.stage := by
  induction run with
  | nil =>
    have hm : m = (Pool.init w).stage := by simpa [visited] using hm
    rw [hm]
    exact hrefl _
  | @snoc steps s s' a run step ih =>
    obtain ⟨hsteps, hlast⟩ := meets_snoc.mp hok
    have hstep : R s.stage s'.stage := by
      cases step with
      | start hp => exact hrefl _
      | call hi =>
        obtain ⟨hinv, hpre⟩ := run_pre hD hw run hi
        exact hcall _ _ _ _ hinv hpre hlast
      | env hw => exact henv _ _ hw
    rcases mem_visited_snoc.mp hm with hm | rfl
    · exact htrans _ _ _ (ih hsteps hm) hstep
    · exact hrefl _

/-- **The invariant rule, both ways.** A property holds in every stage of a run exactly when
    every step of it meets `K`, where, under an invariant, a call meets `K` just when it keeps
    the property. -/
theorem run_always_iff (hD : D.Covers) {P : Stage I σ → Prop} (hw : D.Inv ⟨w, []⟩) (hinit : J ⟨w, []⟩)
    (hP : P ⟨w, []⟩) (hstart : ∀ m p, K m (.start p))
    (hinv : ∀ m i c o, J m → D.Inv m → D.Pre i c m → J (m.perform S.exec i c o))
    (hcall : ∀ m i c o, J m → D.Pre i c m → P m → (K m (.call i c o) ↔ P (m.perform S.exec i c o)))
    (henvInv : ∀ m w', J m → S.Env m.world w' → J { m with world := w' })
    (henv : ∀ m w', P m → S.Env m.world w' → K m (.env w') ∧ P { m with world := w' }) (run : Run S w steps s) :
    (∀ m ∈ visited steps s, P m) ↔ Meets K steps := by
  induction run with
  | nil => simpa [visited, Pool.init] using hP
  | @snoc steps s s' a run step ih =>
    have hlast : s.stage ∈ visited steps s := by
      simp [visited]
    have hstep : P s.stage → (K s.stage a ↔ P s'.stage) := by
      intro hs
      cases step with
      | start hp => exact iff_of_true (hstart _ _) hs
      | call hi =>
        have hkept := run_invariant hD hw hinit (fun m i c o h hm hpre _ => hinv m i c o h hm hpre) henvInv
          run (K := fun _ _ => True) fun _ _ => trivial
        exact hcall _ _ _ _ hkept (run_pre hD hw run hi).2 hs
      | env hw' => exact iff_of_true (henv _ _ hs hw').1 (henv _ _ hs hw').2
    rw [meets_snoc, ← ih]
    constructor
    · intro h
      have hbefore : ∀ m ∈ visited steps s, P m := fun m hm => h m (mem_visited_snoc.mpr (.inl hm))
      exact ⟨hbefore, (hstep (hbefore _ hlast)).mpr (h _ (mem_visited_snoc.mpr (.inr rfl)))⟩
    · rintro ⟨hbefore, hok⟩ m hm
      rcases mem_visited_snoc.mp hm with hm | rfl
      · exact hbefore m hm
      · exact (hstep (hbefore _ hlast)).mp hok

end Discipline

end Interleaving
