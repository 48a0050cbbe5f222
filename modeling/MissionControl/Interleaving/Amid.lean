import MissionControl.Interleaving.Pool

/-! # A program amid others

What a program does when anything may happen between its calls. Each call of its own is logged
with the world it was made in and with what the outside decided about it, so what the program
changes can be told apart from what changes around it. The calls one worker makes in a run are
such an execution of the program it was started with (`Run.amid`). -/

namespace Interleaving

variable {I : Interface} {σ κ α β : Type}

/-- A call a program made: the world it was made in, and what the outside decided. -/
structure OwnCall (I : Interface) (σ κ : Type) where
  world : σ
  call : I.Call
  outside : κ

namespace OwnCall

variable (exec : Exec I σ κ)

/-- What the call came back with. -/
def answer (x : OwnCall I σ κ) : I.Answer x.call := exec.answer x.call x.outside x.world

/-- The world the call left. -/
def after (x : OwnCall I σ κ) : σ := exec.after x.call x.outside x.world

end OwnCall

/-- `p` has made the calls `l`, and `q` is what it has left to do. Nothing relates the world a call
    left to the one the next call is made in. -/
inductive Amid (exec : Exec I σ κ) : Program I α → List (OwnCall I σ κ) → Program I α → Prop
  | refl {p : Program I α} : Amid exec p [] p
  | call {c : I.Call} {next : I.Answer c → Program I α} {q : Program I α} {w : σ} {o : κ}
      {l : List (OwnCall I σ κ)} (h : Amid exec (next (exec.answer c o w)) l q) :
      Amid exec (.call c next) (⟨w, c, o⟩ :: l) q

namespace Amid

variable {exec : Exec I σ κ} {l : List (OwnCall I σ κ)}

variable {q : Program I α}

theorem of_ret {a : α} (h : Amid exec (.ret a) l q) : l = [] ∧ q = .ret a := by
  cases h
  exact ⟨rfl, rfl⟩

variable {e : I.Err}

theorem of_raise (h : Amid exec (.raise e) l q) : l = [] ∧ q = .raise e := by
  cases h
  exact ⟨rfl, rfl⟩

variable {c : I.Call} {p : Program I α}

theorem snoc {next : I.Answer c → Program I α} (h : Amid exec p l (.call c next)) (w : σ) (o : κ) :
    Amid exec p (l ++ [⟨w, c, o⟩]) (next (exec.answer c o w)) := by
  generalize hq : Program.call c next = q at h
  induction h with
  | refl =>
    subst hq
    exact .call .refl
  | call _ ih => exact .call (ih hq)

variable {f : α → Program I β}

theorem of_bind (h : Amid exec (p.bind f) l (.raise e)) : Amid exec p l (.raise e) ∨
      ∃ a l₁ l₂, l = l₁ ++ l₂ ∧ Amid exec p l₁ (.ret a) ∧ Amid exec (f a) l₂ (.raise e) := by
  induction p generalizing l with
  | ret a => exact .inr ⟨a, [], l, rfl, .refl, h⟩
  | raise e' =>
    obtain ⟨rfl, he⟩ := h.of_raise
    cases he
    exact .inl .refl
  | call c next ih =>
    cases h with
    | call h =>
      rcases ih _ h with h | ⟨a, l₁, l₂, rfl, h₁, h₂⟩
      · exact .inl (.call h)
      · exact .inr ⟨a, _ :: l₁, l₂, rfl, .call h₁, h₂⟩

theorem of_perform (h : Amid exec (.perform c) l (.raise e)) :
    ∃ w o, l = [⟨w, c, o⟩] ∧ exec.answer c o w = .error e := by
  cases h with
  | @call _ _ _ w o l h =>
    refine ⟨w, o, ?_⟩
    revert h
    cases exec.answer c o w with
    | ok x => exact fun h => nomatch h.of_ret.2
    | error e' =>
      intro h
      obtain ⟨rfl, he⟩ := h.of_raise
      cases he
      exact ⟨rfl, rfl⟩

theorem of_void (h : Amid exec p.void l (.raise e)) : Amid exec p l (.raise e) := by
  induction p generalizing l with
  | ret a => exact nomatch h.of_ret.2
  | raise e' =>
    obtain ⟨rfl, he⟩ := h.of_raise
    cases he
    exact .refl
  | call c next ih =>
    cases h with
    | call h => exact .call (ih _ h)

theorem of_bind_ret {b : β} (h : Amid exec (p.bind f) l (.ret b)) :
    ∃ a l₁ l₂, l = l₁ ++ l₂ ∧ Amid exec p l₁ (.ret a) ∧ Amid exec (f a) l₂ (.ret b) := by
  induction p generalizing l with
  | ret a => exact ⟨a, [], l, rfl, .refl, h⟩
  | raise e => exact nomatch h.of_raise.2
  | call c next ih =>
    cases h with
    | call h =>
      obtain ⟨a, l₁, l₂, rfl, h₁, h₂⟩ := ih _ h
      exact ⟨a, _ :: l₁, l₂, rfl, .call h₁, h₂⟩

theorem of_perform_ret {a : I.Resp c} (h : Amid exec (.perform c) l (.ret a)) :
    ∃ w o, l = [⟨w, c, o⟩] ∧ exec.answer c o w = .ok a := by
  cases h with
  | @call _ _ _ w o l h =>
    refine ⟨w, o, ?_⟩
    revert h
    cases exec.answer c o w with
    | error e => exact fun h => nomatch h.of_raise.2
    | ok x =>
      intro h
      obtain ⟨rfl, hx⟩ := h.of_ret
      cases hx
      exact ⟨rfl, rfl⟩

theorem of_attempt {a : α} (h : Amid exec p.attempt l (.ret (.ok a))) : Amid exec p l (.ret a) := by
  induction p generalizing l with
  | ret x =>
    obtain ⟨rfl, hx⟩ := h.of_ret
    cases hx
    exact .refl
  | raise e => exact nomatch h.of_ret.2
  | call c next ih =>
    cases h with
    | call h => exact .call (ih _ h)

theorem of_void_ret {u : Unit} (h : Amid exec p.void l (.ret u)) : ∃ a, Amid exec p l (.ret a) := by
  induction p generalizing l with
  | ret a =>
    obtain ⟨rfl, -⟩ := h.of_ret
    exact ⟨a, .refl⟩
  | raise e => exact nomatch h.of_raise.2
  | call c next ih =>
    cases h with
    | call h =>
      obtain ⟨a, h⟩ := ih _ h
      exact ⟨a, .call h⟩

theorem only {R : I.Call → Prop} (hp : p.Only R) (h : Amid exec p l q) : ∀ x ∈ l, R x.call := by
  induction h with
  | refl => simp
  | call _ ih =>
    rw [List.forall_mem_cons]
    exact ⟨hp.1, ih (hp.2 _)⟩

end Amid

/-- The program never raises, whatever happens around it. -/
def Quietly (exec : Exec I σ κ) (p : Program I α) : Prop :=
  ∀ l e, ¬ Amid exec p l (.raise e)

namespace Quietly

variable {exec : Exec I σ κ}

theorem ret (a : α) : Quietly exec (.ret a : Program I α) :=
  fun _ _ h => nomatch h.of_ret.2

theorem perform {c : I.Call} (hc : ∀ o w e, exec.answer c o w ≠ .error e) : Quietly exec (.perform c) := by
  intro l e h
  obtain ⟨w, o, -, he⟩ := h.of_perform
  exact hc o w e he

theorem bind {p : Program I α} {f : α → Program I β} (hp : Quietly exec p)
    (hf : ∀ a, Quietly exec (f a)) : Quietly exec (p.bind f) := by
  intro l e h
  rcases h.of_bind with h | ⟨a, l₁, l₂, -, -, h⟩
  · exact hp l e h
  · exact hf a l₂ e h

end Quietly

/-! ## Workers of a pool -/

/-- The program an action starts. -/
def Action.program : Action I σ κ → Option (Program I Unit)
  | .start p => some p
  | _ => none

/-- The program a line of a schedule starts. -/
def Move.program : Move I σ κ → Option (Program I Unit)
  | .start p => some p
  | _ => none

/-- The call worker `i` makes by an action. -/
def Action.ownCall (i : Nat) (w : σ) : Action I σ κ → Option (OwnCall I σ κ)
  | .call j c o => if j = i then some ⟨w, c, o⟩ else none
  | _ => none

/-- The programs started, in order. -/
def started (steps : List (Stage I σ × Action I σ κ)) : List (Program I Unit) :=
  steps.filterMap fun x => x.2.program

/-- The calls worker `i` has made. -/
def ownCalls (i : Nat) (steps : List (Stage I σ × Action I σ κ)) : List (OwnCall I σ κ) :=
  steps.filterMap fun x => x.2.ownCall i x.1.world

theorem started_snoc (steps : List (Stage I σ × Action I σ κ)) (m : Stage I σ) (a : Action I σ κ) :
    started (steps ++ [(m, a)]) = started steps ++ a.program.toList := by
  unfold started
  rw [List.filterMap_append]
  cases h : a.program <;> simp [h]

theorem ownCalls_snoc (i : Nat) (steps : List (Stage I σ × Action I σ κ)) (m : Stage I σ) (a : Action I σ κ) :
    ownCalls i (steps ++ [(m, a)]) = ownCalls i steps ++ (a.ownCall i m.world).toList := by
  unfold ownCalls
  rw [List.filterMap_append]
  cases h : a.ownCall i m.world <;> simp [h]

variable {steps : List (Stage I σ × Action I σ κ)} {s : Pool I σ}

theorem exists_visited_of_ownCall {i : Nat} {x : OwnCall I σ κ} (hx : x ∈ ownCalls i steps) :
    ∃ m ∈ visited steps s, m.world = x.world := by
  obtain ⟨⟨m, a⟩, hmem, ha⟩ := List.mem_filterMap.mp hx
  refine ⟨m, List.mem_append_left _ (List.mem_map_of_mem hmem), ?_⟩
  cases a with
  | start p => cases ha
  | env w => cases ha
  | call j c o =>
    simp only [Action.ownCall] at ha
    split at ha
    · cases ha
      rfl
    · cases ha

variable {S : System I σ κ}

variable {w : σ}

theorem Run.starts (run : Run S w steps s) : ∀ p ∈ started steps, S.Starts p := by
  induction run with
  | nil => simp [started]
  | snoc _ step ih =>
    rw [started_snoc, List.forall_mem_append]
    refine ⟨ih, ?_⟩
    cases step with
    | start hp => simpa [Action.program] using hp
    | call | env => simp [Action.program]

/-- **A worker's own calls are an execution of the program it was started with**, amid whatever the
    others did. -/
theorem Run.amid (run : Run S w steps s) : (started steps).length = s.workers.length ∧
      (∀ i, s.workers.length ≤ i → ownCalls i steps = []) ∧
      ∀ i p q, (started steps)[i]? = some p → s.workers[i]? = some q → Amid S.exec p (ownCalls i steps) q := by
  induction run with
  | nil => simp [started, ownCalls, Pool.init]
  | @snoc steps s s' a run step ih =>
    obtain ⟨hlength, hfresh, hamid⟩ := ih
    simp only [started_snoc, ownCalls_snoc]
    cases step with
    | start hp =>
      simp only [Action.program, Action.ownCall, Option.toList_some, Option.toList_none,
        List.append_nil, List.length_append]
      refine ⟨by rw [hlength], fun i hi => ?_, fun i p q hp hq => ?_⟩
      · exact hfresh i (Nat.le_of_add_right_le hi)
      · rcases Nat.lt_or_ge i s.workers.length with hi | hi
        · rw [List.getElem?_append_left (hlength ▸ hi)] at hp
          rw [List.getElem?_append_left hi] at hq
          exact hamid i p q hp hq
        · -- the worker that has just been started
          rw [List.getElem?_append_right (hlength ▸ hi), hlength] at hp
          rw [List.getElem?_append_right hi, hp] at hq
          cases hq
          rw [hfresh i hi]
          exact .refl
    | @call j c next o hj =>
      have hlt : j < s.workers.length := (List.getElem?_eq_some_iff.mp hj).1
      simp only [Action.program, Action.ownCall, Option.toList_none, List.append_nil, List.length_set]
      refine ⟨hlength, fun i hi => ?_, fun i p q hp hq => ?_⟩
      · rw [if_neg (by omega), hfresh i hi]
        rfl
      · by_cases hji : j = i
        · subst hji
          rw [List.getElem?_set_self hlt] at hq
          cases hq
          rw [if_pos rfl]
          exact (hamid j p _ hp hj).snoc _ _
        · rw [List.getElem?_set_ne hji] at hq
          rw [if_neg hji, Option.toList_none, List.append_nil]
          exact hamid i p q hp hq
    | env hw =>
      simp only [Action.program, Action.ownCall, Option.toList_none, List.append_nil]
      exact ⟨hlength, hfresh, hamid⟩

/-- **A worker's own calls stand in the order of the run.** A relation each step of the run
    respects leads from the world a call left to the world of each later one, and to the last. -/
theorem Run.ownCalls_pairwise {R : σ → σ → Prop} (hrefl : ∀ w, R w w)
    (htrans : ∀ w₁ w₂ w₃, R w₁ w₂ → R w₂ w₃ → R w₁ w₃)
    (hstep : ∀ before s a s', Run S w before s → Step S s a s' → R s.stage.world s'.stage.world)
    (run : Run S w steps s) (i : Nat) : (ownCalls i steps).Pairwise (fun x y => R (x.after S.exec) y.world) ∧
      ∀ x ∈ ownCalls i steps, R x.world (x.after S.exec) ∧ R (x.after S.exec) s.stage.world := by
  induction run with
  | nil => exact ⟨List.Pairwise.nil, fun x hx => nomatch hx⟩
  | @snoc steps s s' a run step ih =>
    obtain ⟨hpairs, hlast⟩ := ih
    have hmove := hstep steps s a s' run step
    have hold : ∀ x ∈ ownCalls i steps, R x.world (x.after S.exec) ∧ R (x.after S.exec) s'.stage.world :=
      fun x hx => ⟨(hlast x hx).1, htrans _ _ _ (hlast x hx).2 hmove⟩
    rw [ownCalls_snoc]
    cases step with
    | start hp => simpa [Action.ownCall] using And.intro hpairs hold
    | env hw => simpa [Action.ownCall] using And.intro hpairs hold
    | @call j c next o hj =>
      by_cases hji : j = i
      · -- the call that has just been made is the last of its worker
        simp only [Action.ownCall, if_pos hji, Option.toList_some, List.pairwise_append,
          List.forall_mem_append, List.forall_mem_singleton]
        exact ⟨⟨hpairs, List.pairwise_singleton _ _, fun x hx => (hlast x hx).2⟩, hold, hmove, hrefl _⟩
      · simpa [Action.ownCall, hji] using And.intro hpairs hold

theorem program_of_advance {s' : Pool I σ} {x : Move I σ κ} {a : Action I σ κ}
    (h : advance S s x = some (a, s')) : a.program = x.program := by
  cases x with
  | start p =>
    cases h
    rfl
  | env f =>
    cases h
    rfl
  | call i o =>
    simp only [advance] at h
    split at h
    · cases h
      rfl
    · cases h

theorem started_play (moves : List (Move I σ κ)) (s : Pool I σ) :
    started (play S s moves).1 = moves.filterMap Move.program := by
  induction moves generalizing s with
  | nil => rfl
  | cons x moves ih =>
    rw [play]
    cases hadv : advance S s x with
    | none =>
      have hx : x.program = none := by
        cases x with
        | start p => cases hadv
        | env f => cases hadv
        | call i o => rfl
      rw [List.filterMap_cons_none hx]
      exact ih s
    | some y =>
      obtain ⟨a, s'⟩ := y
      have hprogram := program_of_advance hadv
      have hstarted : started ((s.stage, a) :: (play S s' moves).1) =
          x.program.toList ++ moves.filterMap Move.program := by
        rw [← ih s', ← hprogram]
        unfold started
        cases h : a.program <;> simp [h]
      rw [hstarted]
      cases h : x.program <;> simp [h]

end Interleaving

/-! # What a worker was started with

A worker's exchanges are those of its own calls (`Run.own`), and these are an execution of the program it was
started with (`Run.origin`). So what every program that may start obeys holds of every call (`Run.obeys`). -/

namespace Interleaving

variable {I : Interface} {σ κ α : Type} {exec : Exec I σ κ}

/-- The call with its answer. -/
def OwnCall.exchange (exec : Exec I σ κ) (x : OwnCall I σ κ) : Program.Exchange I := ⟨x.call, x.answer exec⟩

variable {Pre : List (Program.Exchange I) → I.Call → Prop}

theorem Amid.obeys {Q : α → List (Program.Exchange I) → Prop} {past : List (Program.Exchange I)}
    {p q : Program I α} {l : List (OwnCall I σ κ)} (h : Amid exec p l q) (hp : p.Obeys Pre Q past) :
    q.Obeys Pre Q (past ++ l.map (OwnCall.exchange exec)) := by
  induction h generalizing past with
  | refl =>
    rw [List.map_nil, List.append_nil]
    exact hp
  | call _ ih =>
    have hrest := ih (hp.2 _)
    rw [List.append_assoc] at hrest
    exact hrest

variable {S : System I σ κ} {w : σ} {steps : List (Stage I σ × Action I σ κ)} {s : Pool I σ}

theorem Run.own (run : Run S w steps s) (i : Nat) :
    s.stage.own i = (ownCalls i steps).map (OwnCall.exchange S.exec) := by
  induction run with
  | nil => rfl
  | @snoc steps s s' a run step ih =>
    rw [ownCalls_snoc, List.map_append, ← ih]
    cases step with
    | start hp => exact (List.append_nil _).symm
    | env hw => exact (List.append_nil _).symm
    | @call j c next o hj =>
      show (s.stage.perform S.exec j c o).own i = _
      by_cases hji : j = i
      · subst hji
        simp only [Action.ownCall, if_pos, Stage.own_perform, Option.toList_some, List.map_singleton]
        rfl
      · simp only [Action.ownCall, if_neg hji, Stage.own_perform_of_ne hji, Option.toList_none, List.map_nil,
          List.append_nil]

variable {c : I.Call} {m : Stage I σ}

/-- **Every call is one of the program its worker was started with**: what that program obeys holds of the exchanges
    of the worker before the call. -/
theorem Run.origin (run : Run S w steps s) {i : Nat} {o : κ} (h : (m, Action.call i c o) ∈ steps) :
    ∃ p, (started steps)[i]? = some p ∧ S.Starts p ∧
      ∀ Pre : List (Program.Exchange I) → I.Call → Prop, p.Obeys Pre (fun _ _ => True) [] → Pre (m.own i) c := by
  induction run with
  | nil => cases h
  | @snoc steps s s' a run step ih =>
    rcases List.mem_append.mp h with h | h
    · obtain ⟨p, hp, hstarts, hpre⟩ := ih h
      refine ⟨p, ?_, hstarts, hpre⟩
      rw [started_snoc, List.getElem?_append_left (List.getElem?_eq_some_iff.mp hp).1]
      exact hp
    · rw [List.mem_singleton] at h
      cases h
      cases step with
      | @call _ _ next _ hi =>
        obtain ⟨hlength, -, hamid⟩ := run.amid
        have hlt : i < (started steps).length := hlength ▸ (List.getElem?_eq_some_iff.mp hi).1
        have hp : (started steps)[i]? = some (started steps)[i] := List.getElem?_eq_getElem hlt
        refine ⟨(started steps)[i], ?_, run.starts _ (List.getElem_mem hlt), fun Pre hobeys => ?_⟩
        · rw [started_snoc, List.getElem?_append_left hlt]
          exact hp
        · have hleft := (hamid i _ _ hp hi).obeys hobeys
          rw [List.nil_append, ← run.own] at hleft
          exact hleft.1

/-- **What the programs that start obey holds of every call.** -/
theorem Run.obeys (hS : ∀ p, S.Starts p → p.Obeys Pre (fun _ _ => True) []) (run : Run S w steps s) {i : Nat}
    {o : κ} (h : (m, Action.call i c o) ∈ steps) : Pre (m.own i) c := by
  obtain ⟨p, -, hstarts, hpre⟩ := run.origin h
  exact hpre Pre (hS p hstarts)

theorem Run.pairwise_of_steps {R : Stage I σ → Stage I σ → Prop} {C : Stage I σ → Action I σ κ → Prop}
    (hrefl : ∀ m, R m m) (htrans : ∀ m₁ m₂ m₃, R m₁ m₂ → R m₂ m₃ → R m₁ m₃)
    (hstep : ∀ {before s a s'}, Run S w before s → Meets C before → C s.stage a → Step S s a s' →
      Run S w (before ++ [(s.stage, a)]) s' → R s.stage s'.stage)
    (run : Run S w steps s) (hmeets : Meets C steps) : (Interleaving.visited steps s).Pairwise R := by
  refine run.pairwise (C := C) (fun {steps s} run hmeets => ?_) hmeets
  induction run with
  | nil =>
    intro m hm
    rw [List.mem_singleton.mp hm]
    exact hrefl _
  | @snoc steps s s' a run step ih =>
    obtain ⟨hsteps, hlast⟩ := meets_snoc.mp hmeets
    intro m hm
    rcases mem_visited_snoc.mp hm with hm | rfl
    · exact htrans _ _ _ (ih hsteps m hm) (hstep run hsteps hlast step (run.snoc step))
    · exact hrefl _

end Interleaving

/-! # Where a worker was stopped

A worker that crashes makes no more calls. What it leaves undone is read off the calls it has made: whether a program
was carried out to its end among them (`Completes`), and whether each call that asks for more work was followed by that
work (`FollowedBy`). What a program establishes and no step takes away holds from then on (`Run.of_completes`). -/

namespace Interleaving

variable {I : Interface} {σ κ ν α β : Type} {exec : Exec I σ κ} {l l₁ l₂ : List (OwnCall I σ κ)}

/-- Some of the calls, one after the other, are an execution of the program that returned. -/
def Completes (exec : Exec I σ κ) (p : Program I α) (l : List (OwnCall I σ κ)) : Prop :=
  ∃ a before during after, l = before ++ (during ++ after) ∧ Amid exec p during (.ret a)

variable {p : Program I α}

theorem Amid.completes {a : α} (h : Amid exec p l (.ret a)) : Completes exec p l :=
  ⟨a, [], l, [], by simp, h⟩

theorem Completes.append_left (h : Completes exec p l₂) : Completes exec p (l₁ ++ l₂) := by
  obtain ⟨a, before, during, after, rfl, hp⟩ := h
  exact ⟨a, l₁ ++ before, during, after, by rw [List.append_assoc], hp⟩

theorem Completes.append_right (h : Completes exec p l₁) : Completes exec p (l₁ ++ l₂) := by
  obtain ⟨a, before, during, after, rfl, hp⟩ := h
  exact ⟨a, before, during, after ++ l₂, by simp only [List.append_assoc], hp⟩

/-- Each call that asks for the work `k` is followed by that work, carried out to its end. -/
def FollowedBy (Asks : ν → OwnCall I σ κ → Prop) (Done : ν → List (OwnCall I σ κ) → Prop) (l : List (OwnCall I σ κ)) :
    Prop :=
  ∀ k before x after, l = before ++ x :: after → Asks k x → Done k after

variable {Asks : ν → OwnCall I σ κ → Prop} {Done : ν → List (OwnCall I σ κ) → Prop}

theorem followedBy_of_never (h : ∀ x ∈ l, ∀ k, ¬ Asks k x) : FollowedBy Asks Done l := by
  rintro k before x after rfl hasks
  exact absurd hasks (h x (by simp) k)

variable {x : OwnCall I σ κ}

theorem FollowedBy.cons (hx : ∀ k, Asks k x → Done k l) (hl : FollowedBy Asks Done l) :
    FollowedBy Asks Done (x :: l) := by
  intro k before y after heq hasks
  cases before with
  | nil =>
    obtain ⟨rfl, rfl⟩ := List.cons.inj heq
    exact hx k hasks
  | cons z before =>
    obtain ⟨rfl, rfl⟩ := List.cons.inj heq
    exact hl k before y after rfl hasks

theorem FollowedBy.append (hmono : ∀ k l l', Done k l → Done k (l ++ l')) (h₁ : FollowedBy Asks Done l₁)
    (h₂ : FollowedBy Asks Done l₂) : FollowedBy Asks Done (l₁ ++ l₂) := by
  intro k before x after heq hasks
  rcases List.append_eq_append_iff.mp heq with ⟨l, rfl, h⟩ | ⟨l, rfl, h⟩
  · exact h₂ k l x after h hasks
  · cases l with
    | nil => exact h₂ k [] x after (by simpa using h.symm) hasks
    | cons y l =>
      obtain ⟨rfl, rfl⟩ := List.cons.inj h
      exact hmono k l l₂ (h₁ k before x l rfl hasks)

variable {S : System I σ κ}

variable {steps : List (Stage I σ × Action I σ κ)} {w : σ} {H : σ → Prop} {s : Pool I σ}

theorem Run.of_start
    (hkept : ∀ before s a s', Run S w before s → Step S s a s' → H s.stage.world → H s'.stage.world)
    (run : Run S w steps s) (h : H w) : H s.stage.world := by
  induction run with
  | nil => exact h
  | snoc run step ih => exact hkept _ _ _ _ run step ih

variable {i : ℕ}

/-- **What no step takes away holds on** from the call that brought it about. -/
theorem Run.of_after
    (hkept : ∀ before s a s', Run S w before s → Step S s a s' → H s.stage.world → H s'.stage.world)
    (run : Run S w steps s) (hx : x ∈ ownCalls i steps) (h : H (x.after S.exec)) : H s.stage.world :=
  ((run.ownCalls_pairwise (R := fun w w' => H w → H w') (fun _ h => h) (fun _ _ _ h h' hw => h' (h hw)) hkept i).2 x
    hx).2 h

/-- **What a program establishes** and no step takes away holds once a worker has carried the program out. -/
theorem Run.of_completes
    (hkept : ∀ before s a s', Run S w before s → Step S s a s' → H s.stage.world → H s'.stage.world)
    (run : Run S w steps s) (hp : ∀ l a, Amid S.exec p l (.ret a) → ∃ x ∈ l, H (x.after S.exec))
    {before after : List (OwnCall I σ κ)} (hown : ownCalls i steps = before ++ after)
    (h : Completes S.exec p after) : H s.stage.world := by
  obtain ⟨a, earlier, during, later, rfl, hamid⟩ := h
  obtain ⟨x, hx, hholds⟩ := hp during a hamid
  refine run.of_after hkept (i := i) (x := x) ?_ hholds
  rw [hown]
  simp [hx]

variable {c : I.Call}

theorem Run.world_of_call {before : List (Stage I σ × Action I σ κ)} {m : Stage I σ} {o : κ}
    (run : Run S w (before ++ [(m, .call i c o)]) s) : s.stage.world = S.exec.after c o m.world := by
  generalize hsteps : before ++ [(m, .call i c o)] = steps at run
  cases run with
  | nil => simp at hsteps
  | snoc run step =>
    obtain ⟨-, hlast⟩ := List.append_inj' hsteps rfl
    cases hlast
    cases step
    rfl

/-! ## What a program ends with -/

/-- The last call of the program, whenever it returns, is one of `R`. -/
def EndsIn (exec : Exec I σ κ) (R : I.Call → Prop) (p : Program I α) : Prop :=
  ∀ l a, Amid exec p l (.ret a) → ∃ before x, l = before ++ [x] ∧ R x.call

variable {R : I.Call → Prop}

theorem endsIn_raise (e : I.Err) : EndsIn exec R (.raise e : Program I α) :=
  fun _ _ h => nomatch h.of_raise.2

theorem endsIn_perform (hc : R c) (f : I.Resp c → α) :
    EndsIn exec R ((Program.perform c).bind fun r => .ret (f r)) := by
  intro l a h
  obtain ⟨r, l₁, l₂, rfl, h₁, h₂⟩ := h.of_bind_ret
  obtain ⟨w, o, rfl, -⟩ := h₁.of_perform_ret
  obtain ⟨rfl, -⟩ := h₂.of_ret
  exact ⟨[], _, rfl, hc⟩

theorem endsIn_bind {f : α → Program I β} (hf : ∀ a, EndsIn exec R (f a)) : EndsIn exec R (p.bind f) := by
  intro l b h
  obtain ⟨a, l₁, l₂, rfl, -, h₂⟩ := h.of_bind_ret
  obtain ⟨before, x, rfl, hx⟩ := hf a l₂ b h₂
  exact ⟨l₁ ++ before, x, (List.append_assoc _ _ _).symm, hx⟩

/-- The program has come to its end. -/
def Program.returned {α : Type} : Program I α → Bool
  | .ret _ => true
  | _ => false

theorem Program.eq_ret_of_returned {p : Program I Unit} (h : p.returned = true) : p = .ret () := by
  cases p with
  | ret u => rfl
  | raise e => cases h
  | call c next => cases h

end Interleaving
