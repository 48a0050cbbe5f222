import MissionControl.Interleaving.Alone
import MissionControl.Interleaving.Amid

/-! # A program alone, call by call

An execution of a program that nothing runs beside, with each of its calls: the world it was made
in, and what the outside decided about it. A program cut off at some point is one whose next call
raises an error. -/

namespace Interleaving

variable {I : Interface} {σ κ α β : Type}

/-- Alone, `p` leads from the world `w` to `w'` by the calls `l`, and ends with `r`. -/
inductive Solo (exec : Exec I σ κ) :
    Program I α → σ → List (OwnCall I σ κ) → Except I.Err α → σ → Prop
  | ret {a : α} {w : σ} : Solo exec (.ret a) w [] (.ok a) w
  | raise {e : I.Err} {w : σ} : Solo exec (.raise e) w [] (.error e) w
  | call {c : I.Call} {next : I.Answer c → Program I α} {w w' : σ} {r : Except I.Err α}
      {l : List (OwnCall I σ κ)} (o : κ)
      (h : Solo exec (next (exec.answer c o w)) (exec.after c o w) l r w') :
      Solo exec (.call c next) w (⟨w, c, o⟩ :: l) r w'

namespace Solo

variable {exec : Exec I σ κ} {w w' : σ} {l : List (OwnCall I σ κ)}

variable {r : Except I.Err α}

theorem of_ret {a : α} (h : Solo exec (.ret a) w l r w') : l = [] ∧ r = .ok a ∧ w' = w := by
  cases h
  exact ⟨rfl, rfl, rfl⟩

theorem of_raise {e : I.Err} (h : Solo exec (.raise e) w l r w') : l = [] ∧ r = .error e ∧ w' = w := by
  cases h
  exact ⟨rfl, rfl, rfl⟩

variable {p : Program I α}

theorem of_bind {f : α → Program I β} {r : Except I.Err β} (h : Solo exec (p.bind f) w l r w') :
    (∃ e, Solo exec p w l (.error e) w' ∧ r = .error e) ∨
      ∃ a w₁ l₁ l₂, l = l₁ ++ l₂ ∧ Solo exec p w l₁ (.ok a) w₁ ∧ Solo exec (f a) w₁ l₂ r w' := by
  induction p generalizing w l with
  | ret a => exact .inr ⟨a, w, [], l, rfl, .ret, h⟩
  | raise e =>
    obtain ⟨rfl, rfl, rfl⟩ := h.of_raise
    exact .inl ⟨e, .raise, rfl⟩
  | call c next ih =>
    cases h with
    | call o h =>
      rcases ih _ h with ⟨e, hp, rfl⟩ | ⟨a, w₁, l₁, l₂, rfl, hp, hf⟩
      · exact .inl ⟨e, .call o hp, rfl⟩
      · exact .inr ⟨a, w₁, _ :: l₁, l₂, rfl, .call o hp, hf⟩

variable {c : I.Call}

theorem of_perform {r : Except I.Err (I.Resp c)} (h : Solo exec (.perform c) w l r w') :
    ∃ o, l = [⟨w, c, o⟩] ∧ r = exec.answer c o w ∧ w' = exec.after c o w := by
  cases h with
  | call o h =>
    refine ⟨o, ?_⟩
    revert h
    cases exec.answer c o w with
    | ok x =>
      intro h
      obtain ⟨rfl, rfl, rfl⟩ := h.of_ret
      exact ⟨rfl, rfl, rfl⟩
    | error e =>
      intro h
      obtain ⟨rfl, rfl, rfl⟩ := h.of_raise
      exact ⟨rfl, rfl, rfl⟩

theorem of_ask {f : I.Resp c → Program I β} {r : Except I.Err β}
    (h : Solo exec ((Program.perform c).bind f) w l r w') : ∃ o l', l = ⟨w, c, o⟩ :: l' ∧
      ((∃ a w₁, exec c o w = .ok (a, w₁) ∧ Solo exec (f a) w₁ l' r w') ∨
        ∃ e, exec c o w = .error e ∧ l' = [] ∧ r = .error e ∧ w' = w) := by
  rcases h.of_bind with ⟨e, hcall, rfl⟩ | ⟨a, w₁, l₁, l₂, rfl, hcall, hrest⟩
  · obtain ⟨o, rfl, hanswer, rfl⟩ := hcall.of_perform
    refine ⟨o, [], rfl, .inr ⟨e, ?_, rfl, rfl, Exec.after_of_answer_error hanswer.symm⟩⟩
    unfold Exec.answer at hanswer
    cases hexec : exec c o w with
    | ok x =>
      rw [hexec] at hanswer
      cases hanswer
    | error e' =>
      rw [hexec] at hanswer
      cases hanswer
      rfl
  · obtain ⟨o, rfl, hanswer, rfl⟩ := hcall.of_perform
    exact ⟨o, l₂, rfl, .inl ⟨a, _, Exec.of_answer hanswer.symm, hrest⟩⟩

theorem of_attempt {f : Except I.Err α → Program I β} {r : Except I.Err β}
    (h : Solo exec (p.attempt.bind f) w l r w') :
    ∃ ans w₁ l₁ l₂, l = l₁ ++ l₂ ∧ Solo exec p w l₁ ans w₁ ∧ Solo exec (f ans) w₁ l₂ r w' := by
  induction p generalizing w l with
  | ret a => exact ⟨.ok a, w, [], l, rfl, .ret, h⟩
  | raise e => exact ⟨.error e, w, [], l, rfl, .raise, h⟩
  | call c next ih =>
    cases h with
    | call o h =>
      obtain ⟨ans, w₁, l₁, l₂, rfl, hp, hf⟩ := ih _ h
      exact ⟨ans, w₁, _ :: l₁, l₂, rfl, .call o hp, hf⟩

theorem alone (h : Solo exec p w l r w') : Alone exec p w r w' := by
  induction h with
  | ret => exact .ret
  | raise => exact .raise
  | call o _ ih => exact .call o ih

variable {R : I.Call → Prop}

theorem invariant {P : σ → Prop} (hcall : ∀ c o w, R c → P w → P (exec.after c o w)) (hp : p.Only R)
    (h : Solo exec p w l r w') (hw : P w) : P w' := by
  induction h with
  | ret => exact hw
  | raise => exact hw
  | call o _ ih => exact ih (hp.2 _) (hcall _ o _ hp.1 hw)

theorem only (hp : p.Only R) (h : Solo exec p w l r w') : ∀ x ∈ l, R x.call := by
  induction h with
  | ret => exact fun x hx => by cases hx
  | raise => exact fun x hx => by cases hx
  | call o _ ih =>
    intro x hx
    rcases List.mem_cons.mp hx with rfl | hx
    · exact hp.1
    · exact ih (hp.2 _) x hx

end Solo

/-- The calls of `p` alone. The outside decides the first of them by the list, the rest by `o`. -/
def soloCalls (exec : Exec I σ κ) (o : κ) : Program I α → List κ → σ → List (OwnCall I σ κ)
  | .ret _, _, _ => []
  | .raise _, _, _ => []
  | .call c next, os, w =>
    let o' := os.head?.getD o
    ⟨w, c, o'⟩ :: soloCalls exec o (next (exec.answer c o' w)) os.tail (exec.after c o' w)

theorem solo_runAlone (exec : Exec I σ κ) (o : κ) (p : Program I α) (os : List κ) (w : σ) :
    Solo exec p w (soloCalls exec o p os w) (runAlone exec o p os w).1 (runAlone exec o p os w).2 := by
  induction p generalizing os w with
  | ret a => exact .ret
  | raise e => exact .raise
  | call c next ih => exact .call _ (ih _ _ _)

variable {p : Program I α}

theorem outside_of_soloCalls {exec : Exec I σ κ} {o : κ} {w : σ} :
    ∀ x ∈ soloCalls exec o p [] w, x.outside = o := by
  induction p generalizing w with
  | ret a => exact fun x hx => nomatch hx
  | raise e => exact fun x hx => nomatch hx
  | call c next ih =>
    intro x hx
    rcases List.mem_cons.mp hx with rfl | hx
    · rfl
    · exact ih _ x hx

/-! ## Traces by evaluation -/

/-- How a program ends after these exchanges, if it makes them. -/
def Program.follow [DecidableEq I.Call] :
    Program I α → List (Program.Exchange I) → Option (Except I.Err α)
  | .ret a, [] => some (.ok a)
  | .raise e, [] => some (.error e)
  | .call c next, x :: t => if h : x.1 = c then (next (h ▸ x.2)).follow t else none
  | _, _ => none

theorem Program.trace_of_follow [DecidableEq I.Call] {t : List (Program.Exchange I)} {r : Except I.Err α}
    (h : p.follow t = some r) : p.Trace t r := by
  induction p generalizing t with
  | ret a =>
    cases t with
    | nil => exact ⟨rfl, (Option.some.inj h).symm⟩
    | cons x t => cases h
  | raise e =>
    cases t with
    | nil => exact ⟨rfl, (Option.some.inj h).symm⟩
    | cons x t => cases h
  | call c next ih =>
    cases t with
    | nil => cases h
    | cons x t =>
      unfold Program.follow at h
      split at h
      case isTrue hc =>
        subst hc
        exact ⟨x.2, t, rfl, ih _ h⟩
      case isFalse => cases h

end Interleaving

/-! # Calls that are programs themselves

What one program takes for a single call may be a program of its own over finer calls. `Program.handle` puts such
programs in the place of the calls. If each of them, run alone, does to what one can see of the finer world what
its call does to the coarser one, then so does every program made of them (`Refines.handle`). -/

namespace Interleaving

namespace Program

variable {I : Interface} {C : Type} {R : C → Type} {α β : Type}

/-- The program with its calls carried out by `h`. -/
def handle (h : (c : I.Call) → Program ⟨C, R, I.Err⟩ (I.Resp c)) : Program I α → Program ⟨C, R, I.Err⟩ α
  | ret a => ret a
  | raise e => raise e
  | call c next => (h c).attempt.bind fun ans => (next ans).handle h

variable {h : (c : I.Call) → Program ⟨C, R, I.Err⟩ (I.Resp c)}

theorem Only.handle {Q : I.Call → Prop} {Q' : C → Prop} {p : Program I α} (hp : p.Only Q)
    (hh : ∀ c, Q c → (h c).Only Q') : (p.handle h).Only Q' := by
  induction p with
  | ret a => trivial
  | raise e => trivial
  | call c next ih => exact (hh c hp.1).attempt.bind fun ans => ih ans (hp.2 ans)

end Program

namespace Solo

variable {I : Interface} {α β σ κ : Type}

theorem bind {exec : Exec I σ κ} {w w₁ w' : σ} {l₁ l₂ : List (OwnCall I σ κ)} {p : Program I α} {f : α → Program I β}
    {a : α} {r : Except I.Err β} (hp : Solo exec p w l₁ (.ok a) w₁) (hf : Solo exec (f a) w₁ l₂ r w') :
    Solo exec (p.bind f) w (l₁ ++ l₂) r w' := by
  induction p generalizing w l₁ with
  | ret b =>
    obtain ⟨rfl, hb, rfl⟩ := hp.of_ret
    cases hb
    exact hf
  | raise e => cases hp.of_raise.2.1
  | call c next ih =>
    cases hp with
    | call o hp => exact .call o (ih _ hp)

theorem bind_error {exec : Exec I σ κ} {w w' : σ} {l : List (OwnCall I σ κ)} {p : Program I α} {f : α → Program I β}
    {e : I.Err} (hp : Solo exec p w l (.error e) w') : Solo exec (p.bind f) w l (.error e) w' := by
  induction p generalizing w l with
  | ret b => cases hp.of_ret.2.1
  | raise e' =>
    obtain ⟨rfl, he, rfl⟩ := hp.of_raise
    cases he
    exact .raise
  | call c next ih =>
    cases hp with
    | call o hp => exact .call o (ih _ hp)

end Solo

/-! ## Refinement -/

section Refinement

variable {I : Interface} {C : Type} {R : C → Type} {α β σ σ' κ κ' : Type}

/-- Run alone in the finer world, `p'` does to the view of it what `p` does. -/
def Refines (exec : Exec I σ κ) (exec' : Exec ⟨C, R, I.Err⟩ σ' κ') (view : σ' → σ)
    (p' : Program ⟨C, R, I.Err⟩ α) (p : Program I α) : Prop :=
  ∀ ⦃w l r w'⦄, Solo exec' p' w l r w' → ∃ l', Solo exec p (view w) l' r (view w')

variable {exec : Exec I σ κ} {exec' : Exec ⟨C, R, I.Err⟩ σ' κ'} {view : σ' → σ}

namespace Refines

theorem ret (a : α) : Refines exec exec' view (.ret a) (.ret a) := by
  intro w l r w' run
  obtain ⟨-, rfl, rfl⟩ := run.of_ret
  exact ⟨[], .ret⟩

theorem raise (e : I.Err) : Refines exec exec' view (.raise e) (.raise e : Program I α) := by
  intro w l r w' run
  obtain ⟨-, rfl, rfl⟩ := run.of_raise
  exact ⟨[], .raise⟩

theorem bind {p' : Program ⟨C, R, I.Err⟩ α} {p : Program I α} {f' : α → Program ⟨C, R, I.Err⟩ β}
    {f : α → Program I β} (hp : Refines exec exec' view p' p) (hf : ∀ a, Refines exec exec' view (f' a) (f a)) :
    Refines exec exec' view (p'.bind f') (p.bind f) := by
  intro w l r w' run
  rcases run.of_bind with ⟨e, hfirst, rfl⟩ | ⟨a, w₁, l₁, l₂, -, hfirst, hrest⟩
  · obtain ⟨l', hl'⟩ := hp hfirst
    exact ⟨l', hl'.bind_error⟩
  · obtain ⟨l₁', hl₁⟩ := hp hfirst
    obtain ⟨l₂', hl₂⟩ := hf a hrest
    exact ⟨l₁' ++ l₂', hl₁.bind hl₂⟩

theorem perform {c : I.Call} {p' : Program ⟨C, R, I.Err⟩ (I.Resp c)} (h : ∀ ⦃w l r w'⦄, Solo exec' p' w l r w' →
      ∃ o, exec.answer c o (view w) = r ∧ exec.after c o (view w) = view w') :
    Refines exec exec' view p' (.perform c) := by
  intro w l r w' run
  obtain ⟨o, rfl, hafter⟩ := h run
  rw [← hafter]
  refine ⟨[⟨view w, c, o⟩], .call o ?_⟩
  cases exec.answer c o (view w) with
  | ok a => exact .ret
  | error e => exact .raise

/-- **A program whose calls are carried out by `h`** refines the program, if each call it makes is refined. -/
theorem handle {h : (c : I.Call) → Program ⟨C, R, I.Err⟩ (I.Resp c)} {Q : I.Call → Prop}
    (hh : ∀ c, Q c → Refines exec exec' view (h c) (.perform c)) {p : Program I α} (hp : p.Only Q) :
    Refines exec exec' view (p.handle h) p := by
  intro w l r w' run
  induction p generalizing w l with
  | ret a => exact Refines.ret a run
  | raise e => exact Refines.raise e run
  | call c next ih =>
    obtain ⟨ans, w₁, l₁, l₂, -, hc, hrest⟩ := Solo.of_attempt run
    obtain ⟨l', hcall⟩ := hh c hp.1 hc
    obtain ⟨o, -, rfl, hafter⟩ := hcall.of_perform
    obtain ⟨l'', hl''⟩ := ih _ (hp.2 _) hrest
    rw [hafter] at hl''
    exact ⟨_, .call o hl''⟩

end Refines

end Refinement

end Interleaving
