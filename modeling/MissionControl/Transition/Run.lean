import Mathlib.Data.List.Induction

/-! # Runs of a step function

A system whose next state is computed from the state and an event, or refuses the event.
A run takes one event after another; it is evaluated, so a run that goes wrong is
exhibited by computing it.

The rules derive what holds in every reachable state from what one step keeps. -/

namespace Transition

variable {σ ε : Type}

/-- One event after another, from the state `s`. -/
def run (step : σ → ε → Option σ) (s : σ) (events : List ε) : Option σ := events.foldlM step s

variable {step : σ → ε → Option σ} {s s' : σ} {events : List ε}

@[simp] theorem run_nil : run step s [] = some s := rfl

theorem run_append {rest : List ε} :
    run step s (events ++ rest) = (run step s events).bind fun m => run step m rest :=
  List.foldlM_append

theorem run_concat {e : ε} : run step s (events ++ [e]) = some s' ↔
      ∃ m, run step s events = some m ∧ step m e = some s' := by
  rw [run_append, Option.bind_eq_some_iff]
  refine exists_congr fun m => and_congr_right fun _ => ?_
  show (step m e).bind some = some s' ↔ _
  rw [Option.bind_fun_some]

variable {P : σ → Prop}

/-- **The invariant rule.** What holds at first and is kept by every step taken within the
    run holds where the run ends. `before` is the part of the run that led to the step. -/
theorem run_invariant_of_meets {C : List ε → σ → ε → Prop} (h : P s)
    (hstep : ∀ before m e m', P m → C before m e → step m e = some m' → P m')
    (hrun : run step s events = some s')
    (hmeets : ∀ before e m, before ++ [e] <+: events → run step s before = some m → C before m e) : P s' := by
  induction events using List.reverseRecOn generalizing s' with
  | nil =>
    cases hrun
    exact h
  | append_singleton events e ih =>
    obtain ⟨m, hm, he⟩ := run_concat.mp hrun
    have hm' : P m := ih hm fun before e' m' hpre =>
      hmeets before e' m' (hpre.trans (List.prefix_append _ _))
    exact hstep events m e s' hm' (hmeets events e m (List.prefix_refl _) hm) he

theorem run_invariant (h : P s) (hstep : ∀ m e m', P m → step m e = some m' → P m')
    (hrun : run step s events = some s') : P s' :=
  run_invariant_of_meets (C := fun _ _ _ => True) h (fun _ m e m' hm _ he => hstep m e m' hm he)
    hrun fun _ _ _ _ _ => trivial

/-! ## Logs -/

theorem getElem?_concat {α : Type} {l : List α} {x y : α} {i : Nat}
    (h : (l ++ [x])[i]? = some y) : l[i]? = some y ∨ i = l.length ∧ x = y := by
  rcases Nat.lt_trichotomy i l.length with hi | hi | hi
  · rw [List.getElem?_append_left hi] at h
    exact .inl h
  · subst hi
    rw [List.getElem?_concat_length, Option.some.injEq] at h
    exact .inr ⟨rfl, h⟩
  · have hlen : (l ++ [x]).length ≤ i := by simpa using Nat.succ_le_of_lt hi
    rw [List.getElem?_eq_none hlen] at h
    cases h

end Transition
