import MissionControl.Interleaving.Pool
import Mathlib.Logic.Relation

/-! # A program alone

What a program does when nothing runs beside it: its calls follow one another, and
the world moves only through them. A call may still raise, at any point; a program
is *all or nothing* when it leaves the world as it was whenever it ends with an
error. -/

namespace Interleaving

variable {I : Interface} {σ κ α β : Type}

/-- Alone, `p` leads from the world `w` to `w'` and ends with `r`. -/
inductive Alone (exec : Exec I σ κ) : Program I α → σ → Except I.Err α → σ → Prop
  | ret {a : α} {w : σ} : Alone exec (.ret a) w (.ok a) w
  | raise {e : I.Err} {w : σ} : Alone exec (.raise e) w (.error e) w
  | call {c : I.Call} {next : I.Answer c → Program I α} {w w' : σ} {r : Except I.Err α} (o : κ)
      (h : Alone exec (next (exec.answer c o w)) (exec.after c o w) r w') :
      Alone exec (.call c next) w r w'

namespace Alone

variable {exec : Exec I σ κ} {w w' : σ}

variable {r : Except I.Err α}

theorem of_ret {a : α} (h : Alone exec (.ret a) w r w') : r = .ok a ∧ w' = w := by
  cases h
  exact ⟨rfl, rfl⟩

theorem of_raise {e : I.Err} (h : Alone exec (.raise e) w r w') : r = .error e ∧ w' = w := by
  cases h
  exact ⟨rfl, rfl⟩

variable {p : Program I α}

theorem of_bind {f : α → Program I β} {r : Except I.Err β} (h : Alone exec (p.bind f) w r w') :
    (∃ e, Alone exec p w (.error e) w' ∧ r = .error e) ∨
      ∃ a w₁, Alone exec p w (.ok a) w₁ ∧ Alone exec (f a) w₁ r w' := by
  induction p generalizing w with
  | ret a => exact .inr ⟨a, w, .ret, h⟩
  | raise e =>
    obtain ⟨rfl, rfl⟩ := h.of_raise
    exact .inl ⟨e, .raise, rfl⟩
  | call c next ih =>
    cases h with
    | call o h =>
      rcases ih _ h with ⟨e, hp, rfl⟩ | ⟨a, w₁, hp, hf⟩
      · exact .inl ⟨e, .call o hp, rfl⟩
      · exact .inr ⟨a, w₁, .call o hp, hf⟩

theorem of_perform {c : I.Call} {r : Except I.Err (I.Resp c)} (h : Alone exec (.perform c) w r w') :
    ∃ o, r = exec.answer c o w ∧ w' = exec.after c o w := by
  cases h with
  | call o h =>
    refine ⟨o, ?_⟩
    revert h
    cases exec.answer c o w with
    | ok x => exact fun h => h.of_ret
    | error e => exact fun h => h.of_raise

theorem of_void {r : Except I.Err Unit} (h : Alone exec p.void w r w') :
    ∃ r', Alone exec p w r' w' ∧ ∀ e, r = .error e ↔ r' = .error e := by
  induction p generalizing w with
  | ret a =>
    obtain ⟨rfl, rfl⟩ := h.of_ret
    exact ⟨.ok a, .ret, by simp⟩
  | raise e =>
    obtain ⟨rfl, rfl⟩ := h.of_raise
    exact ⟨.error e, .raise, by simp⟩
  | call c next ih =>
    cases h with
    | call o h =>
      obtain ⟨r', hr', he⟩ := ih _ h
      exact ⟨r', .call o hr', he⟩

theorem invariant {P : σ → Prop} (hcall : ∀ c o w, P w → P (exec.after c o w)) (h : Alone exec p w r w')
    (hw : P w) : P w' := by
  induction h with
  | ret => exact hw
  | raise => exact hw
  | call o _ ih => exact ih (hcall _ o _ hw)

end Alone

/-- Run `p` alone. The outside decides the first calls by the list, the rest by `o`. -/
def runAlone (exec : Exec I σ κ) (o : κ) : Program I α → List κ → σ → Except I.Err α × σ
  | .ret a, _, w => (.ok a, w)
  | .raise e, _, w => (.error e, w)
  | .call c next, os, w =>
    let o' := os.head?.getD o
    runAlone exec o (next (exec.answer c o' w)) os.tail (exec.after c o' w)

theorem alone_runAlone (exec : Exec I σ κ) (o : κ) (p : Program I α) (os : List κ) (w : σ) :
    Alone exec p w (runAlone exec o p os w).1 (runAlone exec o p os w).2 := by
  induction p generalizing os w with
  | ret a => exact .ret
  | raise e => exact .raise
  | call c next ih => exact .call _ (ih _ _ _)

/-- Alone, `p` returns `a` and leads to `w'`, whatever the outside decides. -/
def LeadsTo (exec : Exec I σ κ) (p : Program I α) (w : σ) (a : α) (w' : σ) : Prop :=
  ∀ r w₁, Alone exec p w r w₁ → r = .ok a ∧ w₁ = w'

namespace LeadsTo

variable {exec : Exec I σ κ} {w w₁ : σ}

end LeadsTo

/-! ## Logs -/

/-- Alone, with a log of the calls: the world each was made in, and its answer. -/
inductive Logged (exec : Exec I σ κ) :
    Program I α → σ → List (σ × Program.Exchange I) → Except I.Err α → σ → Prop
  | ret {a : α} {w : σ} : Logged exec (.ret a) w [] (.ok a) w
  | raise {e : I.Err} {w : σ} : Logged exec (.raise e) w [] (.error e) w
  | call {c : I.Call} {next : I.Answer c → Program I α} {w w' : σ} {r : Except I.Err α}
      {l : List (σ × Program.Exchange I)} (o : κ)
      (h : Logged exec (next (exec.answer c o w)) (exec.after c o w) l r w') :
      Logged exec (.call c next) w ((w, ⟨c, exec.answer c o w⟩) :: l) r w'

namespace Logged

variable {exec : Exec I σ κ} {w w' : σ} {l : List (σ × Program.Exchange I)}

variable {p : Program I α}

variable {r : Except I.Err α}

theorem alone (h : Logged exec p w l r w') : Alone exec p w r w' := by
  induction h with
  | ret => exact .ret
  | raise => exact .raise
  | call o _ ih => exact .call o ih

theorem of_bind {f : α → Program I β} {r : Except I.Err β} (h : Logged exec (p.bind f) w l r w') :
    (∃ e, Logged exec p w l (.error e) w' ∧ r = .error e) ∨
      ∃ a w₁ l₁ l₂, l = l₁ ++ l₂ ∧ Logged exec p w l₁ (.ok a) w₁ ∧ Logged exec (f a) w₁ l₂ r w' := by
  induction p generalizing w l with
  | ret a => exact .inr ⟨a, w, [], l, rfl, .ret, h⟩
  | raise e =>
    cases h
    exact .inl ⟨e, .raise, rfl⟩
  | call c next ih =>
    cases h with
    | call o h =>
      rcases ih _ h with ⟨e, hp, rfl⟩ | ⟨a, w₁, l₁, l₂, rfl, hp, hf⟩
      · exact .inl ⟨e, .call o hp, rfl⟩
      · exact .inr ⟨a, w₁, _ :: l₁, l₂, rfl, .call o hp, hf⟩

theorem of_perform {c : I.Call} {r : Except I.Err (I.Resp c)} (h : Logged exec (.perform c) w l r w') :
    ∃ o, r = exec.answer c o w ∧ w' = exec.after c o w ∧ l = [(w, ⟨c, exec.answer c o w⟩)] := by
  cases h with
  | call o h =>
    refine ⟨o, ?_⟩
    revert h
    cases exec.answer c o w with
    | ok x =>
      intro h
      cases h
      exact ⟨rfl, rfl, rfl⟩
    | error e =>
      intro h
      cases h
      exact ⟨rfl, rfl, rfl⟩

theorem of_void {r : Except I.Err Unit} (h : Logged exec p.void w l r w') : ∃ r', Logged exec p w l r' w' := by
  induction p generalizing w l with
  | ret a =>
    cases h
    exact ⟨.ok a, .ret⟩
  | raise e =>
    cases h
    exact ⟨.error e, .raise⟩
  | call c next ih =>
    cases h with
    | call o h =>
      obtain ⟨r', hr'⟩ := ih _ h
      exact ⟨r', .call o hr'⟩

theorem only {R : I.Call → Prop} (hp : p.Only R) (h : Logged exec p w l r w') : ∀ e ∈ l, R e.2.1 := by
  induction h with
  | ret => simp
  | raise => simp
  | call o _ ih =>
    rw [List.forall_mem_cons]
    exact ⟨hp.1, ih (hp.2 _)⟩

end Logged

/-- `runAlone` with its log. -/
def logAlone (exec : Exec I σ κ) (o : κ) : Program I α → List κ → σ → List (σ × Program.Exchange I)
  | .ret _, _, _ => []
  | .raise _, _, _ => []
  | .call c next, os, w =>
    let o' := os.head?.getD o
    (w, ⟨c, exec.answer c o' w⟩) ::
      logAlone exec o (next (exec.answer c o' w)) os.tail (exec.after c o' w)

theorem logged_logAlone (exec : Exec I σ κ) (o : κ) (p : Program I α) (os : List κ) (w : σ) :
    Logged exec p w (logAlone exec o p os w) (runAlone exec o p os w).1
      (runAlone exec o p os w).2 := by
  induction p generalizing os w with
  | ret a => exact .ret
  | raise e => exact .raise
  | call c next ih => exact .call _ (ih _ _ _)

/-! ## All or nothing -/

variable (exec : Exec I σ κ)

/-- The program leaves the world as it is. -/
def Quiet (p : Program I α) : Prop := ∀ w r w', Alone exec p w r w' → w' = w

/-- **All or nothing.** When the program ends with an error it has left the world as
    it was. -/
def AllOrNothing (p : Program I α) : Prop := ∀ w e w', Alone exec p w (.error e) w' → w' = w

variable {exec}

theorem Quiet.ret (a : α) : Quiet exec (.ret a) := fun _ _ _ h => h.of_ret.2

theorem Quiet.raise (e : I.Err) : Quiet exec (.raise e : Program I α) := fun _ _ _ h => h.of_raise.2

variable {c : I.Call}

theorem Quiet.perform (hc : ∀ o w, exec.after c o w = w) : Quiet exec (.perform c) := by
  intro w r w' h
  obtain ⟨o, -, rfl⟩ := h.of_perform
  exact hc o w

variable {p : Program I α} {f : α → Program I β}

theorem Quiet.bind (hp : Quiet exec p) (hf : ∀ a, Quiet exec (f a)) : Quiet exec (p.bind f) := by
  intro w r w' h
  rcases h.of_bind with ⟨e, h, -⟩ | ⟨a, w₁, h, h'⟩
  · exact hp _ _ _ h
  · exact (hf a _ _ _ h').trans (hp _ _ _ h)

theorem Quiet.of_bind (hp : Quiet exec p) {w w' : σ} {r : Except I.Err β} (h : Alone exec (p.bind f) w r w') :
    (∃ e, r = .error e ∧ w' = w) ∨ ∃ a, Alone exec p w (.ok a) w ∧ Alone exec (f a) w r w' := by
  rcases h.of_bind with ⟨e, hfirst, rfl⟩ | ⟨a, w₁, hfirst, hrest⟩
  · exact .inl ⟨e, rfl, hp _ _ _ hfirst⟩
  · obtain rfl := hp _ _ _ hfirst
    exact .inr ⟨a, hfirst, hrest⟩

theorem Quiet.allOrNothing (hp : Quiet exec p) : AllOrNothing exec p :=
  fun w _ w' h => hp w _ w' h

theorem AllOrNothing.after (hp : Quiet exec p) (hf : ∀ a, AllOrNothing exec (f a)) : AllOrNothing exec (p.bind f) := by
  intro w e w' h
  rcases h.of_bind with ⟨e', h, -⟩ | ⟨a, w₁, h, h'⟩
  · exact hp _ _ _ h
  · exact (hf a _ _ _ h').trans (hp _ _ _ h)

theorem AllOrNothing.commit (hc : ∀ o w e, exec.answer c o w = .error e →
    exec.after c o w = w) {f : I.Resp c → α} :
    AllOrNothing exec ((Program.perform c).bind fun x => .ret (f x)) := by
  intro w e w' h
  rcases h.of_bind with ⟨e', h, -⟩ | ⟨a, w₁, -, h'⟩
  · obtain ⟨o, hr, rfl⟩ := h.of_perform
    exact hc o w e' hr.symm
  · exact absurd h'.of_ret.1 (by simp)

theorem AllOrNothing.void (hp : AllOrNothing exec p) : AllOrNothing exec p.void := by
  intro w e w' h
  obtain ⟨r, hr, he⟩ := h.of_void
  obtain rfl := (he e).mp rfl
  exact hp _ _ _ hr

theorem Exec.after_of_answer_error {o : κ} {w : σ} {e : I.Err} (h : exec.answer c o w = .error e) :
    exec.after c o w = w := by
  unfold Exec.answer at h
  cases he : exec c o w with
  | ok x =>
    rw [he] at h
    cases h
  | error e' => exact Exec.after_of_error he

end Interleaving
