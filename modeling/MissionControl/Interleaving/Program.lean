import Mathlib.Logic.Function.Basic

/-! # Programs over atomic calls

A program is a finite tree of *calls*. Every call is one atomic step of the
world it runs in (a database transaction, a clock read, a request to a
provider); between two calls of one program any other program may run. A call
answers with a value or raises an error, and the program continues with that
answer.

The tree is inductive, so a program makes finitely many calls on every path. -/

namespace Interleaving

/-- The calls a family of programs may make, with the type of each call's
    answer and the errors a call or a program may raise. -/
structure Interface where
  Call : Type
  Resp : Call → Type
  Err : Type

/-- What a call comes back with: its response, or the error it raised. -/
abbrev Interface.Answer (I : Interface) (c : I.Call) : Type := Except I.Err (I.Resp c)

/-- A program that returns an `α`, raises an error, or makes a call and goes on
    with its answer. -/
inductive Program (I : Interface) (α : Type) : Type where
  | ret (a : α)
  | raise (e : I.Err)
  | call (c : I.Call) (next : I.Answer c → Program I α)

namespace Program

variable {I : Interface} {α β : Type}

/-- Sequencing: `p`, then `f` on what `p` returned. An error of `p` ends both. -/
def bind : Program I α → (α → Program I β) → Program I β
  | ret a, f => f a
  | raise e, _ => raise e
  | call c next, f => call c fun r => (next r).bind f

/-- Run `p`; an error it raises is handled by `h`. -/
def tryCatch : Program I α → (I.Err → Program I α) → Program I α
  | ret a, _ => ret a
  | raise e, h => h e
  | call c next, h => call c fun r => (next r).tryCatch h

/-- Run `p` and return how it ended, as a value. -/
def attempt : Program I α → Program I (Except I.Err α)
  | ret a => ret (.ok a)
  | raise e => ret (.error e)
  | call c next => call c fun r => (next r).attempt

instance : Monad (Program I) where
  pure := ret
  bind := bind

instance : MonadExceptOf I.Err (Program I) where
  throw := raise
  tryCatch := tryCatch

/-- Make one call; the error it raises, if any, is the program's. -/
def perform (c : I.Call) : Program I (I.Resp c) :=
  call c fun
    | .ok r => ret r
    | .error e => raise e

/-- Run `p` for what it does and forget what it returns. -/
def void : Program I α → Program I Unit
  | ret _ => ret ()
  | raise e => raise e
  | call c next => call c fun r => (next r).void

/-! ## Unfolding lemmas -/

@[simp] theorem pure_eq_ret (a : α) : (pure a : Program I α) = ret a := rfl

@[simp] theorem bind_eq_bind (p : Program I α) (f : α → Program I β) : (p >>= f) = p.bind f := rfl

@[simp] theorem ret_bind (a : α) (f : α → Program I β) : (ret a).bind f = f a := rfl

@[simp] theorem raise_bind (e : I.Err) (f : α → Program I β) : (raise e : Program I α).bind f = raise e := rfl

@[simp] theorem call_bind (c : I.Call) (next : I.Answer c → Program I α) (f : α → Program I β) :
    (call c next).bind f = call c fun r => (next r).bind f := rfl

theorem bind_assoc {γ : Type} (p : Program I α) (f : α → Program I β) (g : β → Program I γ) :
    (p.bind f).bind g = p.bind fun a => (f a).bind g := by
  induction p with
  | ret a => rfl
  | raise e => rfl
  | call c next ih => exact congrArg (call c) (funext fun r => ih r)

@[simp] theorem throw_eq_raise (e : I.Err) : (throw e : Program I α) = raise e := rfl

/-! ## Traces

What a program did, seen from the program alone: the calls it made with the
answers it got, and how it ended. -/

/-- A call with its answer. -/
abbrev Exchange (I : Interface) : Type := Σ c : I.Call, I.Answer c

/-- `p` ends with `r` after exactly these exchanges. -/
def Trace : Program I α → List (Exchange I) → Except I.Err α → Prop
  | ret a, t, r => t = [] ∧ r = .ok a
  | raise e, t, r => t = [] ∧ r = .error e
  | call c next, t, r => ∃ ans t', t = ⟨c, ans⟩ :: t' ∧ (next ans).Trace t' r

variable {t : List (Exchange I)} {p : Program I α} {f : α → Program I β}

theorem trace_bind {r : Except I.Err β} : (p.bind f).Trace t r ↔ (∃ e, p.Trace t (.error e) ∧ r = .error e) ∨
      ∃ a t₁ t₂, t = t₁ ++ t₂ ∧ p.Trace t₁ (.ok a) ∧ (f a).Trace t₂ r := by
  induction p generalizing t with
  | ret a =>
    constructor
    · intro h
      exact .inr ⟨a, [], t, rfl, ⟨rfl, rfl⟩, h⟩
    · rintro (⟨e, ⟨-, he⟩, -⟩ | ⟨b, t₁, t₂, rfl, ⟨rfl, hb⟩, h⟩)
      · cases he
      · cases hb
        exact h
  | raise e =>
    constructor
    · rintro ⟨rfl, rfl⟩
      exact .inl ⟨e, ⟨rfl, rfl⟩, rfl⟩
    · rintro (⟨e', ⟨rfl, he⟩, rfl⟩ | ⟨b, t₁, t₂, -, ⟨-, hb⟩, -⟩)
      · cases he
        exact ⟨rfl, rfl⟩
      · cases hb
  | call c next ih =>
    simp only [call_bind, Trace, ih]
    constructor
    · rintro ⟨ans, t', rfl, ⟨e, he, rfl⟩ | ⟨a, t₁, t₂, rfl, h₁, h₂⟩⟩
      · exact .inl ⟨e, ⟨ans, t', rfl, he⟩, rfl⟩
      · exact .inr ⟨a, ⟨c, ans⟩ :: t₁, t₂, rfl, ⟨ans, t₁, rfl, h₁⟩, h₂⟩
    · rintro (⟨e, ⟨ans, t', rfl, he⟩, rfl⟩ | ⟨a, t₁, t₂, rfl, ⟨ans, t', rfl, h₁⟩, h₂⟩)
      · exact ⟨ans, t', rfl, .inl ⟨e, he, rfl⟩⟩
      · exact ⟨ans, t' ++ t₂, rfl, .inr ⟨a, t', t₂, rfl, h₁, h₂⟩⟩

theorem trace_bind_ok {b : β} : (p.bind f).Trace t (.ok b) ↔
      ∃ a t₁ t₂, t = t₁ ++ t₂ ∧ p.Trace t₁ (.ok a) ∧ (f a).Trace t₂ (.ok b) := by
  rw [trace_bind]
  simp

variable {c : I.Call}

theorem trace_perform_ok {x : I.Resp c} : (perform c).Trace t (.ok x) ↔ t = [⟨c, .ok x⟩] := by
  constructor
  · rintro ⟨ans, t', rfl, h⟩
    cases ans with
    | ok y =>
      obtain ⟨rfl, hy⟩ := h
      cases hy
      rfl
    | error e =>
      obtain ⟨-, he⟩ := h
      cases he
  · rintro rfl
    exact ⟨.ok x, [], rfl, rfl, rfl⟩

theorem trace_attempt {r : Except I.Err α} : p.attempt.Trace t (.ok r) ↔ p.Trace t r := by
  induction p generalizing t with
  | ret a => simp [attempt, Trace]
  | raise e => simp [attempt, Trace]
  | call c next ih => simp only [attempt, Trace, ih]

/-! ## Programs that make only some calls -/

/-- On every path, `p` makes only calls that satisfy `R`. -/
def Only (R : I.Call → Prop) : Program I α → Prop
  | ret _ => True
  | raise _ => True
  | call c next => R c ∧ ∀ ans, (next ans).Only R

variable {R : I.Call → Prop}

@[simp] theorem only_ret (a : α) : (ret a : Program I α).Only R := trivial

@[simp] theorem only_raise (e : I.Err) : (raise e : Program I α).Only R := trivial

theorem only_perform (h : R c) : (perform c).Only R := by
  refine ⟨h, fun ans => ?_⟩
  cases ans <;> trivial

theorem Only.mono {R' : I.Call → Prop} (hp : p.Only R) (h : ∀ c, R c → R' c) : p.Only R' := by
  induction p with
  | ret a => trivial
  | raise e => trivial
  | call c next ih => exact ⟨h c hp.1, fun ans => ih ans (hp.2 ans)⟩

theorem Only.bind (hp : p.Only R) (hf : ∀ a, (f a).Only R) : (p.bind f).Only R := by
  induction p with
  | ret a => exact hf a
  | raise e => trivial
  | call c next ih => exact ⟨hp.1, fun ans => ih ans (hp.2 ans)⟩

theorem Only.void (hp : p.Only R) : p.void.Only R := by
  induction p with
  | ret a => trivial
  | raise e => trivial
  | call c next ih => exact ⟨hp.1, fun ans => ih ans (hp.2 ans)⟩

theorem Only.attempt (hp : p.Only R) : p.attempt.Only R := by
  induction p with
  | ret a => trivial
  | raise e => trivial
  | call c next ih => exact ⟨hp.1, fun ans => ih ans (hp.2 ans)⟩

end Program

end Interleaving

/-! # What a program has done before a call

A program on its own, whatever its calls answer: `Obeys Pre Q p past` says that after the exchanges `past`
every call of `p` satisfies `Pre` of what was done until then, and that what `p` returns satisfies `Q`. -/

namespace Interleaving

namespace Program

variable {I : Interface} {α β : Type}

/-- Every call of the program satisfies `Pre` of the exchanges before it, and what it returns satisfies `Q`
    of all of them. -/
def Obeys (Pre : List (Exchange I) → I.Call → Prop) (Q : α → List (Exchange I) → Prop) :
    Program I α → List (Exchange I) → Prop
  | ret a, past => Q a past
  | raise _, _ => True
  | call c next, past => Pre past c ∧ ∀ ans, (next ans).Obeys Pre Q (past ++ [⟨c, ans⟩])

variable {Pre : List (Exchange I) → I.Call → Prop} {Q Q' : α → List (Exchange I) → Prop}
  {past : List (Exchange I)}

variable {p : Program I α}

theorem Obeys.mono (hp : p.Obeys Pre Q past) (h : ∀ a past', Q a past' → Q' a past') : p.Obeys Pre Q' past := by
  induction p generalizing past with
  | ret a => exact h a past hp
  | raise e => trivial
  | call c next ih => exact ⟨hp.1, fun ans => ih ans (hp.2 ans)⟩

theorem Obeys.bind {R : β → List (Exchange I) → Prop} {f : α → Program I β} (hp : p.Obeys Pre Q past)
    (hf : ∀ a past', Q a past' → (f a).Obeys Pre R past') : (p.bind f).Obeys Pre R past := by
  induction p generalizing past with
  | ret a => exact hf a past hp
  | raise e => trivial
  | call c next ih => exact ⟨hp.1, fun ans => ih ans (hp.2 ans)⟩

theorem Obeys.void (hp : p.Obeys Pre Q past) : p.void.Obeys Pre (fun _ _ => True) past := by
  induction p generalizing past with
  | ret a => trivial
  | raise e => trivial
  | call c next ih => exact ⟨hp.1, fun ans => ih ans (hp.2 ans)⟩

variable {c : I.Call}

theorem obeys_perform {Q : I.Resp c → List (Exchange I) → Prop} (hpre : Pre past c)
    (h : ∀ a, Q a (past ++ [⟨c, .ok a⟩])) : (perform c).Obeys Pre Q past := by
  refine ⟨hpre, fun ans => ?_⟩
  cases ans with
  | ok a => exact h a
  | error e => trivial

theorem obeys_ask {f : I.Resp c → Program I β} {R : β → List (Exchange I) → Prop} (hpre : Pre past c)
    (h : ∀ a, (f a).Obeys Pre R (past ++ [⟨c, .ok a⟩])) : ((perform c).bind f).Obeys Pre R past := by
  refine ⟨hpre, fun ans => ?_⟩
  cases ans with
  | ok a => exact h a
  | error e => trivial

/-- **Calls that owe nothing.** The program makes only calls of `R`, so that is all it adds. -/
theorem Only.obeys {R : I.Call → Prop} (hp : p.Only R) (hR : ∀ past c, R c → Pre past c) :
    p.Obeys Pre (fun _ past' => ∃ t, past' = past ++ t ∧ ∀ x ∈ t, R x.1) past := by
  have hgen : ∀ before : List (Exchange I), (∃ t, before = past ++ t ∧ ∀ x ∈ t, R x.1) →
      p.Obeys Pre (fun _ past' => ∃ t, past' = past ++ t ∧ ∀ x ∈ t, R x.1) before := by
    induction p with
    | ret a => exact fun before h => h
    | raise e => exact fun before h => trivial
    | call c next ih =>
      rintro before ⟨t, rfl, ht⟩
      refine ⟨hR _ c hp.1, fun ans => ih ans (hp.2 ans) _ ⟨t ++ [⟨c, ans⟩], List.append_assoc .., fun x hx => ?_⟩⟩
      rcases List.mem_append.mp hx with hx | hx
      · exact ht x hx
      · rw [List.mem_singleton.mp hx]
        exact hp.1
  exact hgen past ⟨[], (List.append_nil past).symm, fun x hx => nomatch hx⟩

end Program

end Interleaving
