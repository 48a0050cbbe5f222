import MissionControl.Interleaving.Solo

/-! # Programs of one interface inside another

A program that runs on a part of a larger world makes its calls as calls of the larger interface. What such a call
answers is what the inner call comes back with, its error included, so the outer program decides what an error of the
inner one is to it (`Program.inside`). Seen on its part of the world, the embedded program does what it does on its
own: amid others (`Amid.of_within`) and alone (`Solo.of_within`). -/

namespace Interleaving

variable {I J : Interface} {α β σ σ' κ κ' : Type}

/-- Each call of `I` as one of `J`, and how its answer is read. -/
structure Embedding (I J : Interface) where
  call : I.Call → J.Call
  answer : ∀ c, J.Resp (call c) → I.Answer c

namespace Program

/-- The program with its calls made in `J`. How it ends, it returns. -/
def within (E : Embedding I J) : Program I α → Program J (Except I.Err α)
  | ret a => ret (.ok a)
  | raise e => ret (.error e)
  | call c next => (perform (E.call c)).bind fun x => (next (E.answer c x)).within E

/-- What is returned, or the error as the outer program sees it. -/
def orRaise (f : I.Err → J.Err) : Except I.Err α → Program J α
  | .ok a => ret a
  | .error e => raise (f e)

/-- The program as a part of one of `J`. -/
def inside (E : Embedding I J) (f : I.Err → J.Err) (p : Program I α) : Program J α :=
  (p.within E).bind (orRaise f)

variable {E : Embedding I J} {R : I.Call → Prop} {R' : J.Call → Prop}

theorem Only.within {p : Program I α} (hp : p.Only R) (h : ∀ c, R c → R' (E.call c)) : (p.within E).Only R' := by
  induction p with
  | ret a => trivial
  | raise e => trivial
  | call c next ih => exact (only_perform (h c hp.1)).bind fun x => ih _ (hp.2 _)

theorem only_orRaise (f : I.Err → J.Err) (r : Except I.Err α) : (orRaise f r).Only R' := by
  cases r <;> trivial

theorem Only.inside {f : I.Err → J.Err} {p : Program I α} (hp : p.Only R) (h : ∀ c, R c → R' (E.call c)) :
    (p.inside E f).Only R' :=
  (hp.within h).bind (only_orRaise f)

theorem only_any (p : Program I α) : p.Only fun _ => True := by
  induction p with
  | ret a => trivial
  | raise e => trivial
  | call c next ih => exact ⟨trivial, ih⟩

end Program

/-! ## On a part of the world -/

/-- **A call of `E` is one on a part of the world**: it does there what the inner call does, nothing elsewhere, and
    raises nothing of its own. -/
structure Embedding.Carries (E : Embedding I J) (exec : Exec I σ κ) (exec' : Exec J σ' κ') (view : σ' → σ)
    (put : σ → σ' → σ') (out : κ' → κ) : Prop where
  call : ∀ c o w, ∃ x, exec' (E.call c) o w = .ok (x, put (exec.after c (out o) (view w)) w) ∧
    E.answer c x = exec.answer c (out o) (view w)
  view_put : ∀ s w, view (put s w) = s
  put_view : ∀ w, put (view w) w = w
  put_put : ∀ s s' w, put s (put s' w) = put s w

/-- A call of the inner program, as it was made in the larger world. -/
structure OwnCall.Shows (E : Embedding I J) (view : σ' → σ) (out : κ' → κ) (x : OwnCall J σ' κ')
    (y : OwnCall I σ κ) : Prop where
  call : x.call = E.call y.call
  world : view x.world = y.world
  outside : out x.outside = y.outside

variable {E : Embedding I J} {exec : Exec I σ κ} {exec' : Exec J σ' κ'} {view : σ' → σ} {put : σ → σ' → σ'}
  {out : κ' → κ}

namespace Embedding.Carries

theorem answer (hE : E.Carries exec exec' view put out) (c : I.Call) (o : κ') (w : σ') :
    ∃ x, exec'.answer (E.call c) o w = .ok x ∧ E.answer c x = exec.answer c (out o) (view w) := by
  obtain ⟨x, hexec, hx⟩ := hE.call c o w
  refine ⟨x, ?_, hx⟩
  unfold Exec.answer
  rw [hexec]
  rfl

theorem after (hE : E.Carries exec exec' view put out) (c : I.Call) (o : κ') (w : σ') :
    exec'.after (E.call c) o w = put (exec.after c (out o) (view w)) w := by
  obtain ⟨x, hexec, -⟩ := hE.call c o w
  exact Exec.after_of_ok hexec

variable {y : OwnCall I σ κ} {x : OwnCall J σ' κ'}

theorem shown_after (hE : E.Carries exec exec' view put out) (h : x.Shows E view out y) :
    x.after exec' = put (y.after exec) x.world := by
  obtain ⟨w, c, o⟩ := x
  obtain ⟨w', c', o'⟩ := y
  obtain ⟨hcall, hworld, houtside⟩ := h
  dsimp only at hcall hworld houtside
  subst hcall hworld houtside
  exact hE.after c' o w

theorem shown_unchanged (hE : E.Carries exec exec' view put out) (h : x.Shows E view out y)
    (hy : y.after exec = y.world) : x.after exec' = x.world := by
  rw [hE.shown_after h, hy, ← h.world, hE.put_view]

end Embedding.Carries

variable {l : List (OwnCall J σ' κ')} {p : Program I α}

theorem Amid.of_within (hE : E.Carries exec exec' view put out) {q : Program J (Except I.Err α)}
    (h : Amid exec' (p.within E) l q) : (∀ e, q ≠ .raise e) ∧ ∀ r, q = .ret r → ∃ l',
      List.Forall₂ (OwnCall.Shows E view out) l l' ∧ Amid exec p l' (Program.orRaise id r) := by
  induction p generalizing l with
  | ret a =>
    obtain ⟨rfl, rfl⟩ := h.of_ret
    refine ⟨fun e he => (nomatch he), fun r hr => ?_⟩
    cases hr
    exact ⟨[], .nil, .refl⟩
  | raise e =>
    obtain ⟨rfl, rfl⟩ := h.of_ret
    refine ⟨fun e he => (nomatch he), fun r hr => ?_⟩
    cases hr
    exact ⟨[], .nil, .refl⟩
  | call c next ih =>
    cases h with
    | refl => exact ⟨fun e he => (nomatch he), fun r hr => nomatch hr⟩
    | @call _ _ _ w o l h =>
      obtain ⟨x, hx, hanswer⟩ := hE.answer c o w
      rw [hx] at h
      obtain ⟨hraise, hret⟩ := ih _ h
      refine ⟨hraise, fun r hr => ?_⟩
      obtain ⟨l', hshows, hamid⟩ := hret r hr
      rw [hanswer] at hamid
      exact ⟨⟨view w, c, out o⟩ :: l', .cons ⟨rfl, rfl, rfl⟩ hshows, .call hamid⟩

variable {f : I.Err → J.Err}

/-- **An embedded program that raised** raised on its own part of the world. -/
theorem Amid.of_inside (hE : E.Carries exec exec' view put out) {e' : J.Err}
    (h : Amid exec' (p.inside E f) l (.raise e')) :
    ∃ e l', f e = e' ∧ List.Forall₂ (OwnCall.Shows E view out) l l' ∧ Amid exec p l' (.raise e) := by
  rcases h.of_bind with h | ⟨r, l₁, l₂, rfl, hfirst, hrest⟩
  · exact absurd rfl ((Amid.of_within hE h).1 e')
  · obtain ⟨l', hshows, hamid⟩ := (Amid.of_within hE hfirst).2 r rfl
    cases r with
    | ok a => exact nomatch hrest.of_ret.2
    | error e =>
      obtain ⟨rfl, he⟩ := hrest.of_raise
      cases he
      rw [List.append_nil]
      exact ⟨e, l', rfl, hshows, hamid⟩

theorem Amid.of_inside_ret (hE : E.Carries exec exec' view put out) {a : α}
    (h : Amid exec' (p.inside E f) l (.ret a)) :
    ∃ l', List.Forall₂ (OwnCall.Shows E view out) l l' ∧ Amid exec p l' (.ret a) := by
  obtain ⟨r, l₁, l₂, rfl, hfirst, hrest⟩ := h.of_bind_ret
  obtain ⟨l', hshows, hamid⟩ := (Amid.of_within hE hfirst).2 r rfl
  cases r with
  | error e => exact nomatch hrest.of_raise.2
  | ok b =>
    obtain ⟨rfl, hb⟩ := hrest.of_ret
    cases hb
    rw [List.append_nil]
    exact ⟨l', hshows, hamid⟩

theorem Solo.of_within (hE : E.Carries exec exec' view put out) {w w' : σ'} {r : Except J.Err (Except I.Err α)}
    (h : Solo exec' (p.within E) w l r w') :
    ∃ r' l', r = .ok r' ∧ Solo exec p (view w) l' r' (view w') ∧ w' = put (view w') w := by
  induction p generalizing w l with
  | ret a =>
    obtain ⟨-, rfl, rfl⟩ := h.of_ret
    exact ⟨.ok a, [], rfl, .ret, (hE.put_view w').symm⟩
  | raise e =>
    obtain ⟨-, rfl, rfl⟩ := h.of_ret
    exact ⟨.error e, [], rfl, .raise, (hE.put_view w').symm⟩
  | call c next ih =>
    obtain ⟨o, l', -, ⟨x, w₁, hexec, hrest⟩ | ⟨e, hexec, -⟩⟩ := h.of_ask
    · obtain ⟨y, hcall, hanswer⟩ := hE.call c o w
      rw [hcall] at hexec
      cases hexec
      obtain ⟨r', l'', rfl, hsolo, hput⟩ := ih _ hrest
      rw [hanswer, hE.view_put] at hsolo
      rw [hE.put_put] at hput
      exact ⟨r', _, rfl, .call (out o) hsolo, hput⟩
    · obtain ⟨y, hcall, -⟩ := hE.call c o w
      rw [hcall] at hexec
      cases hexec

theorem Solo.of_inside (hE : E.Carries exec exec' view put out) {w w' : σ'} {a : α}
    (h : Solo exec' (p.inside E f) w l (.ok a) w') :
    ∃ l', Solo exec p (view w) l' (.ok a) (view w') ∧ w' = put (view w') w := by
  rcases h.of_bind with ⟨e, -, he⟩ | ⟨r, w₁, l₁, l₂, -, hfirst, hrest⟩
  · cases he
  · obtain ⟨r', l', hr, hsolo, hput⟩ := Solo.of_within hE hfirst
    cases hr
    cases r with
    | ok b =>
      obtain ⟨-, hb, rfl⟩ := hrest.of_ret
      cases hb
      exact ⟨l', hsolo, hput⟩
    | error e => exact nomatch hrest.of_raise.2.1

/-! ## The errors of a program -/

/-- Every error the program ends with satisfies `P`, if what its calls answer satisfies `Ans`. -/
def Program.Raises (Ans : (c : I.Call) → I.Answer c → Prop) (P : I.Err → Prop) : Program I α → Prop
  | ret _ => True
  | raise e => P e
  | call c next => ∀ ans, Ans c ans → (next ans).Raises Ans P

namespace Program

variable {Ans : (c : I.Call) → I.Answer c → Prop} {P : I.Err → Prop}

theorem raises_perform {c : I.Call} (h : ∀ e, Ans c (.error e) → P e) : (perform c).Raises Ans P := by
  intro ans hans
  cases ans with
  | ok a => trivial
  | error e => exact h e hans

theorem Raises.bind {p : Program I α} {f : α → Program I β} (hp : p.Raises Ans P) (hf : ∀ a, (f a).Raises Ans P) :
    (p.bind f).Raises Ans P := by
  induction p with
  | ret a => exact hf a
  | raise e => exact hp
  | call c next ih => exact fun ans hans => ih ans (hp ans hans)

end Program

theorem Amid.raises {Ans : (c : I.Call) → I.Answer c → Prop} {P : I.Err → Prop}
    (hans : ∀ c o w, Ans c (exec.answer c o w)) {l : List (OwnCall I σ κ)} {e : I.Err} (hp : p.Raises Ans P)
    (h : Amid exec p l (.raise e)) : P e := by
  induction p generalizing l with
  | ret a => exact nomatch h.of_ret.2
  | raise e' =>
    obtain ⟨-, he⟩ := h.of_raise
    cases he
    exact hp
  | call c next ih =>
    cases h with
    | call h => exact ih _ (hp _ (hans c _ _)) h

/-! ## What an embedded program has done -/

namespace Program

variable {Pre : List (Exchange I) → I.Call → Prop} {Pre' : List (Exchange J) → J.Call → Prop}
  {Q : α → List (Exchange I) → Prop} {base : List (Exchange J)} {past : List (Exchange I)} {out : Exchange I → Exchange J}

theorem Obeys.within (hout : ∀ c x, out ⟨c, E.answer c x⟩ = ⟨E.call c, .ok x⟩)
    (hpre : ∀ past c, Pre past c → Pre' (base ++ past.map out) (E.call c)) {p : Program I α} (hp : p.Obeys Pre Q past) :
    (p.within E).Obeys Pre' (fun r done => ∀ a, r = .ok a → ∃ past', done = base ++ past'.map out ∧ Q a past')
      (base ++ past.map out) := by
  induction p generalizing past with
  | ret a =>
    intro b hb
    cases hb
    exact ⟨past, rfl, hp⟩
  | raise e => exact fun b hb => nomatch hb
  | call c next ih =>
    obtain ⟨hc, hnext⟩ := hp
    refine Obeys.bind (obeys_perform (hpre past c hc) fun x => rfl) fun x done hdone => ?_
    have hx := ih (E.answer c x) (hnext (E.answer c x))
    rw [List.map_append, List.map_singleton, hout, ← List.append_assoc] at hx
    rw [← hdone]
    exact hx

theorem Obeys.inside (hout : ∀ c x, out ⟨c, E.answer c x⟩ = ⟨E.call c, .ok x⟩)
    (hpre : ∀ past c, Pre past c → Pre' (base ++ past.map out) (E.call c)) {f : I.Err → J.Err} {p : Program I α}
    (hp : p.Obeys Pre Q past) :
    (p.inside E f).Obeys Pre' (fun a done => ∃ past', done = base ++ past'.map out ∧ Q a past') (base ++ past.map out) := by
  refine (hp.within hout hpre).bind fun r done hdone => ?_
  cases r with
  | ok a => exact hdone a rfl
  | error e => trivial

end Program

end Interleaving

/-! # Refusals

A program refuses when it ends with an error of some kind without having changed anything. Amid others the world may
change between its calls; what counts is what its own calls change. `Refuses` is that every such ending is a refusal, and
`Marks` that whenever the program returns it has changed something. -/

namespace Interleaving

variable {I J : Interface} {σ σ' κ κ' α β : Type} {exec : Exec I σ κ} {exec' : Exec J σ' κ'}

/-- None of the calls changed the world it was made in. -/
def Untouched (exec : Exec I σ κ) (l : List (OwnCall I σ κ)) : Prop := ∀ x ∈ l, x.after exec = x.world

@[simp] theorem untouched_nil : Untouched exec [] := by simp [Untouched]

variable {l' : List (OwnCall I σ κ)}

@[simp] theorem untouched_append {l : List (OwnCall I σ κ)} :
    Untouched exec (l ++ l') ↔ Untouched exec l ∧ Untouched exec l' := by
  simp [Untouched, or_imp, forall_and]

/-- Where the program ends with an error in `P` it has changed nothing. -/
def Refuses (exec : Exec I σ κ) (P : I.Err → Prop) (p : Program I α) : Prop :=
  ∀ l e, Amid exec p l (.raise e) → P e → Untouched exec l

/-- The program never changes anything. -/
def Watches (exec : Exec I σ κ) (p : Program I α) : Prop := ∀ l q, Amid exec p l q → Untouched exec l

/-- The program never ends with an error in `P`. -/
def Spares (exec : Exec I σ κ) (P : I.Err → Prop) (p : Program I α) : Prop := ∀ l e, Amid exec p l (.raise e) → ¬ P e

/-- Where the program returns it has changed something. -/
def Marks (exec : Exec I σ κ) (p : Program I α) : Prop := ∀ l a, Amid exec p l (.ret a) → ¬ Untouched exec l

variable {P : I.Err → Prop} {P' : J.Err → Prop} {p : Program I α} {f : α → Program I β}

theorem watches_of_only {R : I.Call → Prop} (hp : p.Only R) (hR : ∀ c o w, R c → exec.after c o w = w) :
    Watches exec p := by
  intro l q h x hx
  exact hR _ _ _ (h.only hp x hx)

theorem Spares.refuses (hp : Spares exec P p) : Refuses exec P p := fun l e h he => absurd he (hp l e h)

theorem spares_ret (a : α) : Spares exec P (.ret a : Program I α) := fun _ _ h => nomatch h.of_ret.2

theorem refuses_ret (a : α) : Refuses exec P (.ret a : Program I α) := (spares_ret a).refuses

theorem refuses_raise (e : I.Err) : Refuses exec P (.raise e : Program I α) := by
  intro l e' h _
  rw [h.of_raise.1]
  exact untouched_nil

theorem refuses_perform (c : I.Call) : Refuses exec P (.perform c) := by
  intro l e h _
  obtain ⟨w, o, rfl, he⟩ := h.of_perform
  intro x hx
  rw [List.mem_singleton.mp hx]
  apply Exec.after_of_error (e := e)
  unfold Exec.answer at he
  cases hexec : exec c o w with
  | ok x =>
    rw [hexec] at he
    cases he
  | error e' =>
    rw [hexec] at he
    cases he
    rfl

theorem Watches.bind_refuses (hp : Watches exec p) (hf : ∀ a, Refuses exec P (f a)) : Refuses exec P (p.bind f) := by
  intro l e h he
  rcases h.of_bind with h | ⟨a, l₁, l₂, rfl, h₁, h₂⟩
  · exact hp l _ h
  · exact untouched_append.mpr ⟨hp l₁ _ h₁, hf a l₂ e h₂ he⟩

theorem Refuses.bind_spares (hp : Refuses exec P p) (hf : ∀ a, Spares exec P (f a)) : Refuses exec P (p.bind f) := by
  intro l e h he
  rcases h.of_bind with h | ⟨a, l₁, l₂, -, -, h₂⟩
  · exact hp l e h he
  · exact absurd he (hf a l₂ e h₂)

theorem spares_of_raises {A : (c : I.Call) → I.Answer c → Prop} (hans : ∀ c o w, A c (exec.answer c o w))
    (hp : p.Raises A fun e => ¬ P e) : Spares exec P p := fun _ _ h => h.raises hans hp

theorem marks_perform {c : I.Call} (hc : ∀ o w a, exec.answer c o w = .ok a → exec.after c o w ≠ w) :
    Marks exec (.perform c) := by
  intro l a h huntouched
  obtain ⟨w, o, rfl, hanswer⟩ := h.of_perform_ret
  exact hc o w a hanswer (huntouched _ (List.mem_singleton.mpr rfl))

theorem Marks.bind (hp : Marks exec p) : Marks exec (p.bind f) := by
  intro l b h huntouched
  obtain ⟨a, l₁, l₂, rfl, h₁, -⟩ := h.of_bind_ret
  exact hp l₁ a h₁ (untouched_append.mp huntouched).1

theorem marks_bind (hf : ∀ a, Marks exec (f a)) : Marks exec (p.bind f) := by
  intro l b h huntouched
  obtain ⟨a, l₁, l₂, rfl, -, h₂⟩ := h.of_bind_ret
  exact hf a l₂ b h₂ (untouched_append.mp huntouched).2

theorem marks_raise (e : I.Err) : Marks exec (.raise e : Program I α) := fun _ _ h => nomatch h.of_raise.2

/-! ## On a part of the world -/

variable {E : Embedding I J} {view : σ' → σ} {put : σ → σ' → σ'} {out : κ' → κ} {g : I.Err → J.Err}

theorem shown_unchanged_iff (hE : E.Carries exec exec' view put out) {x : OwnCall J σ' κ'} {y : OwnCall I σ κ}
    (h : x.Shows E view out y) : x.after exec' = x.world ↔ y.after exec = y.world := by
  refine ⟨fun hsame => ?_, hE.shown_unchanged h⟩
  rw [hE.shown_after h] at hsame
  rw [← h.world, ← hsame, hE.view_put]

theorem untouched_iff_of_shows (hE : E.Carries exec exec' view put out) {l : List (OwnCall J σ' κ')}
    (h : List.Forall₂ (OwnCall.Shows E view out) l l') : Untouched exec' l ↔ Untouched exec l' := by
  induction h with
  | nil => simp
  | cons hshows _ ih =>
    unfold Untouched at ih ⊢
    rw [List.forall_mem_cons, List.forall_mem_cons, ih, shown_unchanged_iff hE hshows]

theorem Refuses.inside (hE : E.Carries exec exec' view put out) (hp : Refuses exec P p) (hP : ∀ e, P' (g e) → P e) :
    Refuses exec' P' (p.inside E g) := by
  intro l e' h he'
  obtain ⟨e, l', rfl, hshows, hamid⟩ := h.of_inside hE
  exact (untouched_iff_of_shows hE hshows).mpr (hp l' e hamid (hP e he'))

theorem Marks.inside (hE : E.Carries exec exec' view put out) (hp : Marks exec p) : Marks exec' (p.inside E g) := by
  intro l a h huntouched
  obtain ⟨l', hshows, hamid⟩ := h.of_inside_ret hE
  exact hp l' a hamid ((untouched_iff_of_shows hE hshows).mp huntouched)

end Interleaving
