import MissionControl.Bounds.Session
import MissionControl.Transition.Run

/-! # The registry of guards

One process keeps a guard for each session it serves, and at most so many of them. A
session without a guard takes the place of the guard longest unused, unless that one is
halted. Who was given a guard goes on using it after the registry has let it go. -/

namespace Bounds

def MAX_SESSIONS : ℕ := 4096

/-- `SESSION_REGISTRY_FULL`, as its text. -/
def registryFull : String := "SESSION_REGISTRY_FULL: every session slot holds a halted session"

variable {τ : Type} [Clock τ] {κ : Type} [DecidableEq κ]

/-- Limits the constructor admits. -/
abbrev Checked (τ : Type) [Clock τ] := { limits : Limits τ // limits.post_init = .ok () }

/-- Every guard made, with the session it was made for, and `_REGISTRY`: the guard each
    session has, longest unused first. A guard is its place among all those made. -/
structure Registry (κ τ : Type) [Clock τ] where
  guards : List (κ × SessionGuard τ) := []
  registry : List (κ × ℕ) := []

inductive ClearError where
  | KeyError (text : String)
  | ValueError (text : String)

namespace Registry

/-- `_REGISTRY.get(session_key)` -/
def get (r : Registry κ τ) (session_key : κ) : Option ℕ :=
  (r.registry.find? (·.1 = session_key)).map Prod.snd

/-- `guard.halted` -/
def halted (r : Registry κ τ) (guard : ℕ) : Bool := r.guards[guard]?.any (·.2.halted)

def setGuard (r : Registry κ τ) (guard : ℕ) (g : SessionGuard τ) : Registry κ τ :=
  { r with guards := r.guards.modify guard fun made => (made.1, g) }

/-- The loop of `guard_for`: the oldest entry that is not halted goes, until there is room.
    Each pass takes one entry, so the entries there are bound the passes. -/
def evict (halted : ℕ → Bool) : ℕ → List (κ × ℕ) → List (κ × ℕ) × Except String Unit
  | 0, registry => (registry, .error registryFull)
  | passes + 1, registry =>
    if registry.length < MAX_SESSIONS then
      (registry, .ok ())
    else if registry.all (halted ·.2) then
      (registry, .error registryFull)
    else
      evict halted passes (registry.eraseP (!halted ·.2))

/-- The guard of a session, made at its first use. -/
def guard_for (r : Registry κ τ) (session_key : κ) (limits : Option (Checked τ)) (now : τ) :
    Registry κ τ × Except String ℕ :=
  match r.get session_key with
  | some guard =>
    ({ r with registry := r.registry.filter (·.1 ≠ session_key) ++ [(session_key, guard)] }, .ok guard)
  | none =>
    let (registry, room) := evict r.halted (r.registry.length + 1) r.registry
    match room with
    | .error exc => ({ r with registry }, .error exc)
    | .ok () =>
      let limits := limits.getD ⟨{}, Limits.default_admitted⟩
      ({ guards := r.guards ++ [(session_key, SessionGuard.new limits.1 limits.2 now)]
         registry := registry ++ [(session_key, r.guards.length)] }, .ok r.guards.length)

/-- The owner's lift of one session's halt. -/
def clear_halt (r : Registry κ τ) (session_key : κ) (owner : Option String) (note : String) :
    Registry κ τ × Except ClearError Clear :=
  match (r.get session_key).bind fun guard => r.guards[guard]?.map (guard, ·.2) with
  | none => (r, .error (.KeyError "no guard for this session"))
  | some (guard, g) =>
    (r.setGuard guard (g.clear_halt owner note).1,
      (g.clear_halt owner note).2.mapError .ValueError)

end Registry

/-! ## Uses of the registry -/

/-- A call of the module, or of a guard that was handed out. -/
inductive Use (κ τ : Type) [Clock τ] where
  | guard_for (session_key : κ) (limits : Option (Checked τ)) (now : τ)
  | call (guard : ℕ) (op : Op τ)
  | clear_halt (session_key : κ) (owner : Option String) (note : String)

/-- What a session sees of a use: a call admitted, or its halt lifted. -/
inductive Event (κ τ : Type) [Clock τ] where
  | admitted (session_key : κ) (admission : Admission τ)
  | cleared (session_key : κ)

/-- What a call of a guard made for `session_key` shows. -/
def SessionGuard.event (g : SessionGuard τ) (session_key : κ) : Op τ → Option (Event κ τ)
  | .admitCall c bounds_now anomalies_now commit_now =>
    (g.step (.admitCall c bounds_now anomalies_now commit_now)).2.map (.admitted session_key)
  | .record _ _ _ => none
  | .clear_halt owner note =>
    if (g.clear_halt owner note).2.isOk then some (.cleared session_key) else none

namespace Registry

/-- A call of a guard; a guard that was never made is not called. -/
def call (r : Registry κ τ) (guard : ℕ) (op : Op τ) : Registry κ τ × Option (Event κ τ) :=
  match r.guards[guard]? with
  | none => (r, none)
  | some (session_key, g) => (r.setGuard guard (g.step op).1, g.event session_key op)

def step (r : Registry κ τ) : Use κ τ → Registry κ τ × Option (Event κ τ)
  | .guard_for session_key limits now => ((r.guard_for session_key limits now).1, none)
  | .call guard op => r.call guard op
  | .clear_halt session_key owner note =>
    let (r', result) := r.clear_halt session_key owner note
    (r', if result.isOk then some (.cleared session_key) else none)

/-- The registry after a sequence of uses, and what they showed, in order. -/
def run (r : Registry κ τ) : List (Use κ τ) → Registry κ τ × List (Event κ τ)
  | [] => (r, [])
  | use :: uses =>
    let (r', events) := (r.step use).1.run uses
    (r', (r.step use).2.toList ++ events)

/-- A guard of the session is halted. -/
def Halted (r : Registry κ τ) (session_key : κ) : Prop :=
  ∃ g, (session_key, g) ∈ r.guards ∧ g.halted

/-- A guard that is asked to admit a call is one the registry still holds. -/
def InPlace (r : Registry κ τ) : Use κ τ → Prop
  | .call guard (.admitCall _ _ _ _) => guard ∈ r.registry.map Prod.snd
  | _ => True

instance (r : Registry κ τ) (use : Use κ τ) : Decidable (r.InPlace use) :=
  match use with
  | .guard_for _ _ _ => inferInstanceAs (Decidable True)
  | .call guard (.admitCall _ _ _ _) => inferInstanceAs (Decidable (guard ∈ r.registry.map Prod.snd))
  | .call _ (.record _ _ _) => inferInstanceAs (Decidable True)
  | .call _ (.clear_halt _ _) => inferInstanceAs (Decidable True)
  | .clear_halt _ _ _ => inferInstanceAs (Decidable True)

/-- Every use of the sequence finds its guard in place. -/
def AllInPlace (r : Registry κ τ) : List (Use κ τ) → Prop
  | [] => True
  | use :: uses => r.InPlace use ∧ (r.step use).1.AllInPlace uses

instance AllInPlace.decidable (r : Registry κ τ) : (uses : List (Use κ τ)) →
    Decidable (r.AllInPlace uses)
  | [] => inferInstanceAs (Decidable True)
  | use :: uses =>
    have := AllInPlace.decidable (r.step use).1 uses
    inferInstanceAs (Decidable (r.InPlace use ∧ (r.step use).1.AllInPlace uses))

end Registry

variable {r : Registry κ τ}

/-! ## Making room -/

variable {registry : List (κ × ℕ)}

omit [DecidableEq κ] in
theorem length_eraseP_all {halted : ℕ → Bool} (h : ¬ registry.all (halted ·.2)) :
    (registry.eraseP (!halted ·.2)).length + 1 = registry.length := by
  simp only [List.all_eq_true, not_forall, Bool.not_eq_true] at h
  obtain ⟨e, he, hrunning⟩ := h
  have hlength := List.length_eraseP_of_mem (p := fun e => !halted e.2) he (by simp [hrunning])
  have hpos := List.length_pos_of_mem he
  omega

omit [DecidableEq κ] in
/-- **Making room.** Entries of halted guards stay, the others keep their order, and
    either there is room or a halted session has every slot. -/
theorem evict_spec {halted : ℕ → Bool} {passes : ℕ} {registry : List (κ × ℕ)}
    (hpasses : registry.length < passes) : (Registry.evict halted passes registry).1.Sublist registry ∧
      (∀ e ∈ registry, halted e.2 → e ∈ (Registry.evict halted passes registry).1) ∧
      ((Registry.evict halted passes registry).2 = .ok () ∧
          (Registry.evict halted passes registry).1.length < MAX_SESSIONS ∨
        (Registry.evict halted passes registry).2 = .error registryFull ∧
          ∀ e ∈ (Registry.evict halted passes registry).1, halted e.2) := by
  induction passes generalizing registry with
  | zero => exact absurd hpasses (Nat.not_lt_zero _)
  | succ passes ih =>
    unfold Registry.evict
    split
    · rename_i hroom
      exact ⟨List.Sublist.refl _, fun e he _ => he, .inl ⟨rfl, hroom⟩⟩
    split
    · rename_i hall
      refine ⟨List.Sublist.refl _, fun e he _ => he, .inr ⟨rfl, fun e he => ?_⟩⟩
      exact List.all_eq_true.mp hall e he
    · rename_i hall
      have hlength := length_eraseP_all hall
      have hshorter : (registry.eraseP (!halted ·.2)).length < passes := by omega
      obtain ⟨hsub, hhalted, hroom⟩ := ih hshorter
      refine ⟨hsub.trans List.eraseP_sublist, fun e he hh => hhalted e ?_ hh, hroom⟩
      exact (List.mem_eraseP_of_neg (by simp [hh])).mpr he

/-! ## What every sequence of uses keeps -/

/-- Each session has one entry, which names a guard made for it, and there are at most
    `MAX_SESSIONS` of them. -/
structure Tidy (r : Registry κ τ) : Prop where
  keys : (r.registry.map Prod.fst).Nodup
  held : ∀ {k : κ} {guard : ℕ}, (k, guard) ∈ r.registry → ∃ g, r.guards[guard]? = some (k, g)
  room : r.registry.length ≤ MAX_SESSIONS

/-- Every halted guard is in the registry. -/
structure Kept (r : Registry κ τ) : Prop where
  mem : ∀ {k : κ} {guard : ℕ} {g : SessionGuard τ}, r.guards[guard]? = some (k, g) → g.halted →
    (k, guard) ∈ r.registry

variable {k : κ} {guard : ℕ}

theorem mem_of_get (h : r.get k = some guard) : (k, guard) ∈ r.registry := by
  obtain ⟨⟨k', guard'⟩, hfind, rfl⟩ := Option.map_eq_some_iff.mp h
  obtain rfl : k' = k := by simpa using List.find?_some hfind
  exact List.mem_of_find?_eq_some hfind

theorem not_mem_of_get (h : r.get k = none) : k ∉ r.registry.map Prod.fst := by
  rw [Registry.get, Option.map_eq_none_iff, List.find?_eq_none] at h
  intro hk
  obtain ⟨e, he, rfl⟩ := List.mem_map.mp hk
  exact h e he (by simp)

variable {guard' : ℕ}

omit [DecidableEq κ] in
theorem Tidy.eq_of_key (h : Tidy r) (hk : (k, guard) ∈ r.registry) (hk' : (k, guard') ∈ r.registry) :
    guard = guard' := by
  have heq := List.inj_on_of_nodup_map h.keys hk hk' rfl
  exact congrArg Prod.snd heq

omit [DecidableEq κ] in
theorem getElem?_setGuard (r : Registry κ τ) (guard guard' : ℕ) (g : SessionGuard τ) :
    (r.setGuard guard g).guards[guard']? = if guard = guard' then r.guards[guard']?.map fun made => (made.1, g)
      else r.guards[guard']? := by
  rw [Registry.setGuard, List.getElem?_modify]
  split
  · rfl
  · rw [id_map']

/-- What a use does to the guards: it makes one more, or one guard takes a call. -/
inductive Effect (r : Registry κ τ) : Use κ τ → Registry κ τ → Option (Event κ τ) → Prop
  | found {k : κ} {limits : Option (Checked τ)} {now : τ} {guard : ℕ} (hget : r.get k = some guard) :
      Effect r (.guard_for k limits now)
        { r with registry := r.registry.filter (·.1 ≠ k) ++ [(k, guard)] } none
  | full {k : κ} {limits : Option (Checked τ)} {now : τ} {registry : List (κ × ℕ)}
      (hsub : registry.Sublist r.registry) (hstay : ∀ e ∈ r.registry, r.halted e.2 → e ∈ registry) :
      Effect r (.guard_for k limits now) { r with registry } none
  | made {k : κ} {limits : Option (Checked τ)} {now : τ} {registry : List (κ × ℕ)}
      {g : SessionGuard τ} (hget : r.get k = none) (hsub : registry.Sublist r.registry)
      (hstay : ∀ e ∈ r.registry, r.halted e.2 → e ∈ registry) (hroom : registry.length < MAX_SESSIONS)
      (hnew : g.halted = false) :
      Effect r (.guard_for k limits now)
        { guards := r.guards ++ [(k, g)], registry := registry ++ [(k, r.guards.length)] } none
  | call {use : Use κ τ} {k : κ} {guard : ℕ} {g : SessionGuard τ} {op : Op τ}
      (hguard : r.guards[guard]? = some (k, g))
      (hplace : r.InPlace use → ∀ c b a t, op = .admitCall c b a t → guard ∈ r.registry.map Prod.snd) :
      Effect r use (r.setGuard guard (g.step op).1) (g.event k op)
  | none {use : Use κ τ} : Effect r use r none

theorem Tidy.clear_halt (h : Tidy r) (k : κ) (owner : Option String) (note : String) :
    r.clear_halt k owner note = (r, .error (.KeyError "no guard for this session")) ∨
      ∃ guard g, r.guards[guard]? = some (k, g) ∧
        r.clear_halt k owner note = (r.setGuard guard (g.clear_halt owner note).1,
          (g.clear_halt owner note).2.mapError .ValueError) := by
  unfold Registry.clear_halt
  cases hget : r.get k with
  | none => exact .inl rfl
  | some guard =>
    obtain ⟨g, hguard⟩ := h.held (mem_of_get hget)
    refine .inr ⟨guard, g, hguard, ?_⟩
    simp only [Option.bind_some, hguard, Option.map_some]

/-- **One use**, by what it does to the guards and shows of them. -/
theorem Tidy.step_effect (h : Tidy r) (use : Use κ τ) : Effect r use (r.step use).1 (r.step use).2 := by
  cases use with
  | guard_for k limits now =>
    simp only [Registry.step, Registry.guard_for]
    cases hget : r.get k with
    | some guard => exact .found hget
    | none =>
      have hpasses := Nat.lt_succ_self r.registry.length
      obtain ⟨hsub, hstay, hroom⟩ := @evict_spec _ r.halted _ _ hpasses
      rcases hroom with ⟨hok, hroom⟩ | ⟨hfull, -⟩
      · simp only [hok]
        exact .made hget hsub hstay hroom rfl
      · simp only [hfull]
        exact .full hsub hstay
  | call guard op =>
    simp only [Registry.step, Registry.call]
    cases hguard : r.guards[guard]? with
    | none => exact .none
    | some made =>
      refine .call (k := made.1) (g := made.2) hguard fun hplace c b a t hop => ?_
      subst hop
      exact hplace
  | clear_halt k owner note =>
    rcases h.clear_halt k owner note with hnone | ⟨guard, g, hguard, hsome⟩
    · simp only [Registry.step, hnone]
      exact .none
    · have hok : ((g.clear_halt owner note).2.mapError ClearError.ValueError).isOk =
          (g.clear_halt owner note).2.isOk := by
        cases (g.clear_halt owner note).2 <;> rfl
      simp only [Registry.step, hsome, hok]
      exact .call hguard fun _ c b a t (hop : Op.clear_halt owner note = _) => by cases hop

omit [DecidableEq κ] in
theorem Tidy.nil : Tidy ({} : Registry κ τ) where
  keys := List.nodup_nil
  held h := by cases h
  room := Nat.zero_le _

variable {g : SessionGuard τ}

omit [DecidableEq κ] in
theorem held_setGuard {g' : SessionGuard τ} (h : r.guards[guard']? = some (k, g')) :
    ∃ g'', (r.setGuard guard g).guards[guard']? = some (k, g'') := by
  rw [getElem?_setGuard]
  split
  · exact ⟨g, by rw [h]; rfl⟩
  · exact ⟨g', h⟩

/-- **Every use keeps the registry tidy.** -/
theorem Tidy.step (h : Tidy r) (use : Use κ τ) : Tidy (r.step use).1 := by
  have heffect := h.step_effect use
  generalize (r.step use).1 = r', (r.step use).2 = e at heffect
  cases heffect with
  | @found k limits now guard hget =>
    have hmem := mem_of_get hget
    have hfilter : (r.registry.filter (·.1 ≠ k)).length < r.registry.length := by
      refine List.length_filter_lt_length_iff_exists.mpr ⟨(k, guard), hmem, by simp⟩
    refine ⟨?_, fun {k' guard'} he => ?_, ?_⟩
    · rw [List.map_append, List.nodup_append]
      refine ⟨h.keys.sublist (List.filter_sublist.map _), List.nodup_singleton _, ?_⟩
      intro x hx y hy
      obtain ⟨e, he, rfl⟩ := List.mem_map.mp hx
      obtain rfl : y = k := List.mem_singleton.mp hy
      simpa using (List.mem_filter.mp he).2
    · rcases List.mem_append.mp he with he | he
      · exact h.held (List.mem_filter.mp he).1
      · obtain ⟨rfl, rfl⟩ := Prod.mk.inj (List.mem_singleton.mp he)
        exact h.held hmem
    · have hroom := h.room
      simp only [List.length_append, List.length_singleton]
      omega
  | full hsub _ =>
    exact ⟨h.keys.sublist (hsub.map _), fun he => h.held (hsub.subset he), hsub.length_le.trans h.room⟩
  | @made k limits now registry g hget hsub _ hroom _ =>
    refine ⟨?_, fun {k' guard'} he => ?_, ?_⟩
    · rw [List.map_append, List.nodup_append]
      refine ⟨h.keys.sublist (hsub.map _), List.nodup_singleton _, ?_⟩
      intro x hx y hy hxy
      obtain rfl : y = k := List.mem_singleton.mp hy
      exact not_mem_of_get hget (hxy ▸ (hsub.map Prod.fst).subset hx)
    · rcases List.mem_append.mp he with he | he
      · obtain ⟨g', hg'⟩ := h.held (hsub.subset he)
        obtain ⟨hlt, -⟩ := List.getElem?_eq_some_iff.mp hg'
        exact ⟨g', by rw [List.getElem?_append_left hlt]; exact hg'⟩
      · obtain ⟨rfl, rfl⟩ := Prod.mk.inj (List.mem_singleton.mp he)
        exact ⟨g, by rw [List.getElem?_concat_length]⟩
    · simp only [List.length_append, List.length_singleton]
      omega
  | call hguard _ =>
    refine ⟨h.keys, fun he => ?_, h.room⟩
    obtain ⟨g', hg'⟩ := h.held he
    exact held_setGuard hg'
  | none => exact h

theorem Tidy.run (h : Tidy r) (uses : List (Use κ τ)) : Tidy (r.run uses).1 := by
  induction uses generalizing r with
  | nil => exact h
  | cons use uses ih => exact ih (h.step use)

/-! ## Halts -/

omit [DecidableEq κ] in
theorem halted_call {op : Op τ} (h : g.halted) (hcleared : g.event k op ≠ some (.cleared k)) :
    (g.step op).1.halted ∧ g.event k op = none := by
  have hop : ¬ op.clears := by
    cases op with
    | admitCall c b a t => exact id
    | record node ok now => exact id
    | clear_halt owner note =>
      rintro ⟨o, rfl, hblank, howner, hnote⟩
      refine hcleared (if_pos ?_)
      unfold SessionGuard.clear_halt
      dsimp only
      rw [if_neg (not_or.mpr ⟨hblank, howner⟩), if_neg hnote]
      rfl
  obtain ⟨hhalted, hnone⟩ := halted_step h hop
  refine ⟨hhalted, ?_⟩
  cases op with
  | admitCall c b a t =>
    show ((g.step _).2.map (Event.admitted k)) = none
    rw [hnone]
    rfl
  | record node ok now => rfl
  | clear_halt owner note =>
    refine if_neg fun hok => hcleared (if_pos hok)

theorem halted_of_step {op : Op τ} (h : (g.step op).1.halted) (hop : ∀ c b a t, op ≠ .admitCall c b a t) :
    g.halted := by
  cases op with
  | admitCall c b a t => exact absurd rfl (hop c b a t)
  | record node ok now =>
    simp only [SessionGuard.step, SessionGuard.record] at h
    split at h
    · exact h
    · split at h <;> exact h
  | clear_halt owner note =>
    simp only [SessionGuard.step, SessionGuard.clear_halt] at h
    split at h
    · exact h
    · split at h
      · exact h
      · split at h
        · exact h
        · cases h

omit [DecidableEq κ] in
theorem Kept.halted (h : Kept r) (hguard : r.guards[guard]? = some (k, g)) (hhalted : g.halted) :
    (k, guard) ∈ r.registry ∧ r.halted guard := by
  refine ⟨h.mem hguard hhalted, ?_⟩
  rw [Registry.halted, hguard]
  exact hhalted

variable {use : Use κ τ}

/-- **A use that finds its guard in place** leaves every halted guard in the registry. -/
theorem Kept.step (h : Kept r) (htidy : Tidy r) (hplace : r.InPlace use) : Kept (r.step use).1 := by
  have heffect := htidy.step_effect use
  generalize (r.step use).1 = r', (r.step use).2 = e at heffect
  cases heffect with
  | @found k limits now guard hget =>
    refine ⟨fun {k' guard' g} hguard hhalted => ?_⟩
    have hmem := h.mem hguard hhalted
    by_cases hk : k' = k
    · subst hk
      obtain rfl := htidy.eq_of_key hmem (mem_of_get hget)
      exact List.mem_append_right _ (List.mem_singleton_self _)
    · exact List.mem_append_left _ (List.mem_filter.mpr ⟨hmem, by simpa using hk⟩)
  | full _ hstay =>
    refine ⟨fun {k' guard' g} hguard hhalted => ?_⟩
    obtain ⟨hmem, hhalts⟩ := h.halted hguard hhalted
    exact hstay _ hmem hhalts
  | @made k limits now registry g hget hsub hstay hroom hnew =>
    refine ⟨fun {k' guard' g'} hguard hhalted => ?_⟩
    rcases Transition.getElem?_concat hguard with hold | ⟨rfl, heq⟩
    · obtain ⟨hmem, hhalts⟩ := h.halted hold hhalted
      exact List.mem_append_left _ (hstay _ hmem hhalts)
    · obtain ⟨rfl, rfl⟩ := Prod.mk.inj heq
      rw [hnew] at hhalted
      cases hhalted
  | @call use k guard g op hguard hin =>
    refine ⟨fun {k' guard' g'} hguard' hhalted => ?_⟩
    rw [getElem?_setGuard] at hguard'
    split at hguard'
    · rename_i heq
      subst heq
      rw [hguard] at hguard'
      obtain ⟨rfl, rfl⟩ := Prod.mk.inj (Option.some.inj hguard')
      by_cases hop : ∃ c b a t, op = .admitCall c b a t
      · obtain ⟨c, b, a, t, rfl⟩ := hop
        obtain ⟨⟨k', guard'⟩, hmem, rfl⟩ := List.mem_map.mp (hin hplace c b a t rfl)
        -- the entry names a guard of its own session
        obtain ⟨g', hg'⟩ := htidy.held hmem
        rw [hguard] at hg'
        obtain ⟨rfl, -⟩ := Prod.mk.inj (Option.some.inj hg')
        exact hmem
      · exact h.mem hguard (halted_of_step hhalted fun c b a t heq => hop ⟨c, b, a, t, heq⟩)
    · exact h.mem hguard' hhalted
  | none => exact h

/-- **A use that finds its guard in place**, and clears no halt of the session, leaves the
    session halted and admits none of its calls. -/
theorem Kept.halted_step (h : Kept r) (htidy : Tidy r) (hplace : r.InPlace use) (hk : r.Halted k)
    (hcleared : (r.step use).2 ≠ some (.cleared k)) :
    (r.step use).1.Halted k ∧ ∀ x, (r.step use).2 ≠ some (.admitted k x) := by
  obtain ⟨g, hg, hhalted⟩ := hk
  obtain ⟨guard, hguard⟩ := List.mem_iff_getElem?.mp hg
  have heffect := htidy.step_effect use
  generalize (r.step use).1 = r', (r.step use).2 = e at heffect hcleared
  cases heffect with
  | found _ => exact ⟨⟨g, hg, hhalted⟩, by simp⟩
  | full _ _ => exact ⟨⟨g, hg, hhalted⟩, by simp⟩
  | made _ _ _ _ _ => exact ⟨⟨g, List.mem_append_left _ hg, hhalted⟩, by simp⟩
  | @call use k' guard' g' op hguard' hin =>
    by_cases heq : guard' = guard
    · subst heq
      rw [hguard] at hguard'
      obtain ⟨rfl, rfl⟩ := Prod.mk.inj (Option.some.inj hguard')
      obtain ⟨hstays, hnone⟩ := halted_call hhalted hcleared
      refine ⟨⟨(g.step op).1, List.mem_of_getElem? (i := guard') ?_, hstays⟩, by simp [hnone]⟩
      rw [getElem?_setGuard, if_pos rfl, hguard]
      rfl
    · have hstays : (r.setGuard guard' (g'.step op).1).guards[guard]? = some (k, g) := by
        rw [getElem?_setGuard, if_neg heq]
        exact hguard
      refine ⟨⟨g, List.mem_of_getElem? hstays, hhalted⟩, fun x hx => ?_⟩
      cases op with
      | admitCall c b a t =>
        -- a guard in place is the one its session is halted by
        obtain ⟨x', -, heq'⟩ := Option.map_eq_some_iff.mp hx
        obtain rfl : k' = k := (Event.admitted.inj heq').1
        obtain ⟨⟨k'', guard''⟩, hmem, rfl⟩ := List.mem_map.mp (hin hplace c b a t rfl)
        obtain ⟨g'', hg''⟩ := htidy.held hmem
        rw [hguard'] at hg''
        obtain ⟨rfl, -⟩ := Prod.mk.inj (Option.some.inj hg'')
        exact heq (htidy.eq_of_key hmem (h.mem hguard hhalted))
      | record node ok now => cases hx
      | clear_halt owner note =>
        simp only [SessionGuard.event] at hx
        split at hx <;> cases hx
  | none => exact ⟨⟨g, hg, hhalted⟩, by simp⟩

theorem Kept.run (h : Kept r) (htidy : Tidy r) {uses : List (Use κ τ)} (hplace : r.AllInPlace uses) :
    Kept (r.run uses).1 := by
  induction uses generalizing r with
  | nil => exact h
  | cons use uses ih => exact ih (h.step htidy hplace.1) (htidy.step use) hplace.2

theorem Kept.halted_run (h : Kept r) (htidy : Tidy r) {uses : List (Use κ τ)} (hplace : r.AllInPlace uses)
    (hk : r.Halted k) (hcleared : Event.cleared k ∉ (r.run uses).2) : ∀ x, Event.admitted k x ∉ (r.run uses).2 := by
  induction uses generalizing r with
  | nil => exact fun x hx => by cases hx
  | cons use uses ih =>
    simp only [Registry.run, List.mem_append, Option.mem_toList, not_or] at hcleared ⊢
    obtain ⟨hhalted, hnone⟩ := h.halted_step htidy hplace.1 hk hcleared.1
    exact fun x => ⟨hnone x, ih (h.step htidy hplace.1) (htidy.step use) hplace.2 hhalted hcleared.2 x⟩

variable {after before : List (Use κ τ)}

theorem allInPlace_append :
    r.AllInPlace (before ++ after) ↔ r.AllInPlace before ∧ (r.run before).1.AllInPlace after := by
  induction before generalizing r with
  | nil => exact (true_and _).symm.to_iff
  | cons use before ih =>
    show r.InPlace use ∧ (r.step use).1.AllInPlace (before ++ after) ↔ _
    rw [ih, ← and_assoc]
    rfl

/-- **A halt survives churn.** After any uses of a new registry it has at most
    `MAX_SESSIONS` entries. Where every call that asks a guard to admit it finds the guard
    in place, a session one of whose guards is halted has no call admitted until its halt
    is cleared. -/
theorem halts_survive_churn {before after : List (Use κ τ)} {k : κ} :
    (({} : Registry κ τ).run before).1.registry.length ≤ MAX_SESSIONS ∧
      (({} : Registry κ τ).AllInPlace (before ++ after) →
        (({} : Registry κ τ).run before).1.Halted k →
        Event.cleared k ∉ ((({} : Registry κ τ).run before).1.run after).2 →
        ∀ x, Event.admitted k x ∉ ((({} : Registry κ τ).run before).1.run after).2) := by
  have htidy : Tidy (({} : Registry κ τ).run before).1 := Tidy.nil.run before
  refine ⟨htidy.room, fun hplace hk hcleared => ?_⟩
  obtain ⟨hbefore, hafter⟩ := allInPlace_append.mp hplace
  have hkept : Kept ({} : Registry κ τ) := ⟨fun hguard _ => by cases hguard⟩
  exact (hkept.run Tidy.nil hbefore).halted_run htidy hafter hk hcleared

/-- A guard with the default limits. -/
def fresh : SessionGuard ℤ := SessionGuard.new {} Limits.default_admitted 0

/-- A call that is too deep, with the clock standing still. -/
def tooDeep : Op ℤ := .admitCall ⟨"search", "h", 13, [], "", false⟩ 0 0 0

/-- As many of them as it takes to halt a guard. -/
def sevenTooDeep : List (Op ℤ) := tooDeep :: List.replicate 6 tooDeep

theorem fresh_halts : (fresh.run sevenTooDeep).1.halted = true := by decide +kernel

/-- Session 0 is halted; another session is served, and session 0 asks again. -/
def halting : List (Use ℕ ℤ) := .guard_for 0 none 0 :: sevenTooDeep.map (.call 0)
def asking : List (Use ℕ ℤ) := [.guard_for 1 none 0, .guard_for 0 none 0, .call 0 (searches 0)]

theorem halts_survive_churn_twoSessions :
    ∀ x, Event.admitted 0 x ∉ ((({} : Registry ℕ ℤ).run halting).1.run asking).2 := by
  have hplace : ({} : Registry ℕ ℤ).AllInPlace (halting ++ asking) := by decide +kernel
  have hguard : (({} : Registry ℕ ℤ).run halting).1.guards = [(0, (fresh.run sevenTooDeep).1)] := rfl
  have hhalted : (({} : Registry ℕ ℤ).run halting).1.Halted 0 :=
    ⟨_, by rw [hguard]; exact List.mem_singleton_self _, fresh_halts⟩
  have hnone : ((({} : Registry ℕ ℤ).run halting).1.run asking).2.isEmpty = true := by decide +kernel
  refine halts_survive_churn.2 hplace hhalted ?_
  rw [List.isEmpty_iff.mp hnone]
  exact List.not_mem_nil

/-! ## A guard that is used after its session has been displaced -/

theorem run_append : r.run (before ++ after) =
      (((r.run before).1.run after).1, (r.run before).2 ++ ((r.run before).1.run after).2) := by
  induction before generalizing r with
  | nil => rfl
  | cons use before ih =>
    simp only [List.cons_append, Registry.run]
    rw [ih, List.append_assoc]

omit [DecidableEq κ] in
theorem setGuard_setGuard (r : Registry κ τ) (guard : ℕ) (g g' : SessionGuard τ) :
    (r.setGuard guard g).setGuard guard g' = r.setGuard guard g' := by
  have hguards : ((r.setGuard guard g).setGuard guard g').guards = (r.setGuard guard g').guards := by
    refine List.ext_getElem? fun i => ?_
    rw [getElem?_setGuard, getElem?_setGuard, getElem?_setGuard]
    split
    · rw [Option.map_map]
      rfl
    · rfl
  exact congrArg (fun guards => { r with guards }) hguards

theorem run_calls (hguard : r.guards[guard]? = some (k, g)) (op : Op τ) (ops : List (Op τ)) :
    (r.run ((op :: ops).map (.call guard))).1 = r.setGuard guard (g.run (op :: ops)).1 := by
  have hstep : (r.step (.call guard op)).1 = r.setGuard guard (g.step op).1 := by
    simp only [Registry.step, Registry.call, hguard]
  induction ops generalizing r g op with
  | nil => exact hstep
  | cons op' ops ih =>
    have hguard' : (r.setGuard guard (g.step op).1).guards[guard]? = some (k, (g.step op).1) := by
      rw [getElem?_setGuard, if_pos rfl, hguard]
      rfl
    show ((r.step (.call guard op)).1.run ((op' :: ops).map (.call guard))).1 = _
    rw [hstep, ih hguard' op' (by simp only [Registry.step, Registry.call, hguard']), setGuard_setGuard]
    rfl

theorem guard_for_new {r : Registry κ ℤ} (hget : r.get k = none)
    (hroom : r.registry.length < MAX_SESSIONS ∧ registry = r.registry ∨
      ∃ e, r.registry = e :: registry ∧ r.registry.length = MAX_SESSIONS ∧ r.halted e.2 = false) :
    r.guard_for k none 0 =
      ({ guards := r.guards ++ [(k, fresh)], registry := registry ++ [(k, r.guards.length)] },
        .ok r.guards.length) := by
  have hevict : Registry.evict r.halted (r.registry.length + 1) r.registry = (registry, .ok ()) := by
    rcases hroom with ⟨hlt, rfl⟩ | ⟨e, hregistry, hlength, hrunning⟩
    · rw [Registry.evict, if_pos hlt]
    · rw [Registry.evict, if_neg (by omega), if_neg (by simp [hregistry, hrunning]), hlength,
        hregistry, List.eraseP_cons_of_pos (by simp [hrunning])]
      rw [hregistry, List.length_cons] at hlength
      rw [← hlength, Registry.evict, if_pos (by omega)]
  unfold Registry.guard_for
  rw [hget]
  simp only [hevict]
  rfl

/-- A registry that served `n` sessions, with room for all of them. -/
def served (n : ℕ) : Registry ℕ ℤ where
  guards := (List.range n).map fun k => (k, fresh)
  registry := (List.range n).map fun k => (k, k)

theorem get_eq_none {r : Registry κ τ} (h : ∀ e ∈ r.registry, e.1 ≠ k) : r.get k = none := by
  rw [Registry.get, Option.map_eq_none_iff, List.find?_eq_none]
  intro e he
  simpa using h e he

variable {n : ℕ}

theorem run_served (hn : n ≤ MAX_SESSIONS) :
    (({} : Registry ℕ ℤ).run ((List.range n).map fun k => .guard_for k none 0)).1 = served n := by
  induction n with
  | zero => rfl
  | succ n ih =>
    have hget : (served n).get n = none := by
      refine get_eq_none fun e he => ?_
      obtain ⟨k, hk, rfl⟩ := List.mem_map.mp he
      exact (List.mem_range.mp hk).ne
    have hroom : (served n).registry.length < MAX_SESSIONS := by
      simp only [served, List.length_map, List.length_range]
      omega
    rw [List.range_succ, List.map_append, run_append, ih (by omega)]
    show ((served n).guard_for n none 0).1 = _
    rw [guard_for_new hget (.inl ⟨hroom, rfl⟩)]
    simp only [served, List.range_succ, List.map_append, List.map_singleton, List.length_map, List.length_range]

/-- The guard of session 0 is handed out, sessions 1 to `slots` are served, and then the
    guard is asked to admit calls until it halts. -/
def churning (slots : ℕ) : List (Use ℕ ℤ) :=
  (List.range (slots + 1)).map (fun k => .guard_for k none 0) ++
    (sevenTooDeep).map (.call 0)

/-- Session 0 asks for its guard again, and uses it. -/
def returning (slots : ℕ) : List (Use ℕ ℤ) :=
  [.guard_for 0 none 0, .call (slots + 1) (searches 0)]

/-- Session 0 has lost its slot to the last session served. -/
def displaced (slots : ℕ) : Registry ℕ ℤ where
  guards := (List.range (slots + 1)).map fun k => (k, fresh)
  registry := (List.range slots).map fun k => (k + 1, k + 1)

theorem displaced_guards {slots k : ℕ} (hk : k ≤ slots) : (displaced slots).guards[k]? = some (k, fresh) := by
  rw [displaced, List.getElem?_map, List.getElem?_range (by omega)]
  rfl

theorem map_range_succ (n i : ℕ) : ((List.range (n + 1)).map fun k => (k + i, k + i)) =
    (i, i) :: (List.range n).map fun k => (k + (i + 1), k + (i + 1)) := by
  rw [List.range_succ_eq_map, List.map_cons, List.map_map, Nat.zero_add]
  refine congrArg (List.cons (i, i)) (List.map_congr_left fun k _ => ?_)
  show (k.succ + i, k.succ + i) = _
  rw [Nat.succ_add, Nat.add_succ]

theorem step_served (hn : n + 1 = MAX_SESSIONS) :
    ((served (n + 1)).step (.guard_for (n + 1) none 0)).1 = displaced (n + 1) := by
  have hget : (served (n + 1)).get (n + 1) = none := by
    refine get_eq_none fun e he => ?_
    obtain ⟨k, hk, rfl⟩ := List.mem_map.mp he
    exact (List.mem_range.mp hk).ne
  have hlength : (served (n + 1)).registry.length = MAX_SESSIONS := by
    rw [served, List.length_map, List.length_range, hn]
  have hrunning : (served (n + 1)).halted 0 = false := by
    rw [Registry.halted, served, List.getElem?_map, List.getElem?_range (Nat.succ_pos n)]
    rfl
  show ((served (n + 1)).guard_for (n + 1) none 0).1 = _
  rw [guard_for_new hget (.inr ⟨_, map_range_succ n 0, hlength, hrunning⟩)]
  simp [served, displaced, List.range_succ]

theorem run_churning (hn : n + 1 = MAX_SESSIONS) : (({} : Registry ℕ ℤ).run (churning (n + 1))).1 =
      (displaced (n + 1)).setGuard 0 (fresh.run (sevenTooDeep)).1 := by
  have hlast : ((served (n + 1)).run [.guard_for (n + 1) none 0]).1 = displaced (n + 1) :=
    step_served hn
  have hserved : (({} : Registry ℕ ℤ).run
      ((List.range (n + 1 + 1)).map fun k => .guard_for k none 0)).1 = displaced (n + 1) := by
    rw [List.range_succ, List.map_append, run_append, run_served hn.le]
    exact hlast
  have hcalls : ((displaced (n + 1)).run (sevenTooDeep.map (.call 0))).1 =
      (displaced (n + 1)).setGuard 0 (fresh.run sevenTooDeep).1 :=
    run_calls (displaced_guards (Nat.zero_le (n + 1))) _ _
  unfold churning
  rw [run_append, ← hcalls, ← hserved]

theorem run_returning (hn : n + 1 = MAX_SESSIONS) (g : SessionGuard ℤ) :
    (((displaced (n + 1)).setGuard 0 g).run (returning (n + 1))).2 = (fresh.event 0 (searches 0)).toList := by
  have hget : ((displaced (n + 1)).setGuard 0 g).get 0 = none := by
    refine get_eq_none fun e he => ?_
    obtain ⟨k, -, rfl⟩ := List.mem_map.mp he
    exact Nat.succ_ne_zero k
  have hlength : ((displaced (n + 1)).setGuard 0 g).registry.length = MAX_SESSIONS := by
    rw [Registry.setGuard, displaced, List.length_map, List.length_range, hn]
  have hrunning : ((displaced (n + 1)).setGuard 0 g).halted 1 = false := by
    rw [Registry.halted, getElem?_setGuard, if_neg Nat.zero_ne_one, displaced_guards (by omega)]
    rfl
  have hguards : ((displaced (n + 1)).setGuard 0 g).guards.length = n + 1 + 1 := by
    rw [Registry.setGuard, List.length_modify, displaced, List.length_map, List.length_range]
  simp only [returning, Registry.run, Registry.step, Registry.call,
    guard_for_new hget (.inr ⟨_, map_range_succ n 1, hlength, hrunning⟩)]
  rw [← hguards, List.getElem?_concat_length]
  simp only [Option.toList_none, List.nil_append, List.append_nil]

/-- The halted guard is no longer its session's, and the session is served again. -/
theorem churn_lifts_halt : ¬ ∀ (before after : List (Use ℕ ℤ)) (k : ℕ),
    (({} : Registry ℕ ℤ).run before).1.Halted k →
      Event.cleared k ∉ ((({} : Registry ℕ ℤ).run before).1.run after).2 →
      ∀ x, Event.admitted k x ∉ ((({} : Registry ℕ ℤ).run before).1.run after).2 := by
  intro h
  obtain ⟨n, hn⟩ : ∃ n, n + 1 = MAX_SESSIONS := ⟨4095, rfl⟩
  have hhalted : (fresh.run (sevenTooDeep)).1.halted = true := by decide +kernel
  have hrun := run_churning hn
  generalize (fresh.run (sevenTooDeep)).1 = g at hhalted hrun
  obtain ⟨x, hx⟩ : ∃ x, fresh.event (0 : ℕ) (searches 0) = some (.admitted 0 x) := ⟨_, rfl⟩
  have hevents := run_returning hn g
  rw [hx, ← hrun] at hevents
  refine h (churning (n + 1)) (returning (n + 1)) 0 ⟨g, ?_, hhalted⟩ ?_ x ?_
  · rw [hrun]
    refine List.mem_of_getElem? (i := 0) ?_
    rw [getElem?_setGuard, if_pos rfl, displaced_guards (Nat.zero_le _)]
    rfl
  · simp [hevents]
  · simp [hevents]

end Bounds
