import MissionControl.Relational.Acyclic
import MissionControl.Relational.Reach
import Mathlib.Data.Finset.Card

/-! # Looking for a path and for cycles

Two searches over a finite graph, given by the successors of each element. `finds` looks
for a goal breadth first and stops when it takes it from the queue. `visit` walks depth
first: an element is *opened* when it goes on the stack and *done* when it leaves it, and a
successor that is still open closes a cycle. Both are given fuel; `finds_iff` and
`findCycles_spec` say how much is enough, and what is found then. -/

namespace Relational

open Relation (TransGen ReflTransGen)

variable {α : Type} [DecidableEq α] {succ : α → List α}

/-! ## A goal, breadth first -/

/-- Rounds of the search for `goal`. -/
def finds (succ : α → List α) (goal : α) : ℕ → List α → List α → Bool
  | 0, _, _ => false
  | _ + 1, [], _ => false
  | fuel + 1, x :: queue, seen =>
    if x = goal then true
    else finds succ goal fuel (enqueue seen queue (succ x)).2 (enqueue seen queue (succ x)).1

variable {start goal x y : α} {queue seen : List α}

/-- The search for a goal between two rounds. -/
structure Finding (succ : α → List α) (start goal : α) (queue seen : List α) : Prop where
  started : start ∈ seen
  reached : ∀ y ∈ seen, ReflTransGen (Succ succ) start y
  queued : queue ⊆ seen
  expanded : ∀ y ∈ seen, y ∈ queue ∨ y ≠ goal ∧ ∀ z ∈ succ y, z ∈ seen
  distinct : seen.Nodup

omit [DecidableEq α] in
theorem Finding.init : Finding succ start goal [start] [start] where
  started := List.mem_singleton.mpr rfl
  reached := by
    intro y hy
    rw [List.mem_singleton.mp hy]
  queued := fun _ h => h
  expanded := fun _ h => .inl h
  distinct := List.nodup_singleton _

theorem Finding.round (h : Finding succ start goal (x :: queue) seen) (hx : x ≠ goal) :
    Finding succ start goal (enqueue seen queue (succ x)).2 (enqueue seen queue (succ x)).1 := by
  obtain ⟨new, heq, hsub, hseen, hnodup⟩ := enqueue_spec seen queue (succ x)
  rw [heq]
  have hreached : ReflTransGen (Succ succ) start x := h.reached x (h.queued List.mem_cons_self)
  refine ⟨List.mem_append_left _ h.started, ?_, ?_, ?_, hnodup h.distinct⟩
  · intro y hy
    rcases List.mem_append.mp hy with hy | hy
    · exact h.reached y hy
    · exact hreached.tail (hsub hy)
  · intro y hy
    rcases List.mem_append.mp hy with hy | hy
    · exact List.mem_append_left _ (h.queued (List.mem_cons_of_mem _ hy))
    · exact List.mem_append_right _ hy
  · intro y hy
    rcases List.mem_append.mp hy with hy | hy
    · rcases h.expanded y hy with hq | ⟨hne, hz⟩
      · rcases List.mem_cons.mp hq with rfl | hq
        · exact .inr ⟨hx, hseen⟩
        · exact .inl (List.mem_append_left _ hq)
      · exact .inr ⟨hne, fun z hsucc => List.mem_append_left _ (hz z hsucc)⟩
    · exact .inl (List.mem_append_right _ hy)

omit [DecidableEq α] in
theorem Finding.missed (h : Finding succ start goal [] seen) : ¬ ReflTransGen (Succ succ) start goal := by
  intro hgoal
  have hall : ∀ y, ReflTransGen (Succ succ) start y → y ∈ seen := by
    intro y hy
    induction hy with
    | refl => exact h.started
    | tail _ hab ih =>
      rcases h.expanded _ ih with hq | ⟨-, hz⟩
      · cases hq
      · exact hz _ hab
  rcases h.expanded goal (hall goal hgoal) with hq | ⟨hne, -⟩
  · cases hq
  · exact hne rfl

theorem finds_of_finding (all : List α) (hall : ∀ a b, b ∈ succ a → b ∈ all) {fuel : ℕ}
    (h : Finding succ start goal queue seen) (hsub : seen ⊆ all)
    (hfuel : queue.length + all.length ≤ fuel + seen.length) :
    finds succ goal fuel queue seen = true ↔ ReflTransGen (Succ succ) start goal := by
  induction fuel generalizing queue seen with
  | zero =>
    have hlen : seen.length ≤ all.length := (h.distinct.subperm hsub).length_le
    have hqueue : queue = [] := List.length_eq_zero_iff.mp (by omega)
    subst hqueue
    simp [finds, h.missed]
  | succ fuel ih =>
    cases queue with
    | nil => simp [finds, h.missed]
    | cons x queue =>
      rw [finds]
      by_cases hx : x = goal
      · rw [if_pos hx, ← hx]
        exact iff_of_true rfl (h.reached x (h.queued List.mem_cons_self))
      · have hround := h.round hx
        obtain ⟨new, heq, hnew, -, -⟩ := enqueue_spec seen queue (succ x)
        rw [if_neg hx]
        rw [heq] at hround ⊢
        refine ih hround ?_ ?_
        · intro z hz
          rcases List.mem_append.mp hz with hz | hz
          · exact hsub hz
          · exact hall x z (hnew hz)
        · simp only [List.length_append, List.length_cons] at hfuel ⊢
          omega

/-- **The search finds a goal exactly when a path leads to it**, given one round for each
    element there is. -/
theorem finds_iff (all : List α) (hall : ∀ a b, b ∈ succ a → b ∈ all) (hstart : start ∈ all) {fuel : ℕ}
    (hfuel : all.length ≤ fuel) :
    finds succ goal fuel [start] [start] = true ↔ ReflTransGen (Succ succ) start goal := by
  refine finds_of_finding all hall Finding.init ?_ ?_
  · intro y hy
    rw [List.mem_singleton.mp hy]
    exact hstart
  · simp only [List.length_singleton]
    omega

/-! ## Cycles, depth first -/

/-- Where an element is in a depth-first walk. -/
inductive Mark where
  | opened
  | done
  deriving DecidableEq

/-- A depth-first walk: the cycles met so far, the marks, and the stack, its top last. -/
structure Walking (α : Type) where
  cycles : List (List α)
  mark : α → Option Mark
  stack : List α

namespace Walking

def init : Walking α := ⟨[], fun _ => none, []⟩

/-- Put `n` on the stack. -/
def enter (s : Walking α) (n : α) : Walking α :=
  { s with mark := Function.update s.mark n (some .opened), stack := s.stack ++ [n] }

/-- Take `n` from the top of the stack. -/
def leave (s : Walking α) (n : α) : Walking α :=
  { s with mark := Function.update s.mark n (some .done), stack := s.stack.dropLast }

/-- The cycle that `m` closes: the stack from `m` on, and `m` again. -/
def report (s : Walking α) (m : α) : Walking α :=
  { s with cycles := s.cycles ++ [s.stack.drop (s.stack.idxOf m) ++ [m]] }

/-- Look at one successor: one still open closes a cycle, one not seen is visited. -/
def look (visit : α → Walking α → Option (Walking α)) (s : Walking α) (m : α) : Option (Walking α) :=
  match s.mark m with
  | some .opened => some (s.report m)
  | some .done => some s
  | none => visit m s

/-- Look at an element the walk may start from. -/
def beginAt (visit : α → Walking α → Option (Walking α)) (s : Walking α) (n : α) : Option (Walking α) :=
  match s.mark n with
  | some _ => some s
  | none => visit n s

end Walking

/-- Visit `n`: look at its successors one after another while it is open. -/
def visit (succ : α → List α) : ℕ → α → Walking α → Option (Walking α)
  | 0, _, _ => none
  | fuel + 1, n, s =>
    ((succ n).foldlM (Walking.look (visit succ fuel)) (s.enter n)).map (·.leave n)

/-- The cycles a walk from each of `starts` meets; none when it ran out of fuel. -/
def findCycles (succ : α → List α) (fuel : ℕ) (starts : List α) : Option (List (List α)) :=
  (starts.foldlM (Walking.beginAt (visit succ fuel)) Walking.init).map (·.cycles)

namespace Walking

variable {s s' s'' : Walking α} {n m x : α}

theorem enter_mark_self (s : Walking α) (n : α) : (s.enter n).mark n = some .opened := by
  simp [enter]

theorem enter_mark_of_ne (s : Walking α) (h : x ≠ n) : (s.enter n).mark x = s.mark x := by
  simp [enter, h]

theorem leave_mark_self (s : Walking α) (n : α) : (s.leave n).mark n = some .done := by
  simp [leave]

theorem leave_mark_of_ne (s : Walking α) (h : x ≠ n) : (s.leave n).mark x = s.mark x := by
  simp [leave, h]

/-- What is done leads to what is done, and lies on no cycle. -/
structure Sound (succ : α → List α) (s : Walking α) : Prop where
  closed : ∀ x, s.mark x = some .done → ∀ y ∈ succ x, s.mark y = some .done
  acyclic : ∀ x, s.mark x = some .done → ¬ TransGen (Succ succ) x x

/-- What a finished stretch of a walk leaves behind: the same elements are open, what was
    done is done, no report is taken back, and a stretch without a report is sound. -/
structure Extends (succ : α → List α) (s s' : Walking α) : Prop where
  opened : ∀ x, s'.mark x = some .opened ↔ s.mark x = some .opened
  done : ∀ x, s.mark x = some .done → s'.mark x = some .done
  clear : s'.cycles = [] → s.cycles = []
  sound : s'.cycles = [] → Sound succ s → Sound succ s'

omit [DecidableEq α] in
theorem Extends.refl (s : Walking α) : Extends succ s s :=
  ⟨fun _ => Iff.rfl, fun _ => id, id, fun _ => id⟩

omit [DecidableEq α] in
theorem Extends.trans (h : Extends succ s s') (h' : Extends succ s' s'') : Extends succ s s'' where
  opened x := (h'.opened x).trans (h.opened x)
  done x hx := h'.done x (h.done x hx)
  clear hc := h.clear (h'.clear hc)
  sound hc hs := h'.sound hc (h.sound (h'.clear hc) hs)

/-- The elements not seen yet. -/
def unseen (all : Finset α) (s : Walking α) : Finset α := all.filter fun x => s.mark x = none

omit [DecidableEq α] in
theorem Extends.unseen_subset (h : Extends succ s s') (all : Finset α) : unseen all s' ⊆ unseen all s := by
  intro x hx
  rw [unseen, Finset.mem_filter] at hx ⊢
  refine ⟨hx.1, ?_⟩
  cases hmark : s.mark x with
  | none => rfl
  | some mark =>
    have hseen : s'.mark x ≠ none := by
      cases mark with
      | opened => simp [(h.opened x).mpr hmark]
      | done => simp [h.done x hmark]
    exact absurd hx.2 hseen

theorem unseen_enter_lt {all : Finset α} (hn : n ∈ all) (hnew : s.mark n = none) :
    (unseen all (s.enter n)).card < (unseen all s).card := by
  apply Finset.card_lt_card
  rw [Finset.ssubset_iff_of_subset]
  · refine ⟨n, by simp [unseen, hn, hnew], by simp [unseen, enter_mark_self]⟩
  · intro x hx
    rw [unseen, Finset.mem_filter] at hx ⊢
    have hne : x ≠ n := by
      rintro rfl
      rw [enter_mark_self] at hx
      cases hx.2
    rw [enter_mark_of_ne s hne] at hx
    exact hx

end Walking

open Walking

variable {s : Walking α} {n : α} {fuel : ℕ} {all : Finset α}

/-- What is known of a visit of `n`: it ends, `n` is done, and in an acyclic graph it
    reports nothing when every open element leads to `n`. -/
def VisitSpec (succ : α → List α) (all : Finset α) (fuel : ℕ) : Prop :=
  ∀ (n : α) (s : Walking α), s.mark n = none → n ∈ all → (unseen all s).card ≤ fuel →
    ∃ s', visit succ fuel n s = some s' ∧ Extends succ s s' ∧ s'.mark n = some .done ∧
      (Acyclic (Succ succ) → (∀ x, s.mark x = some .opened → TransGen (Succ succ) x n) →
        s.cycles = [] → s'.cycles = [])

/-- **The successors of an open element.** After a look at each of them without a report
    all of them are done. -/
theorem look_spec (hall : ∀ a b, b ∈ succ a → b ∈ all) (hvisit : VisitSpec succ all fuel)
    {ms : List α} (hms : ms ⊆ succ n) (hcard : (unseen all s).card ≤ fuel) :
    ∃ s', ms.foldlM (look (visit succ fuel)) s = some s' ∧ Extends succ s s' ∧
      (s'.cycles = [] → ∀ m ∈ ms, s'.mark m = some .done) ∧
      (Acyclic (Succ succ) → (∀ x, s.mark x = some .opened → ReflTransGen (Succ succ) x n) →
        s.cycles = [] → s'.cycles = []) := by
  induction ms generalizing s with
  | nil => exact ⟨s, rfl, Extends.refl s, fun _ _ h => absurd h List.not_mem_nil, fun _ _ => id⟩
  | cons m ms ih =>
    have hm : m ∈ succ n := hms List.mem_cons_self
    have hrest : ms ⊆ succ n := fun y hy => hms (List.mem_cons_of_mem _ hy)
    -- what one look does
    obtain ⟨s₁, hlook, hext, hdone, hquiet⟩ : ∃ s₁, look (visit succ fuel) s m = some s₁ ∧
        Extends succ s s₁ ∧ (s₁.cycles = [] → s₁.mark m = some .done) ∧
        (Acyclic (Succ succ) → (∀ x, s.mark x = some .opened → ReflTransGen (Succ succ) x n) →
          s.cycles = [] → s₁.cycles = []) := by
      unfold look
      cases hmark : s.mark m with
      | none =>
        obtain ⟨s₁, hs₁, hext, hdone, hquiet⟩ := hvisit m s hmark (hall _ _ hm) hcard
        refine ⟨s₁, hs₁, hext, fun _ => hdone, fun hacyclic hopen => ?_⟩
        exact hquiet hacyclic fun x hx => TransGen.tail' (hopen x hx) hm
      | some mark =>
        cases mark with
        | done => exact ⟨s, rfl, Extends.refl s, fun _ => hmark, fun _ _ => id⟩
        | opened =>
          have hreport : (s.report m).cycles ≠ [] := by
            simp [report]
          refine ⟨s.report m, rfl, ⟨fun _ => Iff.rfl, fun _ => id, fun h => absurd h hreport,
            fun h => absurd h hreport⟩, fun h => absurd h hreport, fun hacyclic hopen _ => ?_⟩
          -- an open successor leads back to `n`
          exact absurd (TransGen.tail' (hopen m hmark) hm) (hacyclic m)
    have hcard₁ : (unseen all s₁).card ≤ fuel :=
      le_trans (Finset.card_le_card (hext.unseen_subset all)) hcard
    obtain ⟨s₂, hs₂, hext₂, hdone₂, hquiet₂⟩ := ih hrest hcard₁
    refine ⟨s₂, ?_, hext.trans hext₂, ?_, ?_⟩
    · rw [List.foldlM_cons, hlook]
      exact hs₂
    · intro hclear y hy
      rcases List.mem_cons.mp hy with rfl | hy
      · exact hext₂.done _ (hdone (hext₂.clear hclear))
      · exact hdone₂ hclear y hy
    · intro hacyclic hopen hclear
      exact hquiet₂ hacyclic (fun x hx => hopen x ((hext.opened x).mp hx)) (hquiet hacyclic hopen hclear)

/-- **One visit.** -/
theorem visit_spec (hall : ∀ a b, b ∈ succ a → b ∈ all) : VisitSpec succ all fuel := by
  induction fuel with
  | zero =>
    intro n s hnew hn hcard
    have hmem : n ∈ unseen all s := by simp [unseen, hn, hnew]
    have := Finset.card_pos.mpr ⟨n, hmem⟩
    omega
  | succ fuel ih =>
    intro n s hnew hn hcard
    have hcard₁ : (unseen all (s.enter n)).card ≤ fuel := by
      have := unseen_enter_lt hn hnew
      omega
    obtain ⟨s₁, hs₁, hext, hdone, hquiet⟩ := look_spec hall ih (List.Subset.refl (succ n)) hcard₁
    have hnot : s₁.mark n = some .opened := (hext.opened n).mpr (enter_mark_self s n)
    refine ⟨s₁.leave n, by rw [visit, hs₁]; rfl, ⟨?_, ?_, ?_, ?_⟩, leave_mark_self s₁ n, ?_⟩
    · intro x
      by_cases hx : x = n
      · subst hx
        simp [leave_mark_self, hnew]
      · rw [leave_mark_of_ne s₁ hx, hext.opened, enter_mark_of_ne s hx]
    · intro x hmark
      by_cases hx : x = n
      · subst hx
        exact leave_mark_self s₁ x
      · rw [leave_mark_of_ne s₁ hx]
        exact hext.done x (by rwa [enter_mark_of_ne s hx])
    · exact hext.clear
    · intro hclear hsound
      have henter : Sound succ (s.enter n) := by
        have hstays : ∀ x, s.mark x = some .done → (s.enter n).mark x = some .done := by
          intro x hx
          rwa [enter_mark_of_ne s (by rintro rfl; rw [hnew] at hx; cases hx)]
        have hwas : ∀ x, (s.enter n).mark x = some .done → s.mark x = some .done := by
          intro x hx
          rwa [enter_mark_of_ne s (by rintro rfl; rw [enter_mark_self] at hx; cases hx)] at hx
        exact ⟨fun x hx y hy => hstays y (hsound.closed x (hwas x hx) y hy),
          fun x hx => hsound.acyclic x (hwas x hx)⟩
      have hbefore := hext.sound hclear henter
      have hsuccs := hdone hclear
      -- `n` is done when all its successors are, and none of them leads back to it
      have hback : ∀ y, s₁.mark y = some .done → ∀ z, ReflTransGen (Succ succ) y z → s₁.mark z = some .done := by
        intro y hy z hz
        induction hz with
        | refl => exact hy
        | tail _ hab ih => exact hbefore.closed _ ih _ hab
      refine ⟨?_, ?_⟩
      · intro x hx y hy
        have hydone : s₁.mark y = some .done := by
          by_cases hxn : x = n
          · subst hxn
            exact hsuccs y hy
          · rw [leave_mark_of_ne s₁ hxn] at hx
            exact hbefore.closed x hx y hy
        rw [leave_mark_of_ne s₁ (by rintro rfl; rw [hnot] at hydone; cases hydone)]
        exact hydone
      · intro x hx hcycle
        by_cases hxn : x = n
        · subst hxn
          obtain ⟨y, hy, hyx⟩ := TransGen.head'_iff.mp hcycle
          have := hback y (hsuccs y hy) x hyx
          rw [hnot] at this
          cases this
        · rw [leave_mark_of_ne s₁ hxn] at hx
          exact hbefore.acyclic x hx hcycle
    · intro hacyclic hopen hclear
      refine hquiet hacyclic (fun x hx => ?_) hclear
      by_cases hxn : x = n
      · rw [hxn]
      · rw [enter_mark_of_ne s hxn] at hx
        exact (hopen x hx).to_reflTransGen

variable {starts : List α}

theorem beginAt_spec (hall : ∀ a b, b ∈ succ a → b ∈ all) (hstarts : ∀ n ∈ starts, n ∈ all)
    (hcard : (unseen all s).card ≤ fuel) (hclosed : ∀ x, s.mark x ≠ some .opened) :
    ∃ s', starts.foldlM (beginAt (visit succ fuel)) s = some s' ∧ Extends succ s s' ∧
      (∀ n ∈ starts, s'.mark n = some .done) ∧ (Acyclic (Succ succ) → s.cycles = [] → s'.cycles = []) := by
  induction starts generalizing s with
  | nil => exact ⟨s, rfl, Extends.refl s, fun _ h => absurd h List.not_mem_nil, fun _ => id⟩
  | cons n starts ih =>
    obtain ⟨s₁, hbegin, hext, hdone, hquiet⟩ : ∃ s₁, beginAt (visit succ fuel) s n = some s₁ ∧
        Extends succ s s₁ ∧ s₁.mark n = some .done ∧
        (Acyclic (Succ succ) → s.cycles = [] → s₁.cycles = []) := by
      unfold beginAt
      cases hmark : s.mark n with
      | none =>
        obtain ⟨s₁, hs₁, hext, hdone, hquiet⟩ :=
          visit_spec hall n s hmark (hstarts n List.mem_cons_self) hcard
        exact ⟨s₁, hs₁, hext, hdone, fun h => hquiet h fun x hx => absurd hx (hclosed x)⟩
      | some mark =>
        cases mark with
        | done => exact ⟨s, rfl, Extends.refl s, hmark, fun _ => id⟩
        | opened => exact absurd hmark (hclosed n)
    have hcard₁ : (unseen all s₁).card ≤ fuel :=
      le_trans (Finset.card_le_card (hext.unseen_subset all)) hcard
    obtain ⟨s₂, hs₂, hext₂, hdone₂, hquiet₂⟩ := ih (fun m hm => hstarts m (List.mem_cons_of_mem _ hm)) hcard₁
      fun x hx => hclosed x ((hext.opened x).mp hx)
    refine ⟨s₂, ?_, hext.trans hext₂, ?_, fun h hclear => hquiet₂ h (hquiet h hclear)⟩
    · rw [List.foldlM_cons, hbegin]
      exact hs₂
    · intro m hm
      rcases List.mem_cons.mp hm with rfl | hm
      · exact hext₂.done _ hdone
      · exact hdone₂ m hm

/-- **The depth-first search for cycles ends**, given fuel for each element there is, and
    finds none exactly when the graph is acyclic. Every element with a successor is among
    the starts. -/
theorem findCycles_spec (all : Finset α) (hall : ∀ a b, b ∈ succ a → b ∈ all) (hstarts : ∀ n ∈ starts, n ∈ all)
    (hcover : ∀ a b, b ∈ succ a → a ∈ starts) (hfuel : all.card ≤ fuel) :
    ∃ cycles, findCycles succ fuel starts = some cycles ∧ (cycles = [] ↔ Acyclic (Succ succ)) := by
  have hcard : (unseen all (init : Walking α)).card ≤ fuel :=
    le_trans (Finset.card_le_card (Finset.filter_subset _ _)) hfuel
  obtain ⟨s', hs', hext, hdone, hquiet⟩ := beginAt_spec hall hstarts hcard (s := init) (by simp [init])
  refine ⟨s'.cycles, by rw [findCycles, hs']; rfl, fun hclear => ?_, fun h => hquiet h rfl⟩
  have hsound : Sound succ s' := hext.sound hclear ⟨by simp [init], by simp [init]⟩
  intro x hx
  obtain ⟨y, hy, -⟩ := TransGen.head'_iff.mp hx
  exact hsound.acyclic x (hdone x (hcover x y hy)) hx

end Relational
