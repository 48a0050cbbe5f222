import Mathlib.Data.List.Basic
import Mathlib.Order.Basic
import Mathlib.Order.Lattice

/-! # Validity windows

A row that is never deleted counts from the instant it was written until the instant it was
closed. Reading *as of* an instant sees the rows whose window holds it; the current view sees
the rows not closed yet. After the last write the two agree, and no later write changes what
is seen as of an earlier instant. -/

namespace Relational

/-- The window of one row: from the instant it was written, to the instant it was closed. -/
structure Window (τ : Type) where
  valid_from : τ
  valid_to : Option τ

namespace Window

variable {τ : Type} [LinearOrder τ] {w : Window τ} {now t : τ}

/-- The window holds the instant. -/
def HoldsAt (w : Window τ) (t : τ) : Prop := w.valid_from ≤ t ∧ ∀ u ∈ w.valid_to, t < u

/-- The row has not been closed. -/
def Current (w : Window τ) : Prop := w.valid_to = none

/-- Everything in the window was written by the instant. -/
structure WrittenBy (w : Window τ) (now : τ) : Prop where
  opened : w.valid_from ≤ now
  closed : ∀ u ∈ w.valid_to, u ≤ now

instance (w : Window τ) (t : τ) : Decidable (w.HoldsAt t) :=
  inferInstanceAs (Decidable (_ ∧ _))

instance (w : Window τ) : Decidable w.Current :=
  inferInstanceAs (Decidable (w.valid_to = none))

theorem WrittenBy.mono (h : w.WrittenBy now) (hle : now ≤ t) : w.WrittenBy t :=
  ⟨h.opened.trans hle, fun u hu => (h.closed u hu).trans hle⟩

/-- **From the last write on, the current view is the view as of now.** -/
theorem WrittenBy.holdsAt_iff (h : w.WrittenBy now) (hle : now ≤ t) : w.HoldsAt t ↔ w.Current := by
  constructor
  · intro hw
    cases hto : w.valid_to with
    | none => exact hto
    | some u =>
      have hlt : t < u := hw.2 u hto
      exact absurd (h.closed u hto) (not_le.mpr (hle.trans_lt hlt))
  · intro hw
    refine ⟨h.opened.trans hle, fun u hu => ?_⟩
    rw [show w.valid_to = none from hw] at hu
    cases hu

theorem not_holdsAt_of_lt (h : t < w.valid_from) : ¬ w.HoldsAt t :=
  fun hw => absurd hw.1 (not_le.mpr h)

theorem holdsAt_closed_iff (h : w.Current) (hlt : t < now) :
    Window.HoldsAt ⟨w.valid_from, some now⟩ t ↔ w.HoldsAt t := by
  refine and_congr_right fun _ => ?_
  rw [show w.valid_to = none from h]
  simp [hlt]

end Window

end Relational

/-! # Staggered spans

Half-open spans of a linear order in which each begins and ends after the one before (`Staggered`). What keeps any two
of them apart that are not neighbours is a condition on three at a time (`Loose`), and it is the same as at most two of
them at any point (`countP_holds_le_two_iff`). -/

namespace Spans

variable {α : Type*} [LinearOrder α]

/-- A point of a span. -/
def Holds (f : α) (span : α × α) : Prop := span.1 ≤ f ∧ f < span.2

instance (f : α) : DecidablePred (Holds f) := fun span => inferInstanceAs (Decidable (span.1 ≤ f ∧ f < span.2))

/-- No point is in both. -/
def Disjoint (p q : α × α) : Prop := ∀ f, ¬(Holds f p ∧ Holds f q)

/-- None is empty, and each begins and ends after those before. -/
structure Staggered (l : List (α × α)) : Prop where
  nonempty : ∀ p ∈ l, p.1 < p.2
  begins : l.Pairwise fun p q => p.1 < q.1
  ends : l.Pairwise fun p q => p.2 < q.2

/-- A span begins and ends before another does. -/
def Before (p q : α × α) : Prop := p.1 < q.1 ∧ p.2 < q.2

instance : Trans (@Before α _) Before Before where
  trans h h' := ⟨h.1.trans h'.1, h.2.trans h'.2⟩

/-- Each is over when the one after its neighbour begins. -/
def Loose (l : List (α × α)) : Prop := ∀ before p q r after, l = before ++ p :: q :: r :: after → p.2 ≤ r.1

/-- Any two that are not neighbours are disjoint. -/
def Apart (l : List (α × α)) : Prop :=
  ∀ before p q between r after, l = before ++ p :: q :: (between ++ r :: after) → Disjoint p r

variable {l before after : List (α × α)} {p q r : α × α} {f : α}

theorem Staggered.of_isChain (hne : ∀ p ∈ l, p.1 < p.2) (h : l.IsChain Before) : Staggered l := by
  have hpairs : l.Pairwise Before := List.isChain_iff_pairwise.mp h
  exact ⟨hne, hpairs.imp fun hpq => hpq.1, hpairs.imp fun hpq => hpq.2⟩

theorem Staggered.ends_le (h : Staggered l) (hlast : l.getLast? = some p) : ∀ q ∈ l, q.2 ≤ p.2 := by
  obtain ⟨before, rfl⟩ := List.getLast?_eq_some_iff.mp hlast
  intro q hq
  rcases List.mem_append.mp hq with hbefore | hp
  · exact ((List.pairwise_append.mp h.ends).2.2 q hbefore p (by simp)).le
  · obtain rfl : q = p := by simpa using hp
    exact le_refl _

theorem Staggered.of_append (h : Staggered (before ++ l)) : Staggered l where
  nonempty p hp := h.nonempty p (List.mem_append_right _ hp)
  begins := (List.pairwise_append.mp h.begins).2.1
  ends := (List.pairwise_append.mp h.ends).2.1

theorem Loose.le (hl : Staggered l) (h : Loose l) {between : List (α × α)}
    (heq : l = before ++ p :: q :: (between ++ r :: after)) : p.2 ≤ r.1 := by
  cases between with
  | nil => exact h before p q r after heq
  | cons s between =>
    -- the one right after the neighbour begins before the later ones do
    have hs : p.2 ≤ s.1 := h before p q s (between ++ r :: after) heq
    have hwhole : Staggered ((before ++ [p, q]) ++ s :: (between ++ r :: after)) := by
      simpa [heq] using hl
    have htail : Staggered (s :: (between ++ r :: after)) := hwhole.of_append
    have hsr : s.1 < r.1 := List.rel_of_pairwise_cons htail.begins (by simp)
    exact hs.trans hsr.le

theorem loose_of_length_le (h : l.length ≤ 2) : Loose l := by
  rintro before p q r after rfl
  simp at h
  omega

theorem loose_cons_cons_cons : Loose (p :: q :: r :: l) ↔ p.2 ≤ r.1 ∧ Loose (q :: r :: l) := by
  constructor
  · intro h
    refine ⟨h [] p q r l rfl, ?_⟩
    intro before x y z after heq
    exact h (p :: before) x y z after (congrArg (p :: ·) heq)
  · rintro ⟨hle, h⟩ before x y z after heq
    cases before with
    | nil =>
      obtain ⟨rfl, hrest⟩ := List.cons.inj heq
      obtain ⟨-, hrest⟩ := List.cons.inj hrest
      obtain ⟨rfl, -⟩ := List.cons.inj hrest
      exact hle
    | cons w before => exact h before x y z after (List.cons.inj heq).2

theorem apart_iff (hl : Staggered l) : Apart l ↔ Loose l := by
  constructor
  · intro h before p q r after heq
    by_contra hlt
    rw [not_le] at hlt
    have htail : Staggered (p :: q :: r :: after) := Staggered.of_append (heq ▸ hl)
    apply h before p q [] r after heq r.1
    refine ⟨⟨?_, hlt⟩, le_refl _, htail.nonempty r (by simp)⟩
    exact (List.rel_of_pairwise_cons htail.begins (by simp : r ∈ q :: r :: after)).le
  · intro h before p q between r after heq f hf
    obtain ⟨⟨-, hp⟩, hr, -⟩ := hf
    exact absurd (hp.trans_le ((h.le hl heq).trans hr)) (lt_irrefl _)

/-- **At most two at a time.** -/
theorem countP_holds_le_two_iff (hl : Staggered l) : (∀ f, l.countP (Holds f ·) ≤ 2) ↔ Loose l := by
  constructor
  · intro h before p q r after heq
    by_contra hlt
    rw [not_le] at hlt
    have htail : Staggered (p :: q :: r :: after) := Staggered.of_append (heq ▸ hl)
    have hpq : p.2 < q.2 := List.rel_of_pairwise_cons htail.ends (by simp)
    have hpr : p.1 < r.1 := List.rel_of_pairwise_cons htail.begins (by simp)
    have hqr : q.1 < r.1 := List.rel_of_pairwise_cons (List.pairwise_cons.mp htail.begins).2 (by simp)
    -- all three are there where the third begins
    have hp : Holds r.1 p := ⟨hpr.le, hlt⟩
    have hq : Holds r.1 q := ⟨hqr.le, hlt.trans hpq⟩
    have hr : Holds r.1 r := ⟨le_refl _, htail.nonempty r (by simp)⟩
    have hcount := h r.1
    rw [heq] at hcount
    simp [hp, hq, hr] at hcount
    omega
  · intro h f
    cases hfind : l.find? (Holds f ·) with
    | none =>
      rw [List.countP_eq_zero.mpr (by simpa using hfind)]
      omega
    | some p =>
      -- what comes before the first that holds the point does not, and neither does what comes after its neighbour
      obtain ⟨hp, before, after, rfl, hbefore⟩ := List.find?_eq_some_iff_append.mp hfind
      have hzero : before.countP (Holds f ·) = 0 := List.countP_eq_zero.mpr (by simpa using hbefore)
      cases after with
      | nil => simp [hzero, List.countP_cons]; split <;> omega
      | cons q after =>
        have hafter : after.countP (Holds f ·) = 0 := by
          apply List.countP_eq_zero.mpr
          intro r hr hf
          obtain ⟨between, after', rfl⟩ := List.append_of_mem hr
          have hle : p.2 ≤ r.1 := h.le hl rfl
          have hlt : f < p.2 := (of_decide_eq_true hp).2
          have hbegin : r.1 ≤ f := (of_decide_eq_true hf).1
          exact absurd (hlt.trans_le (hle.trans hbegin)) (lt_irrefl _)
        simp [hzero, hafter, List.countP_cons]
        split <;> split <;> omega

end Spans
