import Mathlib.Data.List.Sort
import Mathlib.Data.List.Nodup

/-! # Newest-first listings

A bounded listing shows the newest rows of a table. Whether it shows a row is a matter of how many rows are
listed before it (`mem_take_recent`): those that are newer, and those of the same moment that the table holds
before it. -/

namespace Relational

variable {ρ τ : Type} {l rows : List ρ} {x r : ρ} {n : ℕ}

/-! ## Places in a list -/

theorem pair_sublist_append_iff {l₁ l₂ : List ρ} (hnodup : (l₁ ++ r :: l₂).Nodup) :
    [x, r].Sublist (l₁ ++ r :: l₂) ↔ x ∈ l₁ := by
  constructor
  · intro h
    have hr : r ∉ l₂ := (List.nodup_cons.mp (List.nodup_append.mp hnodup).2.1).1
    obtain ⟨a, b, hab, ha, hb⟩ := List.sublist_append_iff.mp h
    cases a with
    | cons y a =>
      rw [List.cons_append, List.cons.injEq] at hab
      rw [hab.1]
      exact ha.subset List.mem_cons_self
    | nil =>
      -- then `r` would be repeated
      rw [List.nil_append] at hab
      subst hab
      cases hb with
      | cons _ hb => exact absurd (hb.subset (by simp)) hr
      | cons_cons _ hb => exact absurd (hb.subset (by simp)) hr
  · intro hx
    show ([x] ++ [r]).Sublist _
    exact (List.singleton_sublist.mpr hx).append (List.singleton_sublist.mpr List.mem_cons_self)

theorem pair_sublist_total (hx : x ∈ l) (hr : r ∈ l) (hne : x ≠ r) : [x, r].Sublist l ∨ [r, x].Sublist l := by
  obtain ⟨l₁, l₂, rfl⟩ := List.append_of_mem hr
  rcases List.mem_append.mp hx with hx | hx
  · exact .inl ((List.singleton_sublist.mpr hx).append (List.singleton_sublist.mpr List.mem_cons_self))
  · rcases List.mem_cons.mp hx with rfl | hx
    · exact absurd rfl hne
    · exact .inr ((List.singleton_sublist.mpr hx).cons_cons r |>.trans (List.sublist_append_right ..))

theorem pair_sublist_antisymm (hnodup : l.Nodup) (h : [x, r].Sublist l) : ¬ [r, x].Sublist l := by
  intro h'
  obtain ⟨l₁, l₂, rfl⟩ := List.append_of_mem (h.subset (by simp) : r ∈ l)
  have hx : x ∈ l₁ := (pair_sublist_append_iff hnodup).mp h
  obtain ⟨l₃, l₄, rfl⟩ := List.append_of_mem hx
  have hr : r ∈ l₃ := by
    rw [List.append_assoc, List.cons_append] at h' hnodup
    exact (pair_sublist_append_iff hnodup).mp h'
  exact (List.nodup_append.mp hnodup).2.2 r (List.mem_append_left _ hr) r List.mem_cons_self rfl

/-- **A prefix** holds an entry exactly if fewer entries stand before it than the prefix is long. -/
theorem mem_take_iff [DecidableEq ρ] (hnodup : l.Nodup) (hr : r ∈ l) :
    r ∈ l.take n ↔ (l.filter fun x => [x, r].Sublist l).length < n := by
  obtain ⟨l₁, l₂, rfl⟩ := List.append_of_mem hr
  have hbefore : ((l₁ ++ r :: l₂).filter fun x => [x, r].Sublist (l₁ ++ r :: l₂)) = l₁ := by
    have hmem : ∀ x, decide ([x, r].Sublist (l₁ ++ r :: l₂)) = decide (x ∈ l₁) := fun x =>
      decide_eq_decide.mpr (pair_sublist_append_iff hnodup)
    rw [List.filter_congr fun x _ => hmem x, List.filter_append]
    have hdisjoint := (List.nodup_append.mp hnodup).2.2
    have hall : (l₁.filter fun x => x ∈ l₁) = l₁ := List.filter_eq_self.mpr fun x hx => decide_eq_true hx
    have hnone : ((r :: l₂).filter fun x => x ∈ l₁) = [] :=
      List.filter_eq_nil_iff.mpr fun x hx h => hdisjoint x (of_decide_eq_true h) x hx rfl
    rw [hall, hnone, List.append_nil]
  rw [hbefore, List.take_append, List.mem_append]
  constructor
  · rintro (h | h)
    · exact absurd (List.mem_of_mem_take h) fun hmem => (List.nodup_append.mp hnodup).2.2 r hmem r List.mem_cons_self rfl
    · refine Nat.lt_of_sub_pos (Nat.pos_of_ne_zero fun hzero => ?_)
      rw [hzero] at h
      cases h
  · intro hlt
    obtain ⟨k, hk⟩ := Nat.exists_eq_succ_of_ne_zero (Nat.sub_pos_of_lt hlt).ne'
    rw [hk, List.take_succ_cons]
    exact .inr List.mem_cons_self

/-! ## The listing -/

variable [LinearOrder τ] {time : ρ → τ}

/-- `ORDER BY time DESC`, where rows of one moment keep their order. -/
def recent (time : ρ → τ) (rows : List ρ) : List ρ := rows.insertionSort fun a b => time b ≤ time a

/-- `x` is listed before `r`: it is newer, or of the same moment and held before it. -/
def Precedes (time : ρ → τ) (rows : List ρ) (x r : ρ) : Prop :=
  time r < time x ∨ time x = time r ∧ [x, r].Sublist rows

instance [DecidableEq ρ] : Decidable (Precedes time rows x r) :=
  inferInstanceAs (Decidable (_ ∨ _))

theorem mem_recent : r ∈ recent time rows ↔ r ∈ rows := List.mem_insertionSort _

theorem recent_perm (time : ρ → τ) (rows : List ρ) : (recent time rows).Perm rows := List.perm_insertionSort ..

theorem pairwise_recent (time : ρ → τ) (rows : List ρ) : (recent time rows).Pairwise fun a b => time b ≤ time a := by
  have htotal : Std.Total fun a b : ρ => time b ≤ time a := ⟨fun a b => le_total _ _⟩
  have htrans : IsTrans ρ fun a b => time b ≤ time a := ⟨fun _ _ _ hab hbc => hbc.trans hab⟩
  exact List.pairwise_insertionSort _ _

theorem nodup_recent (hnodup : rows.Nodup) : (recent time rows).Nodup := (recent_perm time rows).nodup_iff.mpr hnodup

theorem filter_orderedInsert {p : ρ → Bool} {a : ρ} (hsorted : l.Pairwise fun a b => time b ≤ time a) :
    (l.orderedInsert (fun a b => time b ≤ time a) a).filter p =
      if p a then (l.filter p).orderedInsert (fun a b => time b ≤ time a) a else l.filter p := by
  induction l with
  | nil =>
    rw [List.orderedInsert_nil]
    cases hp : p a <;> simp [hp]
  | cons b l ih =>
    obtain ⟨hb, hl⟩ := List.pairwise_cons.mp hsorted
    rw [List.orderedInsert_cons]
    split
    · rename_i hle
      rw [List.filter_cons]
      split
      · -- every row that is selected goes after the new one
        have hafter : ∀ c ∈ (b :: l).filter p, time c ≤ time a := by
          intro c hc
          rcases List.mem_cons.mp (List.mem_of_mem_filter hc) with rfl | hc
          · exact hle
          · exact (hb c hc).trans hle
        cases hrest : (b :: l).filter p with
        | nil => rfl
        | cons c rest =>
          rw [List.orderedInsert_cons, if_pos (hafter c (by rw [hrest]; exact List.mem_cons_self))]
      · rfl
    · rename_i hle
      rw [List.filter_cons, ih hl]
      by_cases hpb : p b = true
      · rw [if_pos hpb, List.filter_cons_of_pos hpb]
        split
        · rw [List.orderedInsert_cons, if_neg hle]
        · rfl
      · rw [if_neg hpb, List.filter_cons_of_neg hpb]

theorem recent_filter (time : ρ → τ) (p : ρ → Bool) (rows : List ρ) :
    recent time (rows.filter p) = (recent time rows).filter p := by
  induction rows with
  | nil => rfl
  | cons a rows ih =>
    have hcons : recent time (a :: rows) = (recent time rows).orderedInsert (fun a b => time b ≤ time a) a := rfl
    rw [hcons, filter_orderedInsert (pairwise_recent time rows), ← ih, List.filter_cons]
    split <;> rfl

theorem pair_sublist_recent_iff (hnodup : rows.Nodup) (hx : x ∈ rows) (hr : r ∈ rows) :
    [x, r].Sublist (recent time rows) ↔ Precedes time rows x r := by
  have htotal : Std.Total fun a b : ρ => time b ≤ time a := ⟨fun a b => le_total _ _⟩
  have htrans : IsTrans ρ fun a b => time b ≤ time a := ⟨fun _ _ _ hab hbc => hbc.trans hab⟩
  have hkept : ∀ {x r : ρ}, time x = time r → [x, r].Sublist rows → [x, r].Sublist (recent time rows) :=
    fun heq h => List.pair_sublist_insertionSort (r := fun a b => time b ≤ time a) heq.ge h
  have hsorted : ∀ {x r : ρ}, [x, r].Sublist (recent time rows) → time r ≤ time x := by
    intro x r h
    have hpair : [x, r].Pairwise fun a b => time b ≤ time a := (pairwise_recent time rows).sublist h
    exact (List.pairwise_cons.mp hpair).1 r List.mem_cons_self
  constructor
  · intro h
    rcases (hsorted h).lt_or_eq with hlt | heq
    · exact .inl hlt
    · refine .inr ⟨heq.symm, ?_⟩
      have hne : x ≠ r := by
        rintro rfl
        exact absurd ((nodup_recent hnodup).sublist h) (by simp)
      rcases pair_sublist_total hx hr hne with hbefore | hafter
      · exact hbefore
      · exact absurd (hkept heq hafter) (pair_sublist_antisymm (nodup_recent hnodup) h)
  · rintro (hlt | ⟨heq, h⟩)
    · have hne : x ≠ r := fun h => hlt.ne (h ▸ rfl)
      rcases pair_sublist_total (l := recent time rows) (mem_recent.mpr hx) (mem_recent.mpr hr) hne with h | h
      · exact h
      · exact absurd (hsorted h) (not_le.mpr hlt)
    · exact hkept heq h

/-- **A bounded listing** shows a row exactly if fewer rows precede it than it has room for. -/
theorem mem_take_recent [DecidableEq ρ] (hnodup : rows.Nodup) (hr : r ∈ rows) :
    r ∈ (recent time rows).take n ↔ (rows.filter fun x => Precedes time rows x r).length < n := by
  rw [mem_take_iff (l := recent time rows) (nodup_recent hnodup) (mem_recent.mpr hr)]
  have hcongr : ((recent time rows).filter fun x => [x, r].Sublist (recent time rows)) =
      (recent time rows).filter fun x => Precedes time rows x r := by
    refine List.filter_congr fun x hx => ?_
    exact decide_eq_decide.mpr (pair_sublist_recent_iff hnodup (mem_recent.mp hx) hr)
  rw [hcongr, ((recent_perm time rows).filter _).length_eq]

end Relational
