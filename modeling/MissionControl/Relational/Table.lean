import Mathlib

/-! # Tables with a primary key

A table is a list of rows in insertion order no two of which share a key. The
constraint is a field, so an update cannot break it and a lookup by key is the
row, not a row.

Two writes are enough for the transactions modelled on top: adding a row with a
new key, and rewriting rows in place without touching their keys. -/

namespace Relational

/-- Rows keyed by `key`, no two with the same key. -/
structure Table (ρ κ : Type) (key : ρ → κ) where
  rows : List ρ
  nodup : (rows.map key).Nodup

namespace Table

variable {ρ κ : Type} {key : ρ → κ}

/-- The table without rows. -/
def empty : Table ρ κ key := ⟨[], List.nodup_nil⟩

instance : Membership ρ (Table ρ κ key) := ⟨fun t r => r ∈ t.rows⟩

variable {r : ρ} {t : Table ρ κ key}

@[simp] theorem mem_rows : r ∈ t.rows ↔ r ∈ t := Iff.rfl

@[simp] theorem not_mem_empty (r : ρ) : r ∉ (empty : Table ρ κ key) := by
  intro h
  cases h

variable {r' : ρ}

theorem eq_of_key (hr : r ∈ t) (hr' : r' ∈ t) (h : key r = key r') : r = r' :=
  List.inj_on_of_nodup_map t.nodup hr hr' h

/-- Rewrite every row in place. Rows keep their keys. -/
def modify (t : Table ρ κ key) (f : ρ → ρ) (hf : ∀ r, key (f r) = key r) : Table ρ κ key where
  rows := t.rows.map f
  nodup := by
    rw [List.map_map]
    have : key ∘ f = key := funext hf
    rw [this]
    exact t.nodup

variable {f : ρ → ρ}

@[simp] theorem mem_modify (hf : ∀ r, key (f r) = key r) : r ∈ t.modify f hf ↔ ∃ r₀ ∈ t, f r₀ = r :=
  List.mem_map

variable [DecidableEq κ]

/-- The row with the key `k`. -/
def find? (t : Table ρ κ key) (k : κ) : Option ρ :=
  t.rows.find? fun r => key r = k

variable {k : κ}

theorem find?_eq_some : t.find? k = some r ↔ r ∈ t ∧ key r = k := by
  constructor
  · intro h
    exact ⟨List.mem_of_find?_eq_some h, by simpa using List.find?_some h⟩
  · rintro ⟨hr, rfl⟩
    cases h : t.find? (key r) with
    | none =>
      have := List.find?_eq_none.mp h r hr
      simp at this
    | some r' =>
      have hr' : r' ∈ t := List.mem_of_find?_eq_some h
      have hk : key r' = key r := by simpa using List.find?_some h
      rw [eq_of_key hr' hr hk]

theorem find?_eq_none : t.find? k = none ↔ ∀ r ∈ t, key r ≠ k := by
  unfold find?
  rw [List.find?_eq_none]
  simp

theorem find?_key (hr : r ∈ t) : t.find? (key r) = some r :=
  find?_eq_some.mpr ⟨hr, rfl⟩

theorem mem_of_find? (h : t.find? k = some r) : r ∈ t :=
  (find?_eq_some.mp h).1

theorem key_of_find? (h : t.find? k = some r) : key r = k :=
  (find?_eq_some.mp h).2

omit [DecidableEq κ] in
theorem rows_filter_eq_singleton (hr : r ∈ t) {p : ρ → Bool} (hp : p r = true)
    (hkey : ∀ r' ∈ t, p r' = true → key r' = key r) : t.rows.filter p = [r] := by
  have hall : ∀ r' ∈ t.rows.filter p, r' = r := by
    intro r' hr'
    obtain ⟨hmem, hp'⟩ := List.mem_filter.mp hr'
    exact eq_of_key hmem hr (hkey r' hmem hp')
  have hnodup : (t.rows.filter p).Nodup := (List.Nodup.of_map key t.nodup).filter p
  have hmem : r ∈ t.rows.filter p := List.mem_filter.mpr ⟨hr, hp⟩
  refine List.perm_singleton.mp ((List.perm_ext_iff_of_nodup hnodup (List.nodup_singleton r)).mpr fun r' => ?_)
  rw [List.mem_singleton]
  exact ⟨hall r', fun h => h ▸ hmem⟩

@[simp] theorem find?_empty (k : κ) : (empty : Table ρ κ key).find? k = none := rfl

theorem find?_modify (t : Table ρ κ key) (f : ρ → ρ) (hf : ∀ r, key (f r) = key r) (k : κ) :
    (t.modify f hf).find? k = (t.find? k).map f := by
  unfold find? modify
  rw [List.find?_map]
  congr 2
  funext r
  simp [hf]

/-- Add a row whose key is new. -/
def insert (t : Table ρ κ key) (r : ρ) (h : t.find? (key r) = none) : Table ρ κ key where
  rows := t.rows ++ [r]
  nodup := by
    rw [List.map_append, List.map_singleton]
    refine List.nodup_append.mpr ⟨t.nodup, List.nodup_singleton _, ?_⟩
    intro k hk k' hk'
    obtain ⟨r₀, hr₀, rfl⟩ := List.mem_map.mp hk
    rw [List.mem_singleton] at hk'
    rw [hk']
    exact find?_eq_none.mp h r₀ hr₀

variable {h : t.find? (key r) = none}

@[simp] theorem mem_insert : r' ∈ t.insert r h ↔ r' ∈ t ∨ r' = r := by
  show r' ∈ t.rows ++ [r] ↔ _
  simp

theorem find?_insert : (t.insert r h).find? k = if key r = k then some r else t.find? k := by
  split
  · rename_i hk
    exact find?_eq_some.mpr ⟨mem_insert.mpr (.inr rfl), hk⟩
  · rename_i hk
    show (t.rows ++ [r]).find? _ = _
    rw [List.find?_append]
    simp [find?, hk]

/-- Rewrite the row with the key `k`. -/
def update (t : Table ρ κ key) (k : κ) (f : ρ → ρ) (hf : ∀ r, key (f r) = key r) : Table ρ κ key :=
  t.modify (fun r => if key r = k then f r else r) fun r => by
    split
    · exact hf r
    · rfl

theorem mem_update (hf : ∀ r, key (f r) = key r) :
    r ∈ t.update k f hf ↔ (∃ r₀ ∈ t, key r₀ = k ∧ f r₀ = r) ∨ (r ∈ t ∧ key r ≠ k) := by
  unfold update
  rw [mem_modify]
  constructor
  · rintro ⟨r₀, hr₀, rfl⟩
    by_cases hk : key r₀ = k
    · exact .inl ⟨r₀, hr₀, hk, by simp [hk]⟩
    · exact .inr (by simpa [hk] using hr₀)
  · rintro (⟨r₀, hr₀, hk, rfl⟩ | ⟨hr, hk⟩)
    · exact ⟨r₀, hr₀, by simp [hk]⟩
    · exact ⟨r, hr, by simp [hk]⟩

variable {k' : κ}

theorem find?_update (hf : ∀ r, key (f r) = key r) :
    (t.update k f hf).find? k' = if k' = k then (t.find? k').map f else t.find? k' := by
  unfold update
  rw [find?_modify]
  cases h : t.find? k' with
  | none => simp
  | some r =>
    have hk := key_of_find? h
    subst hk
    split <;> rename_i hk <;> simp [hk]

theorem find?_update_row (hf : ∀ r, key (f r) = key r) (h : t.find? k = some r) :
    (t.update k f hf).find? k' = if key (f r) = k' then some (f r) else t.find? k' := by
  have hk : key (f r) = k := (hf r).trans (key_of_find? h)
  rw [find?_update, hk]
  by_cases hk' : k' = k
  · rw [if_pos hk', if_pos hk'.symm, hk', h]
    rfl
  · rw [if_neg hk', if_neg (Ne.symm hk')]

/-- Write a row: in the place of the one with its key, or as a new one. -/
def put (t : Table ρ κ key) (r : ρ) : Table ρ κ key :=
  if h : t.find? (key r) = none then t.insert r h
  else t.modify (fun r' => if key r' = key r then r else r') fun r' => by
    split
    · rename_i hk
      exact hk.symm
    · rfl

theorem find?_put : (t.put r).find? k = if key r = k then some r else t.find? k := by
  unfold put
  split
  · exact find?_insert
  · rename_i h
    rw [find?_modify]
    by_cases hk : key r = k
    · rw [if_pos hk]
      obtain ⟨r', hr'⟩ := Option.ne_none_iff_exists'.mp h
      rw [← hk, hr', Option.map_some, if_pos (key_of_find? hr')]
    · rw [if_neg hk]
      cases hf : t.find? k with
      | none => rfl
      | some r' =>
        rw [Option.map_some, if_neg]
        rw [key_of_find? hf]
        exact Ne.symm hk

theorem mem_put : r' ∈ t.put r ↔ r' = r ∨ r' ∈ t ∧ key r' ≠ key r := by
  constructor
  · intro hr'
    have hfind := find?_key hr'
    rw [find?_put] at hfind
    split at hfind
    · exact .inl (Option.some.inj hfind).symm
    · rename_i hk
      exact .inr ⟨mem_of_find? hfind, Ne.symm hk⟩
  · rintro (rfl | ⟨hr', hk⟩)
    · exact mem_of_find? (find?_put.trans (if_pos rfl))
    · refine mem_of_find? (k := key r') (find?_put.trans ?_)
      rw [if_neg (Ne.symm hk)]
      exact find?_key hr'

/-- Remove the row with the key `k`. -/
def delete (t : Table ρ κ key) (k : κ) : Table ρ κ key where
  rows := t.rows.filter fun r => key r ≠ k
  nodup := t.nodup.sublist (List.filter_sublist.map key)

theorem mem_delete : r ∈ t.delete k ↔ r ∈ t ∧ key r ≠ k := by
  show r ∈ t.rows.filter (fun r => key r ≠ k) ↔ _
  rw [List.mem_filter, mem_rows, decide_eq_true_eq]

theorem find?_delete : (t.delete k).find? k' = if k' = k then none else t.find? k' := by
  split
  · rename_i hk
    refine find?_eq_none.mpr fun r hr hkey => ?_
    exact (mem_delete.mp hr).2 (hkey.trans hk)
  · rename_i hk
    cases h : t.find? k' with
    | none =>
      refine find?_eq_none.mpr fun r hr => ?_
      exact find?_eq_none.mp h r (mem_delete.mp hr).1
    | some r =>
      obtain ⟨hr, hkey⟩ := find?_eq_some.mp h
      exact find?_eq_some.mpr ⟨mem_delete.mpr ⟨hr, by rwa [hkey]⟩, hkey⟩

/-- Keep the rows that meet a condition. -/
def filter (t : Table ρ κ key) (p : ρ → Bool) : Table ρ κ key where
  rows := t.rows.filter p
  nodup := t.nodup.sublist (List.filter_sublist.map key)

omit [DecidableEq κ] in
theorem mem_filter {p : ρ → Bool} : r ∈ t.filter p ↔ r ∈ t ∧ p r = true := by
  show r ∈ t.rows.filter p ↔ _
  rw [List.mem_filter, mem_rows]

/-! ## Totals

The sum of a number over all rows, and how the writes change it. -/

omit [DecidableEq κ] in
theorem sum_le_sum {l : List ρ} {f g : ρ → Nat} (h : ∀ r ∈ l, f r ≤ g r) : (l.map f).sum ≤ (l.map g).sum := by
  induction l with
  | nil => exact Nat.le_refl _
  | cons r l ih =>
    simp only [List.map_cons, List.sum_cons]
    exact Nat.add_le_add (h r List.mem_cons_self) (ih fun r hr => h r (List.mem_cons_of_mem _ hr))

def total (t : Table ρ κ key) (f : ρ → Nat) : Nat := (t.rows.map f).sum

section
omit [DecidableEq κ]

theorem sum_filter (t : Table ρ κ key) (p : ρ → Bool) (f : ρ → Nat) :
    ((t.rows.filter p).map f).sum = t.total fun r => if p r then f r else 0 := by
  unfold total
  induction t.rows with
  | nil => rfl
  | cons r rows ih =>
    by_cases hp : p r
    · simp [hp, ih]
    · simp [hp, ih]

theorem total_le {f g : ρ → Nat} (h : ∀ r ∈ t, f r ≤ g r) : t.total f ≤ t.total g := sum_le_sum h

theorem total_modify_le {m : ρ → ρ} (hm : ∀ r, key (m r) = key r) {f : ρ → Nat} (h : ∀ r ∈ t, f (m r) ≤ f r) :
    (t.modify m hm).total f ≤ t.total f := by
  unfold total modify
  rw [List.map_map]
  exact sum_le_sum h

end

theorem total_update_le {m : ρ → ρ} (hm : ∀ r, key (m r) = key r) {f : ρ → Nat}
    (h : ∀ r ∈ t, key r = k → f (m r) ≤ f r) : (t.update k m hm).total f ≤ t.total f := by
  refine total_modify_le _ fun r hr => ?_
  split
  · rename_i hk
    exact h r hr hk
  · exact Nat.le_refl _

theorem total_insert (f : ρ → Nat) : (t.insert r h).total f = t.total f + f r := by
  simp [total, insert]

end Table

end Relational

/-! # Sums over tables

Sums over the rows of a table that meet a condition, and over the rows of one table that refer to
the rows of another: summing by row is the same as summing by the row it refers to. -/

namespace Relational

variable {ρ κ υ M : Type} {key : ρ → κ} [AddCommMonoid M]

theorem sum_map_filter (l : List υ) (p : υ → Bool) (f : υ → M) :
    ((l.filter p).map f).sum = (l.map fun u => if p u then f u else 0).sum := by
  induction l with
  | nil => rfl
  | cons u l ih =>
    by_cases hp : p u
    · simp [hp, ih]
    · simp [hp, ih]

theorem sum_map_filter_not (l : List υ) (p : υ → Bool) (f : υ → M) :
    (l.map f).sum = ((l.filter p).map f).sum + ((l.filter fun u => !p u).map f).sum := by
  rw [sum_map_filter, sum_map_filter, ← List.sum_map_add]
  refine congrArg List.sum (List.map_congr_left fun u _ => ?_)
  cases p u <;> simp

theorem sum_map_congr {l : List υ} {f g : υ → M} (h : ∀ u ∈ l, f u = g u) : (l.map f).sum = (l.map g).sum :=
  congrArg List.sum (List.map_congr_left h)

theorem sum_map_zero {l : List υ} {f : υ → M} (h : ∀ u ∈ l, f u = 0) : (l.map f).sum = 0 := by
  rw [sum_map_congr h]
  induction l with
  | nil => rfl
  | cons u l ih => rw [List.map_cons, List.sum_cons, zero_add, ih fun u hu => h u (List.mem_cons_of_mem _ hu)]

namespace Table

variable [DecidableEq κ]

theorem sum_map_key {l : List ρ} (hnodup : (l.map key).Nodup) {k : κ} (hk : k ∈ l.map key) (a : M) :
    (l.map fun r => if k = key r then a else 0).sum = a := by
  induction l with
  | nil => cases hk
  | cons r l ih =>
    rw [List.map_cons, List.nodup_cons] at hnodup
    rw [List.map_cons, List.sum_cons]
    by_cases hr : k = key r
    · have hrest : ∀ r' ∈ l, (if k = key r' then a else 0) = 0 := by
        intro r' hr'
        refine if_neg fun heq => hnodup.1 ?_
        rw [← hr, heq]
        exact List.mem_map_of_mem hr'
      rw [if_pos hr, sum_map_zero hrest, add_zero]
    · rw [if_neg hr, zero_add]
      refine ih hnodup.2 ?_
      rcases List.mem_cons.mp hk with heq | hk
      · exact absurd heq hr
      · exact hk

/-- **Summing by row, or by the row it refers to.** -/
theorem sum_join (t : Table ρ κ key) {l : List υ} {fk : υ → κ} (h : ∀ u ∈ l, ∃ r ∈ t, key r = fk u) (f : υ → M) :
    (l.map f).sum = (t.rows.map fun r => ((l.filter fun u => fk u = key r).map f).sum).sum := by
  induction l with
  | nil =>
    refine (sum_map_zero fun r _ => ?_).symm
    rfl
  | cons u l ih =>
    obtain ⟨r₀, hr₀, hkey⟩ := h u List.mem_cons_self
    have hmem : fk u ∈ t.rows.map key := by
      rw [← hkey]
      exact List.mem_map_of_mem hr₀
    have hone := sum_map_key t.nodup hmem (f u)
    rw [List.map_cons, List.sum_cons, ih fun u hu => h u (List.mem_cons_of_mem _ hu)]
    rw [← hone, ← List.sum_map_add]
    refine sum_map_congr fun r _ => ?_
    by_cases hr : fk u = key r
    · simp [hr]
    · simp [hr]

theorem sum_filter_key {t : Table ρ κ key} {r : ρ} (hr : r ∈ t) (f : ρ → M) :
    ((t.rows.filter fun r' => key r' = key r).map f).sum = f r := by
  have hone := sum_map_key t.nodup (List.mem_map_of_mem (f := key) hr) (f r)
  rw [sum_map_filter, ← hone]
  refine sum_map_congr fun r' hr' => ?_
  by_cases hkey : key r' = key r
  · rw [eq_of_key hr' hr hkey]
    simp
  · simp [hkey, Ne.symm hkey]

end Table

end Relational
