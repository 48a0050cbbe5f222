import Mathlib.Data.List.Nodup
import Mathlib.Data.List.Dedup

/-! # Dictionaries

A `dict` is a list of entries in the order in which their keys came, no key twice. A key that is written again keeps its
place. What is looked up in a dictionary that was written to (`get?_set`), updated (`get?_update`), filtered
(`get?_filterKeys`) or built from entries (`get?_ofList`) says all of it but the order. -/

namespace Python

/-- A `dict`. -/
structure Dict (κ ν : Type) where
  entries : List (κ × ν)
  nodup : (entries.map Prod.fst).Nodup

namespace Dict

variable {κ ν : Type} {d e : Dict κ ν} {k : κ} {v : ν}

/-- `{}` -/
def empty : Dict κ ν := ⟨[], List.nodup_nil⟩

def keys (d : Dict κ ν) : List κ := d.entries.map Prod.fst

/-- `len(d)` -/
def size (d : Dict κ ν) : ℕ := d.entries.length

theorem nodup_keys (d : Dict κ ν) : d.keys.Nodup := d.nodup

@[simp] theorem length_keys (d : Dict κ ν) : d.keys.length = d.size := List.length_map _

/-- `{k: v for k, v in d.items() if p(k)}` -/
def filterKeys (p : κ → Bool) (d : Dict κ ν) : Dict κ ν where
  entries := d.entries.filter fun entry => p entry.1
  nodup := (d.nodup.sublist (List.filter_sublist.map _))

variable [DecidableEq κ]

/-- `d.get(k)` -/
def get? (d : Dict κ ν) (k : κ) : Option ν := (d.entries.find? fun entry => entry.1 = k).map Prod.snd

theorem get?_eq_some : d.get? k = some v ↔ (k, v) ∈ d.entries := by
  unfold get?
  constructor
  · intro h
    obtain ⟨⟨k', v'⟩, hfind, rfl⟩ := Option.map_eq_some_iff.mp h
    have hk : k' = k := by simpa using List.find?_some hfind
    exact hk ▸ List.mem_of_find?_eq_some hfind
  · intro h
    cases hfind : d.entries.find? fun entry => entry.1 = k with
    | none =>
      have hne := List.find?_eq_none.mp hfind (k, v) h
      simp at hne
    | some entry =>
      have hk : entry.1 = k := by simpa using List.find?_some hfind
      have heq : entry = (k, v) := List.inj_on_of_nodup_map d.nodup (List.mem_of_find?_eq_some hfind) h hk
      rw [heq]
      rfl

theorem mem_keys : k ∈ d.keys ↔ ∃ v, d.get? k = some v := by
  unfold keys
  rw [List.mem_map]
  constructor
  · rintro ⟨⟨k', v⟩, hmem, rfl⟩
    exact ⟨v, get?_eq_some.mpr hmem⟩
  · rintro ⟨v, hv⟩
    exact ⟨(k, v), get?_eq_some.mp hv, rfl⟩

theorem get?_eq_none : d.get? k = none ↔ k ∉ d.keys := by
  rw [mem_keys, Option.eq_none_iff_forall_ne_some, not_exists]

@[simp] theorem get?_empty : (empty : Dict κ ν).get? k = none := rfl

theorem get?_filterKeys {p : κ → Bool} : (d.filterKeys p).get? k = if p k then d.get? k else none := by
  apply Option.ext
  intro v
  rw [get?_eq_some]
  show (k, v) ∈ d.entries.filter _ ↔ _
  rw [List.mem_filter]
  split
  · rename_i h
    rw [get?_eq_some]
    exact and_iff_left h
  · rename_i h
    constructor
    · intro hmem
      exact absurd hmem.2 h
    · intro hnone
      cases hnone

/-! ## Writing -/

/-- `d[k] = v` -/
def set (d : Dict κ ν) (k : κ) (v : ν) : Dict κ ν :=
  if h : k ∈ d.keys then
    { entries := d.entries.map fun entry => if entry.1 = k then (k, v) else entry
      nodup := by
        have hkeys : (d.entries.map fun entry => if entry.1 = k then (k, v) else entry).map Prod.fst = d.keys := by
          unfold keys
          rw [List.map_map]
          apply List.map_congr_left
          intro entry _
          show (if entry.1 = k then (k, v) else entry).1 = entry.1
          split
          · rename_i hk
            exact hk.symm
          · rfl
        rw [hkeys]
        exact d.nodup }
  else
    { entries := d.entries ++ [(k, v)]
      nodup := by
        rw [List.map_append]
        refine List.nodup_append.mpr ⟨d.nodup, List.nodup_singleton k, ?_⟩
        rintro a ha b hb rfl
        obtain rfl : a = k := List.mem_singleton.mp hb
        exact h ha }

theorem get?_set (k' : κ) : (d.set k v).get? k' = if k' = k then some v else d.get? k' := by
  apply Option.ext
  intro v'
  rw [get?_eq_some]
  unfold set
  split
  · rename_i hmem
    show (k', v') ∈ d.entries.map _ ↔ _
    rw [List.mem_map]
    constructor
    · rintro ⟨⟨k₀, v₀⟩, hentry, heq⟩
      dsimp only at heq
      split at heq
      · obtain ⟨rfl, rfl⟩ := Prod.mk.inj heq
        rw [if_pos rfl]
      · rename_i hne
        obtain ⟨rfl, rfl⟩ := Prod.mk.inj heq
        rw [if_neg hne]
        exact get?_eq_some.mpr hentry
    · intro h
      split at h
      · rename_i hk
        obtain rfl := Option.some.inj h
        obtain ⟨v₀, hv₀⟩ := mem_keys.mp hmem
        refine ⟨(k, v₀), get?_eq_some.mp hv₀, ?_⟩
        rw [if_pos rfl, hk]
      · rename_i hne
        refine ⟨(k', v'), get?_eq_some.mp h, ?_⟩
        rw [if_neg hne]
  · rename_i hmem
    show (k', v') ∈ d.entries ++ [(k, v)] ↔ _
    rw [List.mem_append, List.mem_singleton, Prod.mk.injEq]
    split
    · rename_i hk
      subst hk
      constructor
      · rintro (hold | ⟨-, rfl⟩)
        · exact absurd (mem_keys.mpr ⟨v', get?_eq_some.mpr hold⟩) hmem
        · rfl
      · intro h
        exact .inr ⟨rfl, (Option.some.inj h).symm⟩
    · rename_i hne
      rw [get?_eq_some]
      constructor
      · rintro (hold | ⟨hk, -⟩)
        · exact hold
        · exact absurd hk hne
      · exact .inl

/-- `d.update(entries)` -/
def updateList (d : Dict κ ν) (entries : List (κ × ν)) : Dict κ ν :=
  entries.foldl (fun d entry => d.set entry.1 entry.2) d

/-- `{**d, **e}` -/
def update (d e : Dict κ ν) : Dict κ ν := d.updateList e.entries

/-- `dict(entries)`, the last of two entries of one key. -/
def ofList (entries : List (κ × ν)) : Dict κ ν := empty.updateList entries

variable {entries : List (κ × ν)}

theorem get?_updateList_of_not_mem (h : ∀ entry ∈ entries, entry.1 ≠ k) :
    (d.updateList entries).get? k = d.get? k := by
  induction entries generalizing d with
  | nil => rfl
  | cons entry entries ih =>
    rw [List.forall_mem_cons] at h
    show ((d.set entry.1 entry.2).updateList entries).get? k = _
    rw [ih h.2, get?_set, if_neg (Ne.symm h.1)]

theorem get?_updateList (hnodup : (entries.map Prod.fst).Nodup) (h : (k, v) ∈ entries) :
    (d.updateList entries).get? k = some v := by
  induction entries generalizing d with
  | nil => cases h
  | cons entry entries ih =>
    rw [List.map_cons, List.nodup_cons] at hnodup
    show ((d.set entry.1 entry.2).updateList entries).get? k = _
    rcases List.mem_cons.mp h with rfl | hmem
    · rw [get?_updateList_of_not_mem, get?_set, if_pos rfl]
      intro entry hentry heq
      exact hnodup.1 (List.mem_map.mpr ⟨entry, hentry, heq⟩)
    · exact ih hnodup.2 hmem

theorem mem_of_get?_updateList (h : (d.updateList entries).get? k = some v) :
    (k, v) ∈ entries ∨ d.get? k = some v := by
  induction entries generalizing d with
  | nil => exact .inr h
  | cons entry entries ih =>
    rcases ih (show ((d.set entry.1 entry.2).updateList entries).get? k = some v from h) with hmem | hset
    · exact .inl (List.mem_cons_of_mem _ hmem)
    · rw [get?_set] at hset
      split at hset
      · rename_i hk
        left
        rw [hk, ← Option.some.inj hset]
        exact List.mem_cons_self
      · exact .inr hset

theorem mem_keys_updateList (h : k ∈ entries.map Prod.fst ∨ k ∈ d.keys) : k ∈ (d.updateList entries).keys := by
  induction entries generalizing d with
  | nil => exact h.resolve_left List.not_mem_nil
  | cons entry entries ih =>
    apply ih
    rw [List.map_cons, List.mem_cons, or_assoc] at h
    rcases h with rfl | hmem | hkeys
    · exact .inr (mem_keys.mpr ⟨entry.2, by rw [get?_set, if_pos rfl]⟩)
    · exact .inl hmem
    · right
      obtain ⟨v, hv⟩ := mem_keys.mp hkeys
      by_cases hk : k = entry.1
      · exact mem_keys.mpr ⟨entry.2, by rw [get?_set, if_pos hk]⟩
      · exact mem_keys.mpr ⟨v, by rw [get?_set, if_neg hk, hv]⟩

theorem get?_updateList_map {keys : List κ} {f : κ → ν} :
    (d.updateList (keys.map fun k => (k, f k))).get? k = if k ∈ keys then some (f k) else d.get? k := by
  induction keys generalizing d with
  | nil => rfl
  | cons x keys ih =>
    show ((d.set x (f x)).updateList (keys.map fun k => (k, f k))).get? k = _
    rw [ih, get?_set]
    by_cases hx : k = x
    · simp [hx]
    · by_cases hk : k ∈ keys <;> simp [hx, hk]

/-- **What an update leaves:** the second dictionary, and the first where the second has nothing. -/
theorem get?_update (d e : Dict κ ν) (k : κ) : (d.update e).get? k = (e.get? k).or (d.get? k) := by
  cases h : e.get? k with
  | none =>
    rw [get?_eq_none] at h
    apply get?_updateList_of_not_mem
    intro entry hentry heq
    exact h (List.mem_map.mpr ⟨entry, hentry, heq⟩)
  | some v => exact get?_updateList e.nodup (get?_eq_some.mp h)

theorem get?_ofList (hnodup : (entries.map Prod.fst).Nodup) :
    (ofList entries).get? k = some v ↔ (k, v) ∈ entries := by
  constructor
  · intro h
    by_contra hmem
    by_cases hk : ∃ v', (k, v') ∈ entries
    · obtain ⟨v', hv'⟩ := hk
      rw [ofList, get?_updateList hnodup hv'] at h
      exact hmem (Option.some.inj h ▸ hv')
    · rw [ofList, get?_updateList_of_not_mem] at h
      · cases h
      · rintro ⟨k', v'⟩ hentry rfl
        exact hk ⟨v', hentry⟩
  · exact get?_updateList hnodup

theorem mem_keys_update {e : Dict κ ν} : k ∈ (d.update e).keys ↔ k ∈ d.keys ∨ k ∈ e.keys := by
  simp only [mem_keys, get?_update]
  cases he : e.get? k with
  | none => simp
  | some v => simp

end Dict

end Python
