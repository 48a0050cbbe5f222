import Mathlib.Algebra.Group.Nat.Defs
import Mathlib.Data.List.Basic
import Mathlib.Data.List.GetD
import Mathlib.Data.List.Range

/-! # Lists laid out in cells

What binary formats do with a list of bytes: cut it into slices, read equal cells
one after another, write numbers in big endian, and rewrite the entries of a line
in place, each from those before it. -/

namespace Encoding

variable {α β : Type}

/-! ## Slices -/

/-- The entries from `start`, at most `length` of them. -/
def slice (l : List α) (start length : ℕ) : List α := (l.drop start).take length

@[simp] theorem length_slice (l : List α) (start length : ℕ) :
    (slice l start length).length = min length (l.length - start) := by
  simp [slice]

theorem slice_zero (l : List α) (length : ℕ) : slice l 0 length = l.take length := rfl

theorem slice_append_right (l l' : List α) (start length : ℕ) :
    slice (l ++ l') (l.length + start) length = slice l' start length := by
  simp [slice]

variable {n : ℕ} {l : List α}

theorem slice_prefix {l' : List α} (h : l.length = n) : slice (l ++ l') 0 n = l := by
  simp [slice, ← h]

variable {k : ℕ}

theorem length_flatMap_of_forall {f : β → List α} (h : ∀ b, (f b).length = k) (l : List β) :
    (l.flatMap f).length = l.length * k := by
  induction l with
  | nil => simp
  | cons b l ih => rw [List.flatMap_cons, List.length_append, h, ih, List.length_cons, Nat.succ_mul, Nat.add_comm]

variable {cells : List (List α)}

/-- Equal cells are read back one after another. -/
theorem slice_flatten (h : ∀ c ∈ cells, c.length = k) (i : ℕ) (hi : i < cells.length) :
    slice cells.flatten (i * k) k = cells[i] := by
  induction cells generalizing i with
  | nil => simp at hi
  | cons c cells ih =>
    have hc : c.length = k := h c (by simp)
    cases i with
    | zero => simpa using slice_prefix hc
    | succ i =>
      have hpos : (i + 1) * k = c.length + i * k := by rw [hc, Nat.succ_mul, Nat.add_comm]
      rw [List.flatten_cons, hpos, slice_append_right]
      exact ih (fun d hd => h d (List.mem_cons_of_mem _ hd)) i (by simpa using hi)

theorem map_slice_flatten (h : ∀ c ∈ cells, c.length = k) :
    (List.range cells.length).map (fun i => slice cells.flatten (i * k) k) = cells := by
  apply List.ext_getElem
  · simp
  · intro i hi hi'
    rw [List.getElem_map, List.getElem_range]
    exact slice_flatten h i hi'

/-- A list cut into equal cells. -/
theorem flatten_slices (n : ℕ) (h : l.length = n * k) :
    ((List.range n).map fun i => slice l (i * k) k).flatten = l := by
  induction n generalizing l with
  | zero =>
    have hl : l = [] := by simpa using h
    simp [hl]
  | succ n ih =>
    have hrest : (l.drop k).length = n * k := by
      rw [List.length_drop, h, Nat.succ_mul, Nat.add_sub_cancel]
    have hcells : ∀ i, slice l ((i + 1) * k) k = slice (l.drop k) (i * k) k := by
      intro i
      simp [slice, List.drop_drop, Nat.succ_mul, Nat.add_comm]
    rw [List.range_succ_eq_map, List.map_cons, List.map_map, List.flatten_cons]
    show slice l (0 * k) k ++ _ = l
    simp only [Function.comp_def, Nat.succ_eq_add_one, hcells]
    rw [ih hrest, Nat.zero_mul, slice_zero, List.take_append_drop]

/-! ## Entries rewritten in place -/

/-- A loop that rewrites the entries from `a` on, the entry `i` by `step row i`,
    makes `t` of `l` when each step finds `t` before its entry and `l` in it. -/
theorem foldl_set_range' {step : List α → ℕ → α} {t : List α} {a : ℕ} (ha : a ≤ n) (hl : l.length = n)
    (ht : t.length = n) (hfront : ∀ j < a, l[j]? = t[j]?)
    (hstep : ∀ i, a ≤ i → i < n → ∀ row : List α, row.length = n → (∀ j < i, row[j]? = t[j]?) →
      row[i]? = l[i]? → t[i]? = some (step row i)) :
    (List.range' a (n - a)).foldl (fun row i => row.set i (step row i)) l = t := by
  -- after `k` rounds the row is `t` up to the entry `a + k`, and still `l` from there on
  have hrounds : ∀ k, a + k ≤ n → ∀ row, (List.range' a k).foldl (fun row i => row.set i (step row i)) l = row →
      row.length = n ∧ (∀ j < a + k, row[j]? = t[j]?) ∧ ∀ j, a + k ≤ j → row[j]? = l[j]? := by
    intro k
    induction k with
    | zero =>
      intro _ row hrow
      subst hrow
      exact ⟨hl, by simpa using hfront, fun _ _ => rfl⟩
    | succ k ih =>
      intro hk row hrow
      obtain ⟨hlen, hdone, htodo⟩ := ih (by omega) _ rfl
      rw [List.range'_1_concat, List.foldl_append, List.foldl_cons, List.foldl_nil] at hrow
      subst hrow
      refine ⟨by rw [List.length_set, hlen], fun j hj => ?_, fun j hj => ?_⟩
      · by_cases hjk : j = a + k
        · subst hjk
          rw [List.getElem?_set_self (by omega)]
          exact (hstep _ (by omega) (by omega) _ hlen hdone (htodo _ (Nat.le_refl _))).symm
        · rw [List.getElem?_set_ne (by omega)]
          exact hdone j (by omega)
      · rw [List.getElem?_set_ne (by omega)]
        exact htodo j (by omega)
  obtain ⟨-, hdone, -⟩ := hrounds (n - a) (by omega) _ rfl
  apply List.ext_getElem?
  intro j
  by_cases hj : j < n
  · exact hdone j (by omega)
  · obtain ⟨hlen, -, -⟩ := hrounds (n - a) (by omega) _ rfl
    rw [List.getElem?_eq_none (by omega), List.getElem?_eq_none (by omega)]

/-! ## Numbers in big endian -/

/-- Four bytes of a number below `2 ^ 32`. -/
def u32 (n : ℕ) : List UInt8 :=
  [UInt8.ofNat (n / 16777216), UInt8.ofNat (n / 65536), UInt8.ofNat (n / 256), UInt8.ofNat n]

/-- The number that bytes spell. -/
def bigEndian (bytes : List UInt8) : ℕ := bytes.foldl (fun n b => n * 256 + b.toNat) 0

@[simp] theorem length_u32 (n : ℕ) : (u32 n).length = 4 := rfl

theorem bigEndian_u32 (h : n < 2 ^ 32) : bigEndian (u32 n) = n := by
  simp only [bigEndian, u32, List.foldl_cons, List.foldl_nil, UInt8.toNat_ofNat']
  omega

end Encoding
