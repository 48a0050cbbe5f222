import Mathlib.Data.Int.Log
import Mathlib.Data.Rat.Floor
import Mathlib.Tactic.Linarith
import Mathlib.Tactic.Positivity
import Mathlib.Tactic.FieldSimp
import Mathlib.Tactic.NormNum

/-! # Numbers with 53 significant bits

Rationals rounded to the nearest number of 53 significant bits, ties to the even
one, as binary floating point does where no exponent is out of range. Whole
numbers up to `2 ^ 53` stay as they are, and nothing moves by more than its
`2 ^ 53`rd part. -/

namespace Encoding

/-- The whole number nearest to `x`, the even one of two. -/
def roundEven (x : ℚ) : ℤ :=
  if x - ⌊x⌋ < 1 / 2 then ⌊x⌋
  else if 1 / 2 < x - ⌊x⌋ then ⌊x⌋ + 1
  else if ⌊x⌋ % 2 = 0 then ⌊x⌋ else ⌊x⌋ + 1

/-- The distance of neighbouring numbers of 53 significant bits around `x`. -/
def ulp (x : ℚ) : ℚ := 2 ^ (Int.log 2 |x| - 52)

/-- The nearest number of 53 significant bits. -/
def round53 (x : ℚ) : ℚ := roundEven (x / ulp x) * ulp x

theorem roundEven_intCast (n : ℤ) : roundEven n = n := by
  simp [roundEven]

theorem abs_roundEven_sub_le (x : ℚ) : |roundEven x - x| ≤ 1 / 2 := by
  have hle := Int.floor_le x
  have hlt := Int.lt_floor_add_one x
  unfold roundEven
  split_ifs <;> rw [abs_le] <;> push_cast <;> constructor <;> linarith

/-- Rounding is symmetric. -/
theorem roundEven_neg (x : ℚ) : roundEven (-x) = -roundEven x := by
  by_cases hx : ((⌊x⌋ : ℤ) : ℚ) = x
  · rw [← hx, ← Int.cast_neg, roundEven_intCast, roundEven_intCast]
  · have hle : (⌊x⌋ : ℚ) < x := lt_of_le_of_ne (Int.floor_le x) hx
    have hlt := Int.lt_floor_add_one x
    have hfloor : ⌊-x⌋ = -⌊x⌋ - 1 := by
      rw [Int.floor_eq_iff]
      push_cast
      constructor <;> linarith
    unfold roundEven
    rw [hfloor]
    push_cast
    split_ifs <;> first | omega | (exfalso; linarith)

theorem ulp_pos (x : ℚ) : 0 < ulp x := zpow_pos (by norm_num) _

theorem ulp_neg (x : ℚ) : ulp (-x) = ulp x := by
  rw [ulp, ulp, abs_neg]

theorem round53_neg (x : ℚ) : round53 (-x) = -round53 x := by
  rw [round53, round53, ulp_neg, neg_div, roundEven_neg]
  push_cast
  ring

/-- An ulp is at most the `2 ^ 52`nd part of its number. -/
theorem ulp_le {x : ℚ} (hx : x ≠ 0) : ulp x ≤ |x| / 2 ^ 52 := by
  have hlog : ((2 : ℕ) : ℚ) ^ Int.log 2 |x| ≤ |x| := Int.zpow_log_le_self (by decide) (abs_pos.mpr hx)
  have hsplit : ulp x = 2 ^ Int.log 2 |x| / 2 ^ 52 := by
    rw [ulp, zpow_sub₀ (by norm_num)]
    norm_num
  rw [hsplit]
  push_cast at hlog
  gcongr

theorem abs_round53_sub_le (x : ℚ) : |round53 x - x| ≤ |x| / 2 ^ 53 := by
  by_cases hx : x = 0
  · subst hx
    simp [round53, roundEven]
  · have hu := ulp_pos x
    have hround := abs_roundEven_sub_le (x / ulp x)
    have hsplit : round53 x - x = (roundEven (x / ulp x) - x / ulp x) * ulp x := by
      rw [round53]
      field_simp
    calc |round53 x - x| = |roundEven (x / ulp x) - x / ulp x| * ulp x := by
          rw [hsplit, abs_mul, abs_of_pos hu]
      _ ≤ 1 / 2 * ulp x := by gcongr
      _ ≤ 1 / 2 * (|x| / 2 ^ 52) := by gcongr; exact ulp_le hx
      _ = |x| / 2 ^ 53 := by ring

/-- A whole multiple of its ulp stays as it is. -/
theorem round53_eq_self {x : ℚ} {n : ℤ} (h : x = n * ulp x) : round53 x = x := by
  have hn : x / ulp x = n := by
    rw [div_eq_iff (ulp_pos x).ne']
    exact h
  rw [round53, hn, roundEven_intCast, ← h]

/-- **Whole numbers up to `2 ^ 53`** have 53 significant bits. -/
theorem round53_intCast {n : ℤ} (h : |n| ≤ 2 ^ 53) : round53 n = n := by
  by_cases h0 : n = 0
  · subst h0
    simp [round53, roundEven]
  · have hnat : n.natAbs ≤ 2 ^ 53 := by
      rw [Int.abs_eq_natAbs] at h
      exact_mod_cast h
    have habs : |(n : ℚ)| = ((n.natAbs : ℕ) : ℚ) := by
      rw [← Int.cast_abs, Int.abs_eq_natAbs, Int.cast_natCast]
    have hlog : Int.log 2 |(n : ℚ)| = Nat.log 2 n.natAbs := by rw [habs, Int.log_natCast]
    by_cases hmax : n.natAbs = 2 ^ 53
    · -- the ulp is 2 here
      have hulp : ulp (n : ℚ) = 2 := by
        rw [ulp, hlog, hmax, Nat.log_pow (by decide)]
        norm_num
      have hn : n = 2 ^ 52 * 2 ∨ n = -(2 ^ 52) * 2 := by omega
      rcases hn with hn | hn
      · exact round53_eq_self (n := 2 ^ 52) (by rw [hulp]; exact_mod_cast hn)
      · exact round53_eq_self (n := -2 ^ 52) (by rw [hulp]; exact_mod_cast hn)
    · have hsmall : Nat.log 2 n.natAbs ≤ 52 := by
        have hlt : n.natAbs < 2 ^ 53 := lt_of_le_of_ne hnat hmax
        have := Nat.log_lt_of_lt_pow (by omega) hlt
        omega
      apply round53_eq_self (n := n * 2 ^ (52 - Nat.log 2 n.natAbs))
      rw [ulp, hlog]
      push_cast
      rw [mul_assoc, ← zpow_natCast, ← zpow_add₀ (by norm_num)]
      push_cast [hsmall]
      simp

end Encoding
