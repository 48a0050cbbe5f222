import MissionControl.Commerce.Conversions
import MissionControl.Encoding.Significand

/-! # Commissions

The split of a sale or a refund, in the numbers JavaScript has: the product of an
amount and its basis points is rounded to 53 significant bits, and so is the
quotient that is cut off to whole cents. A rounding that carries the quotient
across a whole cent makes the split inexact, and nothing raises then. -/

namespace Commerce

open Encoding (round53)

structure CommissionInput where
  grossAmountCents : ℤ
  commissionRateBps : ℤ
  aislCutBps : ℤ

/-- `Math.trunc`. -/
def trunc (x : ℚ) : ℤ := if 0 ≤ x then ⌊x⌋ else ⌈x⌉

def applyBps (amountCents bps : ℤ) : ℤ := trunc (round53 (round53 (amountCents * bps) / 10000))

/-- The split of an amount. What is subtracted are whole numbers up to `2 ^ 53` of one
    sign, whose differences are exact. -/
def computeCommissionSplit (input : CommissionInput) : Except Err CommissionSplit :=
  let gross := input.grossAmountCents
  let rate := input.commissionRateBps
  let cut := input.aislCutBps
  if ¬ |gross| ≤ 2 ^ 53 - 1 then .error ⟨"invalid_amount"⟩
  else if rate < 0 ∨ rate > 10000 then .error ⟨"invalid_commission_rate"⟩
  else if cut < 0 ∨ cut > 10000 then .error ⟨"invalid_aisl_cut"⟩
  else if cut > rate then .error ⟨"invalid_commission_split"⟩
  else
    let commission := applyBps gross rate
    let fee := applyBps gross cut
    assertSplitInvariants {
      grossAmountCents := gross
      commissionTotalCents := commission
      aislFeeCents := fee
      agentPayoutCents := commission - fee
      merchantNetCents := gross - commission }

/-- What is admitted: a safe amount, and a cut within a rate within a hundred percent. -/
structure CommissionInput.Admitted (input : CommissionInput) : Prop where
  safe : |input.grossAmountCents| ≤ 2 ^ 53 - 1
  cut : 0 ≤ input.aislCutBps
  within : input.aislCutBps ≤ input.commissionRateBps
  rate : input.commissionRateBps ≤ 10000

/-- The split of an admitted amount. -/
def CommissionInput.split (input : CommissionInput) : CommissionSplit where
  grossAmountCents := input.grossAmountCents
  commissionTotalCents := applyBps input.grossAmountCents input.commissionRateBps
  aislFeeCents := applyBps input.grossAmountCents input.aislCutBps
  agentPayoutCents := applyBps input.grossAmountCents input.commissionRateBps -
    applyBps input.grossAmountCents input.aislCutBps
  merchantNetCents := input.grossAmountCents - applyBps input.grossAmountCents input.commissionRateBps
  commission := by omega
  gross := by omega

theorem assertSplitInvariants_ok (split : CommissionSplit) : assertSplitInvariants split.toAmounts = .ok split := by
  rw [assertSplitInvariants, dif_pos split.commission, dif_pos split.gross]

variable {input : CommissionInput}

theorem computeCommissionSplit_ok (h : input.Admitted) : computeCommissionSplit input = .ok input.split := by
  have hsafe := h.safe
  have hcut := h.cut
  have hwithin := h.within
  have hrate := h.rate
  unfold computeCommissionSplit
  dsimp only
  rw [if_neg (not_not.mpr hsafe), if_neg (by omega), if_neg (by omega), if_neg (by omega)]
  exact assertSplitInvariants_ok input.split

theorem computeCommissionSplit_raises (h : ¬ input.Admitted) :
    ∃ e, computeCommissionSplit input = .error e := by
  unfold computeCommissionSplit
  dsimp only
  by_cases hsafe : |input.grossAmountCents| ≤ 2 ^ 53 - 1
  · rw [if_neg (not_not.mpr hsafe)]
    split
    · exact ⟨_, rfl⟩
    · split
      · exact ⟨_, rfl⟩
      · split
        · exact ⟨_, rfl⟩
        · exact (h ⟨hsafe, by omega, by omega, by omega⟩).elim
  · exact ⟨_, if_pos hsafe⟩

/-! ## Cutting off -/

theorem trunc_neg (x : ℚ) : trunc (-x) = -trunc x := by
  unfold trunc
  rcases lt_trichotomy x 0 with hx | rfl | hx
  · rw [if_pos (by linarith), if_neg (by linarith), Int.floor_neg]
  · simp
  · rw [if_neg (by linarith), if_pos hx.le, Int.ceil_neg]

/-- Both are cut off to the same whole number if the same numbers of cents are in them. -/
theorem floor_eq_iff {x y : ℚ} (hx : 0 ≤ x) (hy : 0 ≤ y) : ⌊x⌋ = ⌊y⌋ ↔ ∀ cents : ℕ, (cents : ℚ) ≤ x ↔ cents ≤ y := by
  constructor
  · intro h cents
    rw [← Int.cast_natCast, ← Int.le_floor, ← Int.le_floor, h]
  · intro h
    have hle : ∀ {u v : ℚ}, 0 ≤ u → (∀ cents : ℕ, (cents : ℚ) ≤ u → cents ≤ v) → ⌊u⌋ ≤ ⌊v⌋ := by
      intro u v hu hcents
      obtain ⟨n, hn⟩ := Int.eq_ofNat_of_zero_le (Int.floor_nonneg.mpr hu)
      have hnu : (n : ℚ) ≤ u := by
        have := Int.floor_le u
        rw [hn] at this
        exact_mod_cast this
      rw [hn, Int.le_floor]
      exact_mod_cast hcents n hnu
    exact le_antisymm (hle hx fun cents => (h cents).mp) (hle hy fun cents => (h cents).mpr)

theorem round53_nonneg {x : ℚ} (hx : 0 ≤ x) : 0 ≤ round53 x := by
  have h := Encoding.abs_round53_sub_le x
  rw [abs_of_nonneg hx, abs_le] at h
  have : x / 2 ^ 53 ≤ x := by
    rw [div_le_iff₀ (by positivity)]
    nlinarith
  linarith [h.1]

/-! ## Exact splits -/

/-- The quotient of an amount and its basis points, as it is computed. -/
def quotient (amountCents bps : ℤ) : ℚ := round53 (round53 (amountCents * bps) / 10000)

/-- No whole number of cents lies between the quotient and what rounding makes of it. -/
def Crossless (amountCents bps : ℤ) : Prop :=
  ∀ cents : ℕ, (cents : ℚ) ≤ |(amountCents * bps : ℚ) / 10000| ↔ cents ≤ |quotient amountCents bps|

theorem quotient_neg (amountCents bps : ℤ) : quotient (-amountCents) bps = -quotient amountCents bps := by
  rw [quotient, quotient, Int.cast_neg, neg_mul, Encoding.round53_neg, neg_div, Encoding.round53_neg]

variable {amountCents bps : ℤ}

theorem quotient_nonneg (ha : 0 ≤ amountCents) (hb : 0 ≤ bps) : 0 ≤ quotient amountCents bps :=
  round53_nonneg (div_nonneg (round53_nonneg (by positivity)) (by norm_num))

theorem applyBps_neg (amountCents bps : ℤ) : applyBps (-amountCents) bps = -applyBps amountCents bps := by
  show trunc (quotient _ _) = -trunc (quotient _ _)
  rw [quotient_neg, trunc_neg]

theorem crossless_neg : Crossless (-amountCents) bps ↔ Crossless amountCents bps := by
  unfold Crossless
  rw [quotient_neg, abs_neg, Int.cast_neg, neg_mul, neg_div, abs_neg]

/-- Basis points are applied exactly if rounding crosses no cent. -/
theorem applyBps_eq_iff (hb : 0 ≤ bps) :
    applyBps amountCents bps = (amountCents * bps).tdiv 10000 ↔ Crossless amountCents bps := by
  wlog ha : 0 ≤ amountCents generalizing amountCents
  · rw [← crossless_neg, ← this (by omega), applyBps_neg, neg_mul, Int.neg_tdiv, neg_inj]
  have hq := quotient_nonneg ha hb
  have hx : (0 : ℚ) ≤ amountCents * bps / 10000 := by positivity
  have hfloor : ⌊(amountCents * bps : ℚ) / 10000⌋ = (amountCents * bps).tdiv 10000 := by
    rw [Int.tdiv_eq_ediv_of_nonneg (by positivity)]
    exact_mod_cast Rat.floor_intCast_div_natCast (amountCents * bps) 10000
  have happly : applyBps amountCents bps = ⌊quotient amountCents bps⌋ := if_pos hq
  rw [happly, ← hfloor, eq_comm, floor_eq_iff hx hq]
  unfold Crossless
  rw [abs_of_nonneg hx, abs_of_nonneg hq]

/-- **Products up to `2 ^ 53`** cross no cent: the product is exact, and the quotient
    moves by less than what separates it from the next cent. -/
theorem crossless_of_le (h : |amountCents * bps| ≤ 2 ^ 53) : Crossless amountCents bps := by
  wlog ha : 0 ≤ amountCents * bps generalizing amountCents
  · exact crossless_neg.mp (this (by rwa [neg_mul, abs_neg]) (by rw [neg_mul]; omega))
  obtain ⟨p, hp⟩ := Int.eq_ofNat_of_zero_le ha
  have hmax : p ≤ 2 ^ 53 := by
    rw [hp, Nat.abs_cast] at h
    exact_mod_cast h
  have hproduct : (amountCents * bps : ℚ) = p := by exact_mod_cast hp
  have hquotient : quotient amountCents bps = round53 (p / 10000) := by
    rw [quotient, ← Int.cast_mul, Encoding.round53_intCast h, hp, Int.cast_natCast]
  have herror := Encoding.abs_round53_sub_le ((p : ℚ) / 10000)
  have hmaxQ : (p : ℚ) ≤ 2 ^ 53 := by exact_mod_cast hmax
  have hx : (0 : ℚ) ≤ p / 10000 := by positivity
  rw [abs_of_nonneg hx] at herror
  intro cents
  rw [hquotient, hproduct, abs_of_nonneg hx, abs_of_nonneg (round53_nonneg hx)]
  -- either the quotient is whole cents, or a cent is a ten-thousandth away at least
  by_cases hwhole : p % 10000 = 0
  · obtain ⟨n, rfl⟩ := Nat.dvd_of_mod_eq_zero hwhole
    have hn : ((10000 * n : ℕ) : ℚ) / 10000 = ((n : ℤ) : ℚ) := by
      push_cast
      field_simp
    rw [hn, Encoding.round53_intCast (by rw [Nat.abs_cast]; push_cast; omega)]
  · rw [abs_le] at herror
    have hsmall : (p : ℚ) / 10000 / 2 ^ 53 ≤ 1 / 10000 := by
      rw [div_div, div_le_div_iff₀ (by positivity) (by positivity)]
      linarith
    constructor
    · intro hle
      have hroom : cents * 10000 + 1 ≤ p := by
        have : (cents : ℚ) * 10000 ≤ p := by rwa [le_div_iff₀ (by norm_num)] at hle
        have hle' : cents * 10000 ≤ p := by exact_mod_cast this
        have hne : cents * 10000 ≠ p := fun heq => hwhole (by rw [← heq, Nat.mul_mod_left])
        exact lt_of_le_of_ne hle' hne
      have hroomQ : (cents : ℚ) * 10000 + 1 ≤ p := by exact_mod_cast hroom
      linarith [herror.1]
    · intro hle
      by_contra hlt
      have hroom : p + 1 ≤ cents * 10000 := by
        have : (p : ℚ) < cents * 10000 := by
          rw [not_le, div_lt_iff₀ (by norm_num)] at hlt
          exact hlt
        exact_mod_cast this
      -- at `2 ^ 53` itself the next cent is much farther away
      by_cases htop : p = 2 ^ 53
      · have hfar : (p : ℚ) + 2 ≤ cents * 10000 := by
          have : p + 2 ≤ cents * 10000 := by omega
          exact_mod_cast this
        linarith [herror.2]
      · have hstrict : (p : ℚ) / 10000 / 2 ^ 53 < 1 / 10000 := by
          have hlt53 : (p : ℚ) < 2 ^ 53 := by exact_mod_cast lt_of_le_of_ne hmax htop
          rw [div_div, div_lt_div_iff₀ (by positivity) (by positivity)]
          linarith
        have hroomQ : (p : ℚ) + 1 ≤ cents * 10000 := by exact_mod_cast hroom
        linarith [herror.2]

/-- What is expected of a split: the exact commission and fee, shares of the sign of
    the amount, the mirrored split for the mirrored amount, and both adding to nothing. -/
structure Faithful (input : CommissionInput) (split : CommissionSplit) : Prop where
  commission : split.commissionTotalCents = (input.grossAmountCents * input.commissionRateBps).tdiv 10000
  fee : split.aislFeeCents = (input.grossAmountCents * input.aislCutBps).tdiv 10000
  gross : split.grossAmountCents = input.grossAmountCents
  sums : split.aislFeeCents + split.agentPayoutCents + split.merchantNetCents = input.grossAmountCents
  nonneg : 0 ≤ input.grossAmountCents → 0 ≤ split.agentPayoutCents ∧ 0 ≤ split.merchantNetCents
  nonpos : input.grossAmountCents ≤ 0 → split.agentPayoutCents ≤ 0 ∧ split.merchantNetCents ≤ 0
  mirrored : computeCommissionSplit { input with grossAmountCents := -input.grossAmountCents } =
    .ok (negateSplit split)
  cancels : split.grossAmountCents + (negateSplit split).grossAmountCents = 0 ∧
    split.commissionTotalCents + (negateSplit split).commissionTotalCents = 0 ∧
    split.aislFeeCents + (negateSplit split).aislFeeCents = 0 ∧
    split.agentPayoutCents + (negateSplit split).agentPayoutCents = 0 ∧
    split.merchantNetCents + (negateSplit split).merchantNetCents = 0

/-- The claim about an input: the code raises, or its split is faithful. -/
def Exactly (input : CommissionInput) : Prop :=
  match computeCommissionSplit input with
  | .error _ => True
  | .ok split => Faithful input split

theorem CommissionInput.Admitted.neg (h : input.Admitted) :
    CommissionInput.Admitted { input with grossAmountCents := -input.grossAmountCents } :=
  ⟨by rw [abs_neg]; exact h.safe, h.cut, h.within, h.rate⟩

/-- The split of the mirrored amount is the mirrored split, exact or not. -/
theorem split_neg (h : input.Admitted) :
    computeCommissionSplit { input with grossAmountCents := -input.grossAmountCents } =
      .ok (negateSplit input.split) := by
  rw [computeCommissionSplit_ok h.neg]
  simp only [CommissionInput.split, negateSplit, applyBps_neg]
  congr 3 <;> omega

/-- Exact commission and fee make a faithful split. -/
theorem faithful_split (h : input.Admitted)
    (hcommission : Crossless input.grossAmountCents input.commissionRateBps)
    (hfee : Crossless input.grossAmountCents input.aislCutBps) : Faithful input input.split := by
  have hcut := h.cut
  have hwithin := h.within
  have hrate := h.rate
  have hc : applyBps input.grossAmountCents input.commissionRateBps = _ := (applyBps_eq_iff (by omega)).mpr hcommission
  have hf : applyBps input.grossAmountCents input.aislCutBps = _ := (applyBps_eq_iff hcut).mpr hfee
  refine ⟨hc, hf, rfl, ?_, fun hg => ?_, fun hg => ?_, split_neg h, ?_⟩
  · simp only [CommissionInput.split]
    omega
  · have hpayout := Int.tdiv_le_tdiv (by decide : (0 : ℤ) < 10000) (Int.mul_le_mul_of_nonneg_left hwithin hg)
    have hnet := Int.tdiv_le_tdiv (by decide : (0 : ℤ) < 10000) (Int.mul_le_mul_of_nonneg_left hrate hg)
    rw [Int.mul_tdiv_cancel _ (by decide)] at hnet
    simp only [CommissionInput.split, hc, hf]
    omega
  · have hpayout := Int.tdiv_le_tdiv (by decide : (0 : ℤ) < 10000) (Int.mul_le_mul_of_nonpos_left hg hwithin)
    have hnet := Int.tdiv_le_tdiv (by decide : (0 : ℤ) < 10000) (Int.mul_le_mul_of_nonpos_left hg hrate)
    rw [Int.mul_tdiv_cancel _ (by decide)] at hnet
    simp only [CommissionInput.split, hc, hf]
    omega
  · simp only [negateSplit]
    omega

/-- **A split is exact** exactly if rounding carries neither quotient across a cent;
    products up to `2 ^ 53` are safe from that. -/
theorem split_exact_iff (input : CommissionInput) :
    (Exactly input ↔ (input.Admitted → Crossless input.grossAmountCents input.commissionRateBps ∧
      Crossless input.grossAmountCents input.aislCutBps)) ∧
    ∀ amountCents bps : ℤ, |amountCents * bps| ≤ 2 ^ 53 → Crossless amountCents bps := by
  refine ⟨?_, fun _ _ => crossless_of_le⟩
  by_cases h : input.Admitted
  · have hwithin := h.within
    have hcut := h.cut
    have hexactly : Exactly input ↔ Faithful input input.split := by
      unfold Exactly
      rw [computeCommissionSplit_ok h]
    rw [hexactly, forall_prop_of_true h]
    constructor
    · intro hf
      exact ⟨(applyBps_eq_iff (by omega)).mp hf.commission, (applyBps_eq_iff hcut).mp hf.fee⟩
    · intro hcross
      exact faithful_split h hcross.1 hcross.2
  · obtain ⟨e, he⟩ := computeCommissionSplit_raises h
    unfold Exactly
    rw [he]
    exact ⟨fun _ hin => (h hin).elim, fun _ => trivial⟩

/-! ## Ten billion and a cent -/

/-- The product is rounded up to whole cents. -/
theorem round53_ten_billion : round53 9999000000009999 = 9999000000010000 := by
  have hlog : Int.log 2 |(9999000000009999 : ℚ)| = 53 := by
    rw [abs_of_pos (by norm_num)]
    show Int.log 2 ((9999000000009999 : ℕ) : ℚ) = 53
    rw [Int.log_natCast, Nat.log_eq_of_pow_le_of_lt_pow (m := 53) (by norm_num) (by norm_num)]
    rfl
  have hulp : Encoding.ulp 9999000000009999 = 2 := by
    rw [Encoding.ulp, hlog]
    norm_num
  have hfloor : ⌊(9999000000009999 / 2 : ℚ)⌋ = 4999500000004999 := by
    rw [Int.floor_eq_iff]
    norm_num
  have hround : Encoding.roundEven (9999000000009999 / 2) = 4999500000005000 := by
    rw [Encoding.roundEven, hfloor]
    norm_num
  rw [round53, hulp, hround]
  norm_num

/-- At 99.99 percent of ten billion and a cent, a cent too much is paid. -/
theorem commission_a_cent_over : ¬ Exactly ⟨1000000000001, 9999, 0⟩ := by
  have happly : applyBps 1000000000001 9999 = 999900000001 := by
    have hproduct : ((1000000000001 : ℤ) * (9999 : ℤ) : ℚ) = 9999000000009999 := by norm_num
    have hquotient : (9999000000010000 / 10000 : ℚ) = ((999900000001 : ℤ) : ℚ) := by norm_num
    rw [applyBps, hproduct, round53_ten_billion, hquotient, Encoding.round53_intCast (by decide), trunc,
      if_pos (by norm_num), Int.floor_intCast]
  have hadmitted : CommissionInput.Admitted ⟨1000000000001, 9999, 0⟩ :=
    ⟨by decide, by decide, by decide, by decide⟩
  intro h
  unfold Exactly at h
  rw [computeCommissionSplit_ok hadmitted] at h
  have hcommission : applyBps 1000000000001 9999 = (1000000000001 * 9999 : ℤ).tdiv 10000 := h.commission
  rw [happly] at hcommission
  exact absurd hcommission (by decide)

end Commerce
