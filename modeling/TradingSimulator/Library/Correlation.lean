import TradingSimulator.Library.Covariance
import TradingSimulator.Library.SampleMoments
import Mathlib.Tactic.FieldSimp
import Mathlib.Tactic.Linarith

/-!
# Correlations

The coefficient of correlation of two series of observations, which is not a number where one of
them does not vary. By the inequality of Cauchy and Schwarz it is between `-1` and `1`
(`correlation_mem`), and it is `1` where one series is a positive multiple of the other
(`correlation_const_mul`).
-/

namespace Correlation

open Covariance SampleMoments

variable {ι K : Type*} [Fintype ι] [Field K] [LinearOrder K]

/-- The coefficient of correlation, or none for NaN. -/
def correlation (sqrt : K → K) (x y : ι → K) : Option K :=
  if variance x = 0 ∨ variance y = 0 then none
  else some (cov x y / sqrt (variance x) / sqrt (variance y))

theorem correlation_eq_none_iff {sqrt : K → K} {x y : ι → K} :
    correlation sqrt x y = none ↔ variance x = 0 ∨ variance y = 0 := by
  rw [correlation]
  split_ifs with h <;> simp [h]

variable [IsStrictOrderedRing K]

/-- Observations without variance are equal. -/
theorem variance_eq_zero_iff (hcard : 1 < Fintype.card ι) {x : ι → K} :
    variance x = 0 ↔ ∀ s t, x s = x t := by
  have hpos : (0 : K) < (Fintype.card ι : K) - 1 := sub_pos.mpr (Nat.one_lt_cast.mpr hcard)
  have hcardPos : (Fintype.card ι : K) ≠ 0 := Nat.cast_ne_zero.mpr (by omega)
  rw [variance, div_eq_zero_iff, or_iff_left hpos.ne',
    Finset.sum_eq_zero_iff_of_nonneg fun t _ => sq_nonneg _]
  constructor
  · intro h s t
    -- both are the mean
    have hs := sub_eq_zero.mp (sq_eq_zero_iff.mp (h s (Finset.mem_univ s)))
    have ht := sub_eq_zero.mp (sq_eq_zero_iff.mp (h t (Finset.mem_univ t)))
    rw [hs, ht]
  · intro h t _
    have hmean : mean x = x t := by
      rw [mean, Finset.sum_congr rfl fun s _ => h s t, Finset.sum_const, nsmul_eq_mul,
        Finset.card_univ, mul_div_cancel_left₀ _ hcardPos]
    rw [hmean, sub_self, zero_pow two_ne_zero]

/-- The inequality of Cauchy and Schwarz. -/
theorem sq_cov_le (x y : ι → K) : cov x y ^ 2 ≤ variance x * variance y := by
  have hsum := Finset.sum_mul_sq_le_sq_mul_sq Finset.univ (fun t => x t - mean x)
    fun t => y t - mean y
  rw [cov, variance, variance, div_pow, div_mul_div_comm, pow_two ((Fintype.card ι : K) - 1)]
  exact div_le_div_of_nonneg_right hsum (mul_self_nonneg _)

variable {sqrt : K → K}

/-- The inequality of Cauchy and Schwarz. -/
theorem correlation_mem (hsqrt : IsSqrt sqrt) {x y : ι → K} {r : K}
    (h : correlation sqrt x y = some r) : -1 ≤ r ∧ r ≤ 1 := by
  rw [correlation] at h
  split_ifs at h with hvaries
  rw [not_or] at hvaries
  have hx := variance_nonneg x
  have hy := variance_nonneg y
  have hroot : sqrt (variance x) * sqrt (variance y) ≠ 0 :=
    mul_ne_zero (fun h0 => hvaries.1 ((hsqrt.eq_zero_iff hx).mp h0))
      fun h0 => hvaries.2 ((hsqrt.eq_zero_iff hy).mp h0)
  have hr : r * (sqrt (variance x) * sqrt (variance y)) = cov x y := by
    rw [← Option.some.inj h, div_div, div_mul_cancel₀ _ hroot]
  -- squared, the inequality of Cauchy and Schwarz bounds it
  have hsq : r ^ 2 * (variance x * variance y) ≤ 1 * (variance x * variance y) := by
    calc r ^ 2 * (variance x * variance y)
        = (r * (sqrt (variance x) * sqrt (variance y))) ^ 2 := by
          rw [mul_pow, mul_pow, hsqrt.sq_eq hx, hsqrt.sq_eq hy]
      _ = cov x y ^ 2 := by rw [hr]
      _ ≤ variance x * variance y := sq_cov_le x y
      _ = 1 * (variance x * variance y) := (one_mul _).symm
  have hpos : 0 < variance x * variance y :=
    mul_pos (hx.lt_of_ne' hvaries.1) (hy.lt_of_ne' hvaries.2)
  exact abs_le.mp ((sq_le_one_iff_abs_le_one r).mp (le_of_mul_le_mul_right hsq hpos))

omit [LinearOrder K] [IsStrictOrderedRing K] in
theorem mean_const_mul (b : K) (x : ι → K) : mean (fun t => b * x t) = b * mean x := by
  rw [mean, mean, ← Finset.mul_sum, mul_div_assoc]

/-- A series and a positive multiple of it. -/
theorem correlation_const_mul (hsqrt : IsSqrt sqrt) {b : K} (hb : 0 < b) {x : ι → K} {r : K}
    (h : correlation sqrt x (fun t => b * x t) = some r) : r = 1 := by
  rw [correlation] at h
  split_ifs at h with hvaries
  rw [not_or] at hvaries
  have hcov : cov x (fun t => b * x t) = b * variance x := by
    rw [cov, variance, mean_const_mul, mul_div_assoc', Finset.mul_sum]
    congr 1
    exact Finset.sum_congr rfl fun t _ => by ring
  have hvar : variance (fun t => b * x t) = b ^ 2 * variance x := by
    rw [variance, variance, mean_const_mul, mul_div_assoc', Finset.mul_sum]
    congr 1
    exact Finset.sum_congr rfl fun t _ => by ring
  have hx := variance_nonneg x
  have hrootNe : sqrt (variance x) ≠ 0 := fun h0 => hvaries.1 ((hsqrt.eq_zero_iff hx).mp h0)
  -- the root of the square of a positive number is the number
  have hroot : sqrt (b ^ 2 * variance x) = b * sqrt (variance x) := by
    rw [← pow_left_inj₀ (hsqrt.nonneg _) (mul_nonneg hb.le (hsqrt.nonneg _)) two_ne_zero, mul_pow,
      hsqrt.sq_eq hx, hsqrt.sq_eq (mul_nonneg (sq_nonneg b) hx)]
  calc r = cov x (fun t => b * x t) / sqrt (variance x) / sqrt (variance fun t => b * x t) :=
        (Option.some.inj h).symm
    _ = b * (sqrt (variance x) * sqrt (variance x)) /
          (sqrt (variance x) * (b * sqrt (variance x))) := by
        rw [hcov, hvar, hroot, div_div, hsqrt.mul_self _ hx]
    _ = 1 := by
        rw [mul_left_comm, div_self (mul_ne_zero hrootNe (mul_ne_zero hb.ne' hrootNe))]

end Correlation
