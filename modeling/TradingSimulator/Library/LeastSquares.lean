import TradingSimulator.Library.SampleMoments
import Mathlib.Algebra.BigOperators.Ring.List
import Mathlib.Tactic.FieldSimp
import Mathlib.Tactic.Linarith
import Mathlib.Tactic.Ring

/-!
# Least squares with a bounded slope

The squared error of a line splits into what depends on its slope alone and the squared error of its
value at the mean (`sse_eq`). The part with the slope is a parabola, so that among the slopes of an
interval the one closest to its vertex is the best (`sse_le_of_clamped`).
-/

namespace LeastSquares

open Series SampleMoments

section Definitions

variable {K : Type*} [Field K]

/-- The squared error of the line with intercept `a` and slope `b`. -/
def sse (points : List (K × K)) (a b : K) : K :=
  (points.map fun p => (p.2 - (a + b * p.1)) ^ 2).sum

/-- The sum of the squared deviations of the abscissae. -/
def sxx (points : List (K × K)) : K :=
  (points.map fun p => (p.1 - mean (points.map Prod.fst)) ^ 2).sum

/-- The sum of the products of the deviations. -/
def sxy (points : List (K × K)) : K :=
  (points.map fun p =>
    (p.1 - mean (points.map Prod.fst)) * (p.2 - mean (points.map Prod.snd))).sum

/-- The sum of the squared deviations of the ordinates. -/
def syy (points : List (K × K)) : K :=
  (points.map fun p => (p.2 - mean (points.map Prod.snd)) ^ 2).sum

end Definitions

variable {K : Type*} [Field K] [LinearOrder K] [IsStrictOrderedRing K]

/-- The error of a line, by its slope and its value at the mean. -/
theorem sse_eq {points : List (K × K)} (hne : points ≠ []) (a b : K) :
    sse points a b = syy points - 2 * b * sxy points + b ^ 2 * sxx points +
      points.length * (mean (points.map Prod.snd) - (a + b * mean (points.map Prod.fst))) ^ 2 := by
  generalize hmx : mean (points.map Prod.fst) = mx
  generalize hmy : mean (points.map Prod.snd) = my
  have hx : (points.map fun p => p.1 - mx).sum = 0 := by
    rw [← hmx]
    exact sum_deviations_eq_zero hne Prod.fst
  have hy : (points.map fun p => p.2 - my).sum = 0 := by
    rw [← hmy]
    exact sum_deviations_eq_zero hne Prod.snd
  -- the error at a point, in deviations from the means
  have hexpand : ∀ p : K × K, (p.2 - (a + b * p.1)) ^ 2 =
      (p.2 - my) ^ 2 + (-2 * b) * ((p.1 - mx) * (p.2 - my)) + b ^ 2 * (p.1 - mx) ^ 2 +
        2 * (my - (a + b * mx)) * (p.2 - my) +
        (-2 * b * (my - (a + b * mx))) * (p.1 - mx) + (my - (a + b * mx)) ^ 2 := by
    intro p
    ring
  rw [sse, sxx, sxy, syy, hmx, hmy]
  simp only [hexpand, List.sum_map_add, List.sum_map_mul_left, hx, hy, List.map_const',
    List.sum_replicate, nsmul_eq_mul]
  ring

/-- The errors of a line through the means cancel out. -/
theorem sum_residuals_eq_zero {points : List (K × K)} (hne : points ≠ []) (b : K) :
    (points.map fun p => p.2 - (mean (points.map Prod.snd) - b * mean (points.map Prod.fst) +
      b * p.1)).sum = 0 := by
  have hexpand : ∀ p : K × K,
      p.2 - (mean (points.map Prod.snd) - b * mean (points.map Prod.fst) + b * p.1) =
        (p.2 - mean (points.map Prod.snd)) + -b * (p.1 - mean (points.map Prod.fst)) := by
    intro p
    ring
  simp only [hexpand, List.sum_map_add, List.sum_map_mul_left,
    sum_deviations_eq_zero hne Prod.fst, sum_deviations_eq_zero hne Prod.snd, mul_zero, add_zero]

theorem sxx_nonneg (points : List (K × K)) : 0 ≤ sxx points := by
  apply List.sum_nonneg
  rw [List.forall_mem_map]
  exact fun p _ => sq_nonneg _

/-- Without a spread of the abscissae, the products of the deviations are zero. -/
theorem sxy_eq_zero_of_sxx {points : List (K × K)} (h : sxx points = 0) : sxy points = 0 := by
  have hx : ∀ x ∈ points.map Prod.fst, x = mean (points.map Prod.fst) := by
    rw [← sum_sq_eq_zero_iff, List.map_map]
    exact h
  apply List.sum_eq_zero
  rw [List.forall_mem_map]
  intro p hp
  rw [hx p.1 (List.mem_map_of_mem hp), sub_self, zero_mul]

/-- No number of an interval is closer to `u` than the one `u` is clamped to. -/
theorem sq_clamp_sub_le {u lo hi b : K} (hlo : lo ≤ b) (hhi : b ≤ hi) :
    (min (max u lo) hi - u) ^ 2 ≤ (b - u) ^ 2 := by
  -- left of the interval, inside it, right of it
  rcases le_total u lo with hu | hu
  · rw [max_eq_right hu, min_eq_left (hlo.trans hhi)]
    exact pow_le_pow_left₀ (sub_nonneg.2 hu) (sub_le_sub_right hlo u) 2
  · rw [max_eq_left hu]
    rcases le_total u hi with hu' | hu'
    · rw [min_eq_left hu', sub_self, zero_pow two_ne_zero]
      exact sq_nonneg _
    · rw [min_eq_right hu', ← neg_sub u hi, ← neg_sub u b, neg_sq, neg_sq]
      exact pow_le_pow_left₀ (sub_nonneg.2 hu') (sub_le_sub_left hhi u) 2

/-- Through the means and with the slope of the interval that is closest to the best one, a line has
the least error of all lines with a slope of the interval. -/
theorem sse_le_of_clamped {points : List (K × K)} (hne : points ≠ []) {lo hi b : K}
    (hb : sxx points ≠ 0 → b = min (max (sxy points / sxx points) lo) hi) {a' b' : K}
    (hlo : lo ≤ b') (hhi : b' ≤ hi) :
    sse points (mean (points.map Prod.snd) - b * mean (points.map Prod.fst)) b ≤
      sse points a' b' := by
  rw [sse_eq hne, sse_eq hne, sub_add_cancel, sub_self, zero_pow two_ne_zero, mul_zero, add_zero]
  have hrest : 0 ≤ (points.length : K) *
      (mean (points.map Prod.snd) - (a' + b' * mean (points.map Prod.fst))) ^ 2 :=
    mul_nonneg (Nat.cast_nonneg _) (sq_nonneg _)
  by_cases hsxx : sxx points = 0
  · -- every slope is as good as any other
    rw [hsxx, sxy_eq_zero_of_sxx hsxx]
    linarith
  · have hpos : 0 < sxx points := lt_of_le_of_ne (sxx_nonneg points) (Ne.symm hsxx)
    -- in the slope the error is a parabola with its vertex at the unbounded best slope
    have hparabola : ∀ slope : K, syy points - 2 * slope * sxy points + slope ^ 2 * sxx points =
        syy points - sxy points ^ 2 / sxx points +
          sxx points * (slope - sxy points / sxx points) ^ 2 := by
      intro slope
      field_simp
      ring
    have hclosest := mul_le_mul_of_nonneg_left
      (sq_clamp_sub_le (u := sxy points / sxx points) hlo hhi) hpos.le
    rw [← hb hsxx] at hclosest
    rw [hparabola b, hparabola b']
    linarith

end LeastSquares
