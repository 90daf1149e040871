import Mathlib.Algebra.BigOperators.Field
import Mathlib.Algebra.Order.BigOperators.Ring.Finset
import Mathlib.Algebra.Order.Field.Basic
import Mathlib.Data.Fintype.BigOperators

/-!
# Sample covariances

Means and covariances of finitely many observations. The mean is linear and the covariance is
bilinear in its series, so that the covariance of two weighted series is the contraction of the
weights with the matrix of covariances (`cov_weighted`).
-/

namespace Covariance

variable {ι κ K : Type*} [Fintype ι] [Fintype κ] [Field K]

/-- The mean of the observations. -/
def mean (x : ι → K) : K := (∑ t, x t) / Fintype.card ι

/-- The sample covariance of two series, with one observation less as the divisor. -/
def cov (x y : ι → K) : K :=
  (∑ t, (x t - mean x) * (y t - mean y)) / ((Fintype.card ι : K) - 1)

/-- The sample variance. -/
def variance (x : ι → K) : K := (∑ t, (x t - mean x) ^ 2) / ((Fintype.card ι : K) - 1)

/-- The series of the weighted sums of others. -/
def weighted (w : κ → K) (x : κ → ι → K) (t : ι) : K := ∑ j, w j * x j t

/-- A series varies as it varies with itself. -/
theorem cov_self (x : ι → K) : cov x x = variance x := by
  simp only [cov, variance, pow_two]

/-- The mean of weighted sums is the weighted sum of the means. -/
theorem mean_weighted (w : κ → K) (x : κ → ι → K) :
    mean (weighted w x) = ∑ j, w j * mean (x j) := by
  simp only [mean, weighted]
  rw [Finset.sum_comm, Finset.sum_div]
  apply Finset.sum_congr rfl
  intro j _
  rw [← Finset.mul_sum, mul_div_assoc]

/-- So are the deviations from it. -/
theorem weighted_sub_mean (w : κ → K) (x : κ → ι → K) (t : ι) :
    weighted w x t - mean (weighted w x) = ∑ j, w j * (x j t - mean (x j)) := by
  rw [mean_weighted, weighted, ← Finset.sum_sub_distrib]
  exact Finset.sum_congr rfl fun j _ => (mul_sub _ _ _).symm

/-- The covariance of two weighted series, from the covariances of all pairs. -/
theorem cov_weighted (w v : κ → K) (x : κ → ι → K) :
    cov (weighted w x) (weighted v x) = ∑ j, ∑ l, w j * cov (x j) (x l) * v l := by
  have hproduct : ∀ t, (weighted w x t - mean (weighted w x)) *
      (weighted v x t - mean (weighted v x)) =
        ∑ j, ∑ l, w j * ((x j t - mean (x j)) * (x l t - mean (x l))) * v l := by
    intro t
    rw [weighted_sub_mean, weighted_sub_mean, Finset.sum_mul_sum]
    refine Finset.sum_congr rfl fun j _ => Finset.sum_congr rfl fun l _ => ?_
    ring
  -- the sum over the observations goes inside
  rw [cov, Finset.sum_congr rfl fun t _ => hproduct t, Finset.sum_comm, Finset.sum_div]
  refine Finset.sum_congr rfl fun j _ => ?_
  rw [Finset.sum_comm, Finset.sum_div]
  refine Finset.sum_congr rfl fun l _ => ?_
  rw [cov, ← Finset.sum_mul, ← Finset.mul_sum, mul_div_assoc', div_mul_eq_mul_div]

/-- A variance is not negative. -/
theorem variance_nonneg [LinearOrder K] [IsStrictOrderedRing K] (x : ι → K) : 0 ≤ variance x := by
  rcases isEmpty_or_nonempty ι with hempty | hnonempty
  · -- without observations everything is zero
    simp [variance]
  · have hcard : (1 : K) ≤ Fintype.card ι := Nat.one_le_cast.2 Fintype.card_pos
    exact div_nonneg (Finset.sum_nonneg fun t _ => sq_nonneg _) (sub_nonneg.2 hcard)

end Covariance
