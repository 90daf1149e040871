import TradingSimulator.Library.Covariance
import TradingSimulator.Library.SampleMoments
import Mathlib.Data.Matrix.Mul
import Mathlib.LinearAlgebra.Matrix.Notation

/-!
# The portfolio optimizer

The returns and risks that `optimize_portfolio` (`app/quant/optimizer.py`) computes for random
portfolios, in exact arithmetic and with the square root as a parameter. It works on the means and
the covariances of the assets; the results are the mean and the variance of the returns of the
portfolio itself (`einsum_eq_variance`).
-/

namespace TradingSimulator.Optimizer

section Definitions

variable {T k n : ℕ} {K : Type} [Field K]

def TRADING_DAYS : K := ((252 : ℕ) : K)

/-- `DEFAULT_RISK_FREE`. -/
def DEFAULT_RISK_FREE : K := ((2 : ℕ) : K) / ((100 : ℕ) : K)

/-- `returns.mean()` of pandas. -/
def columnMeans (returns : Matrix (Fin T) (Fin k) K) (j : Fin k) : K :=
  Covariance.mean fun t => returns t j

/-- `returns.cov()` of pandas. -/
def columnCov (returns : Matrix (Fin T) (Fin k) K) : Matrix (Fin k) (Fin k) K := fun i j =>
  Covariance.cov (fun t => returns t i) fun t => returns t j

/-- The annualized expected returns. -/
def mu (returns : Matrix (Fin T) (Fin k) K) (j : Fin k) : K := columnMeans returns j * TRADING_DAYS

/-- The annualized covariances. -/
def sig (returns : Matrix (Fin T) (Fin k) K) : Matrix (Fin k) (Fin k) K := fun i j =>
  columnCov returns i j * TRADING_DAYS

/-- `np.einsum("ij,jk,ik->i", W, sig, W)`. -/
def einsum (W : Matrix (Fin n) (Fin k) K) (sig : Matrix (Fin k) (Fin k) K) (i : Fin n) : K :=
  ∑ j, ∑ l, W i j * sig j l * W i l

/-- `W /= W.sum(axis=1, keepdims=True)`. -/
def normalize (W : Matrix (Fin n) (Fin k) K) : Matrix (Fin n) (Fin k) K := fun i j =>
  W i j / ∑ l, W i l

/-- `W @ mu`. -/
def rets (W : Matrix (Fin n) (Fin k) K) (returns : Matrix (Fin T) (Fin k) K) (i : Fin n) : K :=
  ∑ j, W i j * mu returns j

variable [LinearOrder K]

/-- The volatilities, where that of a negative variance and one that is not positive are NaN. -/
def vols (sqrt : K → K) (W : Matrix (Fin n) (Fin k) K) (returns : Matrix (Fin T) (Fin k) K)
    (i : Fin n) : Option K :=
  let radicand := einsum W (sig returns) i
  if radicand < 0 ∨ sqrt radicand ≤ 0 then none else some (sqrt radicand)

/-- What `optimize_portfolio` computes for every portfolio. -/
structure Frontier (n : ℕ) (K : Type) where
  rets : Fin n → K
  vols : Fin n → Option K
  sharpe : Fin n → Option K

/-- `optimize_portfolio`, from the drawn weights up to the arrays it chooses from. -/
def optimizePortfolio (sqrt : K → K) (draws : Matrix (Fin n) (Fin k) K)
    (returns : Matrix (Fin T) (Fin k) K) (riskFree : K := DEFAULT_RISK_FREE) : Frontier n K :=
  let W := normalize draws
  { rets := rets W returns
    vols := vols sqrt W returns
    sharpe := fun i =>
      (vols sqrt W returns i).map fun vol => (rets W returns i - riskFree) / vol }

end Definitions

section Portfolio

variable {T k n : ℕ} {K : Type} [Field K]

/-- The returns of a portfolio: `returns @ w`. -/
def portfolioReturns (returns : Matrix (Fin T) (Fin k) K) (w : Fin k → K) : Fin T → K :=
  returns.mulVec w

/-- The returns of a portfolio are the weighted ones of its assets. -/
theorem portfolioReturns_eq (returns : Matrix (Fin T) (Fin k) K) (w : Fin k → K) :
    portfolioReturns returns w = Covariance.weighted w fun j t => returns t j := by
  ext t
  show ∑ j, returns t j * w j = ∑ j, w j * returns t j
  exact Finset.sum_congr rfl fun j _ => mul_comm (returns t j) (w j)

/-- The expected return of a portfolio is that of its own returns. -/
theorem rets_eq_mean (W : Matrix (Fin n) (Fin k) K) (returns : Matrix (Fin T) (Fin k) K)
    (i : Fin n) :
    rets W returns i = TRADING_DAYS * Covariance.mean (portfolioReturns returns (W i)) := by
  rw [portfolioReturns_eq, Covariance.mean_weighted, rets, Finset.mul_sum]
  refine Finset.sum_congr rfl fun j _ => ?_
  rw [mu, columnMeans]
  ring

/-- The contraction of the weights with the covariances is the variance of the portfolio. -/
theorem einsum_eq_variance (W : Matrix (Fin n) (Fin k) K) (returns : Matrix (Fin T) (Fin k) K)
    (i : Fin n) :
    einsum W (sig returns) i =
      TRADING_DAYS * Covariance.variance (portfolioReturns returns (W i)) := by
  rw [portfolioReturns_eq, ← Covariance.cov_self, Covariance.cov_weighted, einsum, Finset.mul_sum]
  refine Finset.sum_congr rfl fun j _ => ?_
  rw [Finset.mul_sum]
  refine Finset.sum_congr rfl fun l _ => ?_
  rw [sig, columnCov]
  ring

variable [LinearOrder K] [IsStrictOrderedRing K]

theorem TRADING_DAYS_pos : (0 : K) < TRADING_DAYS := Nat.cast_pos.2 (by decide)

/-- The expected return and the risk of every portfolio are the mean and the variance of its own
returns over a year, and no variance is negative. -/
theorem portfolio_risk (returns : Matrix (Fin T) (Fin k) K) (W : Matrix (Fin n) (Fin k) K)
    (i : Fin n) :
    rets W returns i = TRADING_DAYS * Covariance.mean (portfolioReturns returns (W i)) ∧
      einsum W (sig returns) i =
        TRADING_DAYS * Covariance.variance (portfolioReturns returns (W i)) ∧
      0 ≤ einsum W (sig returns) i := by
  refine ⟨rets_eq_mean W returns i, einsum_eq_variance W returns i, ?_⟩
  rw [einsum_eq_variance]
  exact mul_nonneg TRADING_DAYS_pos.le (Covariance.variance_nonneg _)

/-- Two assets over two days, in equal parts. -/
theorem portfolio_risk_equalWeights :
    rets !![(1 / 2 : ℚ), 1 / 2] !![1 / 100, 3 / 100; 2 / 100, -1 / 100] 0 =
        TRADING_DAYS * Covariance.mean
          (portfolioReturns !![1 / 100, 3 / 100; 2 / 100, -1 / 100] ![(1 / 2 : ℚ), 1 / 2]) ∧
      einsum !![(1 / 2 : ℚ), 1 / 2] (sig !![1 / 100, 3 / 100; 2 / 100, -1 / 100]) 0 =
        TRADING_DAYS * Covariance.variance
          (portfolioReturns !![1 / 100, 3 / 100; 2 / 100, -1 / 100] ![(1 / 2 : ℚ), 1 / 2]) ∧
      0 ≤ einsum !![(1 / 2 : ℚ), 1 / 2] (sig !![1 / 100, 3 / 100; 2 / 100, -1 / 100]) 0 :=
  portfolio_risk !![1 / 100, 3 / 100; 2 / 100, -1 / 100] !![1 / 2, 1 / 2] 0

/-- No volatility is NaN because of a negative variance: it is NaN only for a portfolio whose
returns do not vary. -/
theorem vols_eq_none_iff {sqrt : K → K} (hsqrt : SampleMoments.IsSqrt sqrt)
    (W : Matrix (Fin n) (Fin k) K) (returns : Matrix (Fin T) (Fin k) K) (i : Fin n) :
    vols sqrt W returns i = none ↔ Covariance.variance (portfolioReturns returns (W i)) = 0 := by
  have hnonneg : 0 ≤ einsum W (sig returns) i := by
    rw [einsum_eq_variance]
    exact mul_nonneg TRADING_DAYS_pos.le (Covariance.variance_nonneg _)
  have hroot : sqrt (einsum W (sig returns) i) ≤ 0 ↔
      Covariance.variance (portfolioReturns returns (W i)) = 0 := by
    rw [le_antisymm_iff.trans (and_iff_left (hsqrt.nonneg _)) |>.symm, hsqrt.eq_zero_iff hnonneg,
      einsum_eq_variance, mul_eq_zero, or_iff_right TRADING_DAYS_pos.ne']
  rw [vols]
  split
  · rename_i h
    exact iff_of_true rfl (hroot.1 (h.resolve_left (not_lt.2 hnonneg)))
  · rename_i h
    exact iff_of_false (by simp) fun hzero => h (Or.inr (hroot.2 hzero))

/-- The Sharpe ratio of a portfolio is NaN only where its returns do not vary. -/
theorem sharpe_eq_none_iff {sqrt : K → K} (hsqrt : SampleMoments.IsSqrt sqrt)
    (draws : Matrix (Fin n) (Fin k) K) (returns : Matrix (Fin T) (Fin k) K) (riskFree : K)
    (i : Fin n) :
    (optimizePortfolio sqrt draws returns riskFree).sharpe i = none ↔
      Covariance.variance (portfolioReturns returns (normalize draws i)) = 0 := by
  rw [← vols_eq_none_iff hsqrt]
  exact Option.map_eq_none_iff

end Portfolio

end TradingSimulator.Optimizer
