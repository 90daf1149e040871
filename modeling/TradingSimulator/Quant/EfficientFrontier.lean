import TradingSimulator.Library.Rounding
import TradingSimulator.Quant.Optimizer
import Mathlib.Data.Finset.Sort
import Mathlib.Data.List.MinMax

/-!
# The efficient frontier

What `optimize_portfolio` (`app/quant/optimizer.py`) answers from its arrays: the portfolio with the
greatest Sharpe ratio, the one with the least volatility, and a sample of all of them for the
client. NaN is `none`, in the arrays and in the answer.

The answer is there unless no portfolio has returns that vary, nothing in it is NaN, and the sample
keeps both optima, which are optimal among all portfolios that were drawn (`optimize_spec`).
-/

namespace TradingSimulator.Optimizer

open Rounding SampleMoments

section Choice

variable {n : ℕ} {K : Type} {xs : Fin n → Option K}

/-- The indices of the entries that are not NaN. -/
def notNan (xs : Fin n → Option K) : List (Fin n) := (List.finRange n).filter fun i => (xs i).isSome

theorem mem_notNan {i : Fin n} : i ∈ notNan xs ↔ (xs i).isSome := by
  simp [notNan]

theorem notNan_eq_nil_iff : notNan xs = [] ↔ ∀ i, xs i = none := by
  simp [notNan, List.filter_eq_nil_iff]

variable [LinearOrder K] [Zero K]

/-- `np.nanargmax`, which raises when every entry is NaN. -/
def nanargmax (xs : Fin n → Option K) : Option (Fin n) := (notNan xs).argmax fun i => (xs i).getD 0

/-- `np.nanargmin`. -/
def nanargmin (xs : Fin n → Option K) : Option (Fin n) := (notNan xs).argmin fun i => (xs i).getD 0

theorem nanargmax_eq_none_iff : nanargmax xs = none ↔ ∀ i, xs i = none := by
  rw [nanargmax, List.argmax_eq_none, notNan_eq_nil_iff]

theorem nanargmin_eq_none_iff : nanargmin xs = none ↔ ∀ i, xs i = none := by
  rw [nanargmin, List.argmin_eq_none, notNan_eq_nil_iff]

/-- The entry that is chosen is not NaN and the greatest one that is not. -/
theorem nanargmax_spec {i : Fin n} (h : nanargmax xs = some i) :
    ∃ x, xs i = some x ∧ ∀ j y, xs j = some y → y ≤ x := by
  obtain ⟨x, hx⟩ := Option.isSome_iff_exists.mp (mem_notNan.mp (List.argmax_mem h))
  refine ⟨x, hx, fun j y hy => ?_⟩
  have hle := List.le_of_mem_argmax (mem_notNan.mpr (Option.isSome_of_mem hy)) h
  simpa [hx, hy] using hle

/-- `np.nanargmin` points at a number that is the least one. -/
theorem nanargmin_spec {i : Fin n} (h : nanargmin xs = some i) :
    ∃ x, xs i = some x ∧ ∀ j y, xs j = some y → x ≤ y := by
  obtain ⟨x, hx⟩ := Option.isSome_iff_exists.mp (mem_notNan.mp (List.argmin_mem h))
  refine ⟨x, hx, fun j y hy => ?_⟩
  have hle := List.le_of_mem_argmin (mem_notNan.mpr (Option.isSome_of_mem hy)) h
  simpa [hx, hy] using hle

end Choice

section Definitions

/-- `_MAX_FRONTIER_POINTS`. -/
def MAX_FRONTIER_POINTS : ℕ := 2500

/-- A portfolio of the answer, with annual figures in percent. -/
structure Portfolio (k : ℕ) (K : Type) where
  ret : K
  volatility : Option K
  sharpe : Option K
  weights : Fin k → K

/-- A point of the scatter plot. -/
structure FrontierPoint (K : Type) where
  vol : K
  ret : K
  sharpe : Option K

structure Optimization (k : ℕ) (K : Type) where
  nPortfolios : ℕ
  riskFree : K
  frontier : List (FrontierPoint K)
  maxSharpe : Portfolio k K
  minVol : Portfolio k K

variable {T k n : ℕ} {K : Type} [Field K] [LinearOrder K] [FloorRing K]

/-- `_portfolio`. -/
def portfolio (W : Matrix (Fin n) (Fin k) K) (arrays : Frontier n K) (idx : Fin n) :
    Portfolio k K where
  ret := roundTo 2 (arrays.rets idx * (100 : ℕ))
  volatility := (arrays.vols idx).map fun vol => roundTo 2 (vol * (100 : ℕ))
  sharpe := (arrays.sharpe idx).map (roundTo 3)
  weights := fun j => roundTo 2 (W idx j * (100 : ℕ))

/-- `sample_idx`, where `choice` is the draw without replacement. -/
def sampleIdx (choice : List (Fin n)) (maxI minI : Fin n) : List (Fin n) :=
  if MAX_FRONTIER_POINTS < n then (choice ++ [maxI, minI]).toFinset.sort else List.finRange n

/-- `frontier`. -/
def frontier (arrays : Frontier n K) (sample : List (Fin n)) : List (FrontierPoint K) :=
  sample.filterMap fun i => (arrays.vols i).map fun vol =>
    { vol := roundTo 3 (vol * (100 : ℕ))
      ret := roundTo 3 (arrays.rets i * (100 : ℕ))
      sharpe := (arrays.sharpe i).map (roundTo 3) }

/-- `optimize_portfolio`, from the drawn weights on. -/
def optimize (sqrt : K → K) (draws : Matrix (Fin n) (Fin k) K) (choice : List (Fin n))
    (returns : Matrix (Fin T) (Fin k) K) (riskFree : K := DEFAULT_RISK_FREE) :
    Option (Optimization k K) := do
  let arrays := optimizePortfolio sqrt draws returns riskFree
  let maxI ← nanargmax arrays.sharpe
  let minI ← nanargmin arrays.vols
  some
    { nPortfolios := n
      riskFree
      frontier := frontier arrays (sampleIdx choice maxI minI)
      maxSharpe := portfolio (normalize draws) arrays maxI
      minVol := portfolio (normalize draws) arrays minI }

end Definitions

/-! ### What the answer is about -/

section Portfolios

variable {T k : ℕ} {K : Type} [Field K]

/-- The mean of the returns of a portfolio over a year. -/
def expectedReturn (returns : Matrix (Fin T) (Fin k) K) (w : Fin k → K) : K :=
  TRADING_DAYS * Covariance.mean (portfolioReturns returns w)

/-- The standard deviation of the returns of a portfolio over a year. -/
def risk (sqrt : K → K) (returns : Matrix (Fin T) (Fin k) K) (w : Fin k → K) : K :=
  sqrt (TRADING_DAYS * Covariance.variance (portfolioReturns returns w))

/-- The expected return above the risk-free one, for the risk that is taken. -/
def sharpeRatio (sqrt : K → K) (returns : Matrix (Fin T) (Fin k) K) (riskFree : K) (w : Fin k → K) :
    K :=
  (expectedReturn returns w - riskFree) / risk sqrt returns w

variable [LinearOrder K] [FloorRing K]

/-- A portfolio by its weights. -/
def Portfolio.ofWeights (sqrt : K → K) (returns : Matrix (Fin T) (Fin k) K) (riskFree : K)
    (w : Fin k → K) : Portfolio k K where
  ret := roundTo 2 (expectedReturn returns w * (100 : ℕ))
  volatility := some (roundTo 2 (risk sqrt returns w * (100 : ℕ)))
  sharpe := some (roundTo 3 (sharpeRatio sqrt returns riskFree w))
  weights := fun j => roundTo 2 (w j * (100 : ℕ))

/-- The point of a portfolio in the scatter plot. -/
def FrontierPoint.ofWeights (sqrt : K → K) (returns : Matrix (Fin T) (Fin k) K) (riskFree : K)
    (w : Fin k → K) : FrontierPoint K where
  vol := roundTo 3 (risk sqrt returns w * (100 : ℕ))
  ret := roundTo 3 (expectedReturn returns w * (100 : ℕ))
  sharpe := some (roundTo 3 (sharpeRatio sqrt returns riskFree w))

/-- An answer about the portfolios `W`. Both optima are optimal among all of them that take a risk,
and points of the frontier, which are all points of such portfolios. -/
structure IsFrontierOf {n : ℕ} (sqrt : K → K) (returns : Matrix (Fin T) (Fin k) K) (riskFree : K)
    (W : Matrix (Fin n) (Fin k) K) (best safest : Fin n) (answer : Optimization k K) : Prop where
  maxSharpe : answer.maxSharpe = .ofWeights sqrt returns riskFree (W best)
  minVol : answer.minVol = .ofWeights sqrt returns riskFree (W safest)
  isGreatest : ∀ i, 0 < risk sqrt returns (W i) →
    sharpeRatio sqrt returns riskFree (W i) ≤ sharpeRatio sqrt returns riskFree (W best)
  isLeast : ∀ i, 0 < risk sqrt returns (W i) →
    risk sqrt returns (W safest) ≤ risk sqrt returns (W i)
  mem_best : .ofWeights sqrt returns riskFree (W best) ∈ answer.frontier
  mem_safest : .ofWeights sqrt returns riskFree (W safest) ∈ answer.frontier
  points : ∀ point ∈ answer.frontier, ∃ i, 0 < risk sqrt returns (W i) ∧
    point = .ofWeights sqrt returns riskFree (W i)
  length_le : answer.frontier.length ≤ MAX_FRONTIER_POINTS + 2

end Portfolios

section Answer

variable {T k n : ℕ} {K : Type} [Field K] [LinearOrder K] [IsStrictOrderedRing K]
  {sqrt : K → K} {draws W : Matrix (Fin n) (Fin k) K} {returns : Matrix (Fin T) (Fin k) K}
  {riskFree : K}

/-- The draws are normalised to long-only portfolios that are invested in full. -/
theorem normalize_mem_simplex (hdraws : ∀ i j, 0 ≤ draws i j) (hrows : ∀ i, 0 < ∑ j, draws i j)
    (i : Fin n) : (∀ j, 0 ≤ normalize draws i j) ∧ ∑ j, normalize draws i j = 1 := by
  constructor
  · intro j
    exact div_nonneg (hdraws i j) (hrows i).le
  · simp only [normalize]
    rw [← Finset.sum_div, div_self (hrows i).ne']

/-- The volatility of the array, NaN where there is none. -/
theorem vols_eq (i : Fin n) :
    vols sqrt W returns i =
      if 0 < risk sqrt returns (W i) then some (risk sqrt returns (W i)) else none := by
  have hnonneg : 0 ≤ TRADING_DAYS * Covariance.variance (portfolioReturns returns (W i)) :=
    mul_nonneg TRADING_DAYS_pos.le (Covariance.variance_nonneg _)
  rw [vols]
  simp only [einsum_eq_variance, hnonneg.not_gt, false_or, ← not_lt, ite_not]
  rfl

/-- The Sharpe ratio of the array, NaN where there is no volatility. -/
theorem sharpe_eq (i : Fin n) :
    (optimizePortfolio sqrt draws returns riskFree).sharpe i =
      if 0 < risk sqrt returns (normalize draws i) then
        some (sharpeRatio sqrt returns riskFree (normalize draws i))
      else none := by
  simp only [optimizePortfolio, vols_eq, rets_eq_mean]
  split_ifs <;> rfl

/-- The portfolio with the greatest Sharpe ratio takes a risk. -/
theorem isGreatest_of_nanargmax {maxI : Fin n}
    (h : nanargmax (optimizePortfolio sqrt draws returns riskFree).sharpe = some maxI) :
    0 < risk sqrt returns (normalize draws maxI) ∧
      ∀ i, 0 < risk sqrt returns (normalize draws i) →
        sharpeRatio sqrt returns riskFree (normalize draws i) ≤
          sharpeRatio sqrt returns riskFree (normalize draws maxI) := by
  obtain ⟨x, hx, hgreatest⟩ := nanargmax_spec h
  rw [sharpe_eq] at hx
  obtain ⟨hrisk, hsome⟩ := Option.ite_none_right_eq_some.mp hx
  obtain rfl := Option.some.inj hsome
  refine ⟨hrisk, fun i hi => hgreatest i _ ?_⟩
  rw [sharpe_eq, if_pos hi]

/-- So does the portfolio with the least volatility. -/
theorem isLeast_of_nanargmin {minI : Fin n}
    (h : nanargmin (optimizePortfolio sqrt draws returns riskFree).vols = some minI) :
    0 < risk sqrt returns (normalize draws minI) ∧
      ∀ i, 0 < risk sqrt returns (normalize draws i) →
        risk sqrt returns (normalize draws minI) ≤ risk sqrt returns (normalize draws i) := by
  obtain ⟨x, hx, hleast⟩ := nanargmin_spec h
  simp only [optimizePortfolio] at hx hleast
  rw [vols_eq] at hx
  obtain ⟨hrisk, hsome⟩ := Option.ite_none_right_eq_some.mp hx
  obtain rfl := Option.some.inj hsome
  refine ⟨hrisk, fun i hi => hleast i _ ?_⟩
  rw [vols_eq, if_pos hi]

variable [FloorRing K]

/-- The arrays hold the numbers of a portfolio that takes a risk. -/
theorem portfolio_eq {i : Fin n} (hrisk : 0 < risk sqrt returns (normalize draws i)) :
    portfolio (normalize draws) (optimizePortfolio sqrt draws returns riskFree) i =
      .ofWeights sqrt returns riskFree (normalize draws i) := by
  rw [portfolio, sharpe_eq, if_pos hrisk]
  simp only [optimizePortfolio, vols_eq, if_pos hrisk, rets_eq_mean]
  rfl

/-- The frontier has the points of those portfolios in the sample that take a risk. -/
theorem mem_frontier_iff {sample : List (Fin n)} {point : FrontierPoint K} :
    point ∈ frontier (optimizePortfolio sqrt draws returns riskFree) sample ↔
      ∃ i ∈ sample, 0 < risk sqrt returns (normalize draws i) ∧
        point = .ofWeights sqrt returns riskFree (normalize draws i) := by
  rw [frontier, List.mem_filterMap]
  refine exists_congr fun i => and_congr_right fun _ => ?_
  rw [sharpe_eq]
  simp only [optimizePortfolio, vols_eq, rets_eq_mean]
  by_cases hrisk : 0 < risk sqrt returns (normalize draws i)
  · simp only [hrisk, ↓reduceIte, Option.map_some, Option.some.injEq, true_and]
    exact eq_comm
  · simp [hrisk]

/-- The sample keeps both optima. -/
theorem mem_sampleIdx {choice : List (Fin n)} {maxI minI : Fin n} :
    maxI ∈ sampleIdx choice maxI minI ∧ minI ∈ sampleIdx choice maxI minI := by
  rw [sampleIdx]
  split_ifs <;> simp

/-- The two optima come on top of the draw. -/
theorem length_sampleIdx_le {choice : List (Fin n)}
    (hchoice : MAX_FRONTIER_POINTS < n → choice.length = MAX_FRONTIER_POINTS) (maxI minI : Fin n) :
    (sampleIdx choice maxI minI).length ≤ MAX_FRONTIER_POINTS + 2 := by
  rw [sampleIdx]
  split_ifs with hn
  · rw [Finset.length_sort]
    refine (List.toFinset_card_le _).trans ?_
    simp [hchoice hn]
  · rw [List.length_finRange]
    omega

/-- What is answered when both choices succeed. -/
theorem isFrontierOf {choice : List (Fin n)}
    (hchoice : MAX_FRONTIER_POINTS < n → choice.length = MAX_FRONTIER_POINTS) {maxI minI : Fin n}
    (hmax : nanargmax (optimizePortfolio sqrt draws returns riskFree).sharpe = some maxI)
    (hmin : nanargmin (optimizePortfolio sqrt draws returns riskFree).vols = some minI) :
    IsFrontierOf sqrt returns riskFree (normalize draws) maxI minI
      { nPortfolios := n
        riskFree
        frontier := frontier (optimizePortfolio sqrt draws returns riskFree)
          (sampleIdx choice maxI minI)
        maxSharpe :=
          portfolio (normalize draws) (optimizePortfolio sqrt draws returns riskFree) maxI
        minVol :=
          portfolio (normalize draws) (optimizePortfolio sqrt draws returns riskFree) minI } where
  maxSharpe := portfolio_eq (isGreatest_of_nanargmax hmax).1
  minVol := portfolio_eq (isLeast_of_nanargmin hmin).1
  isGreatest := (isGreatest_of_nanargmax hmax).2
  isLeast := (isLeast_of_nanargmin hmin).2
  mem_best :=
    mem_frontier_iff.mpr ⟨maxI, mem_sampleIdx.1, (isGreatest_of_nanargmax hmax).1, rfl⟩
  mem_safest := mem_frontier_iff.mpr ⟨minI, mem_sampleIdx.2, (isLeast_of_nanargmin hmin).1, rfl⟩
  points point hpoint := by
    -- a portfolio without a volatility is not shown
    obtain ⟨i, -, hrisk, hof⟩ := mem_frontier_iff.mp hpoint
    exact ⟨i, hrisk, hof⟩
  length_le := (List.length_filterMap_le _ _).trans (length_sampleIdx_le hchoice maxI minI)

/-- The answer of the optimizer. There is none exactly when the returns of no portfolio vary; all of
it is about long-only portfolios that are invested in full, and their own returns; and both optima
are on the frontier and optimal among everything that was drawn. -/
theorem optimize_spec (hsqrt : IsSqrt sqrt) (hdraws : ∀ i j, 0 ≤ draws i j)
    (hrows : ∀ i, 0 < ∑ j, draws i j) {choice : List (Fin n)}
    (hchoice : MAX_FRONTIER_POINTS < n → choice.length = MAX_FRONTIER_POINTS)
    (returns : Matrix (Fin T) (Fin k) K) (riskFree : K) :
    (∀ i, (∀ j, 0 ≤ normalize draws i j) ∧ ∑ j, normalize draws i j = 1) ∧
    (optimize sqrt draws choice returns riskFree = none ↔
      ∀ i, Covariance.variance (portfolioReturns returns (normalize draws i)) = 0) ∧
    ∀ answer, optimize sqrt draws choice returns riskFree = some answer →
      ∃ best safest, IsFrontierOf sqrt returns riskFree (normalize draws) best safest answer := by
  refine ⟨normalize_mem_simplex hdraws hrows, ?_, ?_⟩
  · have hmax : nanargmax (optimizePortfolio sqrt draws returns riskFree).sharpe = none ↔
        ∀ i, Covariance.variance (portfolioReturns returns (normalize draws i)) = 0 := by
      rw [nanargmax_eq_none_iff]
      exact forall_congr' fun i => sharpe_eq_none_iff hsqrt draws returns riskFree i
    have hmin : nanargmin (optimizePortfolio sqrt draws returns riskFree).vols = none ↔
        ∀ i, Covariance.variance (portfolioReturns returns (normalize draws i)) = 0 := by
      rw [nanargmin_eq_none_iff]
      exact forall_congr' fun i => vols_eq_none_iff hsqrt (normalize draws) returns i
    rw [← hmax]
    -- the two choices raise for the same portfolios
    rcases hchosen : nanargmax (optimizePortfolio sqrt draws returns riskFree).sharpe with _ | maxI
    · simp [optimize, hchosen]
    · rcases hleast : nanargmin (optimizePortfolio sqrt draws returns riskFree).vols with _ | minI
      · have hnone := hmax.mpr (hmin.mp hleast)
        exact absurd (hchosen.symm.trans hnone) (by simp)
      · simp [optimize, hchosen, hleast]
  · intro answer hanswer
    simp only [optimize, Option.bind_eq_bind, Option.bind_eq_some_iff] at hanswer
    obtain ⟨maxI, hmax, minI, hmin, hanswer⟩ := hanswer
    obtain rfl := Option.some.inj hanswer
    exact ⟨maxI, minI, isFrontierOf hchoice hmax hmin⟩

/-- Three thousand portfolios of two assets over two days, the first 2500 in the sample. -/
theorem optimize_manyPortfolios :
    let draws : Matrix (Fin 3000) (Fin 2) ℝ := fun i j => if j = 0 then (i : ℕ) + 1 else 1
    let choice := (List.finRange 3000).take 2500
    let returns : Matrix (Fin 2) (Fin 2) ℝ := !![1 / 100, 3 / 100; 2 / 100, -1 / 100]
    (∀ i, (∀ j, 0 ≤ normalize draws i j) ∧ ∑ j, normalize draws i j = 1) ∧
    (optimize Real.sqrt draws choice returns DEFAULT_RISK_FREE = none ↔
      ∀ i, Covariance.variance (portfolioReturns returns (normalize draws i)) = 0) ∧
    ∀ answer, optimize Real.sqrt draws choice returns DEFAULT_RISK_FREE = some answer →
      ∃ best safest, IsFrontierOf Real.sqrt returns DEFAULT_RISK_FREE (normalize draws) best safest
        answer := by
  intro draws choice returns
  refine optimize_spec isSqrt_real ?_ ?_ (fun _ => ?_) returns DEFAULT_RISK_FREE
  · intro i j
    simp only [draws]
    split_ifs
    · positivity
    · exact zero_le_one
  · intro i
    simp only [draws, Fin.sum_univ_two, ↓reduceIte, one_ne_zero]
    positivity
  · simp [choice, MAX_FRONTIER_POINTS]

end Answer

end TradingSimulator.Optimizer
