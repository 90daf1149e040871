import TradingSimulator.Library.Compounding
import TradingSimulator.Library.ExtSeries
import TradingSimulator.Quant.SignalEngine
import Mathlib.Tactic.Linarith
import Mathlib.Tactic.Positivity

/-!
# Finite signals

`SignalEngine._compute` (`app/quant/signal_engine.py`, with the factors of `app/quant/factors`) in
arithmetic with the IEEE special values. It admits frames with 20 rows. A change over 20 rows and a
window of 20 changes need 21, and the deviation from a mean is divided by a standard deviation that
is zero when the last 20 closes are equal (`compute_finite_iff`).
-/

namespace TradingSimulator.SignalEngine

open ExtNum

section Compute

variable {K : Type} [Field K] [LinearOrder K]

/-- The quotient of two literals. -/
def decimal (numerator denominator : ℕ) : ExtNum K := fin ((numerator : K) / (denominator : K))

/-! ### The factors -/

/-- `trend_factor`. -/
def trendFactor (close : List (ExtNum K)) : ExtNum K :=
  let shortMa := rolling 5 mean close
  let longMa := rolling 20 mean close
  let difference := List.zipWith (fun short long => short - long) shortMa longMa
  last (List.zipWith (fun difference long => difference / long) difference longMa)

/-- `mean_reversion_factor`. -/
def meanReversionFactor (sqrt : K → K) (close : List (ExtNum K)) : ExtNum K :=
  let mean := rolling 20 ExtNum.mean close
  let std := rolling 20 (ExtNum.std sqrt 1) close
  let deviation := List.zipWith (fun close mean => close - mean) close mean
  let score := -last (List.zipWith (fun deviation std => deviation / std) deviation std)
  score

/-- `momentum_factor`. -/
def momentumFactor (close : List (ExtNum K)) : ExtNum K := last (ExtNum.pctChange 20 close)

/-- `volatility_factor`. -/
def volatilityFactor (sqrt : K → K) (close : List (ExtNum K)) : ExtNum K :=
  last (rolling 20 (ExtNum.std sqrt 1) (ExtNum.pctChange 1 close))

/-- `_compute_factors`, from all columns with the name `close`: with more than one, the factors are
no numbers and `float` raises. -/
def computeFactors (sqrt : K → K) : List (List (ExtNum K)) → Factors (ExtNum K)
  | [close] =>
    { trend := trendFactor close
      meanReversion := meanReversionFactor sqrt close
      momentum := momentumFactor close
      volatility := volatilityFactor sqrt close }
  | _ => { trend := fin 0, meanReversion := fin 0, momentum := fin 0, volatility := fin 0 }

/-! ### The risk metrics -/

/-- `_close_series`: the first of the columns. -/
def closeSeries (closes : List (List (ExtNum K))) : List (ExtNum K) :=
  (closes.headD []).filter fun x => !x.isNan

/-- `_compute_risk`, with the special values. -/
def computeRiskExt (sqrt : K → K) (close : List (ExtNum K)) : RiskMetrics (ExtNum K) :=
  let returns := (ExtNum.pctChange 1 close).filter fun x => !x.isNan
  if returns.length < 10 then
    { sharpeRatio := fin 0, maxDrawdown := fin 0, volatility := fin 0, beta := fin 1 }
  else
    let std := ExtNum.std sqrt 1 returns
    let year := ExtNum.sqrt sqrt (fin ((252 : ℕ) : K))
    let sharpe := if fin 0 < std then mean returns / std * year else fin 0
    let cum := Series.scan (fun a b => a * b) (fin 1) (returns.map fun r => fin 1 + r)
    let dd := List.zipWith (fun cum peak => (cum - peak) / peak) cum (cummax cum)
    { sharpeRatio := sharpe
      maxDrawdown := nanMin dd
      volatility := std * year
      beta := fin 1 }

/-! ### The signal -/

/-- `_combine`. -/
def combine (sqrt : K → K) (f : Factors (ExtNum K)) (ml : ExtNum K)
    (r : RiskMetrics (ExtNum K)) : Signal × ExtNum K × Scores (ExtNum K) :=
  let factorScore :=
    decimal 25 100 * f.trend + decimal 20 100 * f.meanReversion + decimal 30 100 * f.momentum
  let finalScore := decimal 6 10 * factorScore + decimal 4 10 * ml
  let riskPenalty := minOf (r.volatility * decimal 1 10) (decimal 2 10)
  let adjustedScore := finalScore * (fin 1 - riskPenalty)
  let deviation := ExtNum.std sqrt 0 [f.trend, f.meanReversion, f.momentum, f.volatility]
  let agreement := maxOf (fin 0) (minOf (fin 1 - deviation) (fin 1))
  let hundred := fin ((100 : ℕ) : K)
  let confidence := maxOf (fin 0) (minOf (adjustedScore.abs * hundred * agreement) hundred)
  let signal :=
    if decimal 8 100 < adjustedScore then Signal.buy
    else if adjustedScore < -decimal 8 100 then Signal.sell
    else Signal.hold
  (signal, confidence,
    .combined factorScore ml adjustedScore riskPenalty agreement)

/-- A price frame, with NaN for a missing value. -/
structure Frame (α : Type) where
  columns : List String
  rows : List (List α)
  rows_length : ∀ row ∈ rows, row.length = columns.length

/-- `df.dropna()`. -/
def Frame.dropna (df : Frame (ExtNum K)) : List (List (ExtNum K)) :=
  df.rows.filter fun row => row.all fun x => !x.isNan

/-- The validation of `_compute`. What passes it is left with its columns of the name `close`, after
the names have been lowered and the rows with missing values dropped. -/
def validated : Option (Frame (ExtNum K)) → Option (List (List (ExtNum K)))
  | none => none
  | some df =>
    if df.columns.isEmpty || df.rows.isEmpty then none
    else if "close" ∉ df.columns.map String.toLower then none
    else if df.dropna.length < 20 then none
    else
      some ((df.columns.zipIdx.filter fun column => column.1.toLower = "close").map fun column =>
        df.dropna.map fun row => row.getD column.2 .nan)

/-- `_compute` on a fetched frame, where `ml` is what `_ml` returns. -/
def compute (sqrt : K → K) (ml : ExtNum K) (symbol : String) (timestamp : ℤ)
    (df : Option (Frame (ExtNum K))) : SignalResult (ExtNum K) :=
  match validated df with
  | none => fallback symbol timestamp
  | some closes =>
    let factors := computeFactors sqrt closes
    let riskMetrics := computeRiskExt sqrt (closeSeries closes)
    let (signal, confidence, scores) := combine sqrt factors ml riskMetrics
    { symbol, signal, confidence, scores, factors, riskMetrics, timestamp }

end Compute

/-! ### Finite closes -/

section FiniteCloses

variable {K : Type} [Field K] [LinearOrder K] [IsStrictOrderedRing K]

/-- The last `w` closes. -/
def lastCloses (w : ℕ) (close : List K) : List K := close.drop (close.length - w)

omit [Field K] [LinearOrder K] [IsStrictOrderedRing K] in
theorem length_lastCloses {w : ℕ} {close : List K} (hle : w ≤ close.length) :
    (lastCloses w close).length = w := by
  rw [lastCloses, List.length_drop]
  omega

omit [Field K] [LinearOrder K] [IsStrictOrderedRing K] in
theorem lastCloses_ne_nil {w : ℕ} (hw : 0 < w) {close : List K} (hle : w ≤ close.length) :
    lastCloses w close ≠ [] :=
  List.ne_nil_of_length_pos (by rw [length_lastCloses hle]; exact hw)

variable {close : List K} (h20 : 20 ≤ close.length) (hpos : ∀ q ∈ close, 0 < q)

include h20 in
/-- A moving average ends with the mean of the last closes. -/
theorem last_rolling_mean {w : ℕ} (hw : 0 < w) (hle : w ≤ 20) :
    last (rolling w mean (close.map fin)) = fin (Series.mean (lastCloses w close)) := by
  rw [last_rolling_map_fin hw mean (hle.trans h20)]
  exact mean_map_fin (lastCloses_ne_nil hw (hle.trans h20))

omit [Field K] [LinearOrder K] [IsStrictOrderedRing K] in
include h20 in
/-- The series of the windows have entries. -/
theorem rolling_ne_nil (w : ℕ) (stat : List (ExtNum K) → ExtNum K) :
    rolling w stat (close.map fin) ≠ [] := by
  apply List.ne_nil_of_length_pos
  rw [length_rolling, List.length_map]
  omega

include h20 hpos in
/-- The trend factor is a number once there are twenty closes, all of them positive. -/
theorem isFinite_trendFactor : (trendFactor (close.map fin)).isFinite := by
  -- the long average divides, and is positive with the closes
  have hlong : Series.mean (lastCloses 20 close) ≠ 0 := by
    apply (SampleMoments.mean_pos (lastCloses_ne_nil (by decide) h20) _).ne'
    exact fun q hq => hpos q (List.mem_of_mem_drop hq)
  rw [trendFactor, last_zipWith _ (by simp) (rolling_ne_nil h20 _ _),
    last_zipWith _ (by simp) (rolling_ne_nil h20 _ _),
    last_rolling_mean h20 (by decide) (by decide),
    last_rolling_mean h20 (by decide) (by decide), fin_sub_fin]
  exact isFinite_fin_div_fin.2 hlong

include h20 in
/-- The deviation from the mean is divided by zero exactly when the last closes are equal. -/
theorem isFinite_meanReversionFactor_iff {sqrt : K → K} (hsqrt : SampleMoments.IsSqrt sqrt) :
    (meanReversionFactor sqrt (close.map fin)).isFinite ↔
      ∃ p ∈ lastCloses 20 close, ∃ q ∈ lastCloses 20 close, p ≠ q := by
  have hlength : (lastCloses 20 close).length = 20 := length_lastCloses h20
  obtain ⟨x, -, hx⟩ := exists_last_map_fin (List.ne_nil_of_length_pos (by omega : 0 < close.length))
  -- the last deviation is that of the last window
  have hstd : last (rolling 20 (ExtNum.std sqrt 1) (close.map fin)) = fin (sqrt
      (((lastCloses 20 close).map fun q => (q - Series.mean (lastCloses 20 close)) ^ 2).sum /
        (((lastCloses 20 close).length : K) - (1 : ℕ)))) := by
    rw [last_rolling_map_fin (by decide) _ h20]
    exact std_map_fin sqrt (by rw [← lastCloses, hlength]; decide)
  -- twenty closes leave nineteen degrees of freedom
  have hdof : (0 : K) < ((lastCloses 20 close).length : K) - (1 : ℕ) :=
    sub_pos.2 (Nat.cast_lt.2 (by rw [hlength]; decide))
  rw [meanReversionFactor, isFinite_neg, last_zipWith _ (by simp) (rolling_ne_nil h20 _ _),
    last_zipWith _ (by simp) (rolling_ne_nil h20 _ _),
    last_rolling_mean h20 (by decide) (by decide),
    hx, hstd, fin_sub_fin, isFinite_fin_div_fin, Ne,
    hsqrt.eq_zero_iff (div_nonneg (SampleMoments.sum_sq_nonneg _ _) hdof.le),
    div_eq_zero_iff, or_iff_left hdof.ne', SampleMoments.sum_sq_mean_eq_zero_iff]
  push Not
  rfl

omit [IsStrictOrderedRing K] in
include hpos in
/-- A change over 20 rows needs 21. -/
theorem isFinite_momentumFactor_iff :
    (momentumFactor (close.map fin)).isFinite ↔ 21 ≤ close.length := by
  rw [momentumFactor]
  by_cases hlength : 21 ≤ close.length
  · -- there is a change from 20 rows before
    have hne : List.zipWith (fun now past : K => now / past - 1) (close.drop 20) close ≠ [] := by
      apply List.ne_nil_of_length_pos
      rw [List.length_zipWith, List.length_drop]
      omega
    obtain ⟨x, -, hx⟩ := exists_last_map_fin hne
    rw [ExtNum.pctChange_map_fin 20 fun q hq => (hpos q hq).ne',
      last_append (mt List.map_eq_nil_iff.1 hne), hx]
    exact iff_of_true rfl hlength
  · -- every entry is NaN
    rw [last_pctChange_of_le (by rw [List.length_map]; omega)]
    exact iff_of_false (by simp) hlength

include hpos in
/-- With 21 rows, the last 20 changes are finite. -/
theorem isFinite_volatilityFactor (sqrt : K → K) (h21 : 21 ≤ close.length) :
    (volatilityFactor sqrt (close.map fin)).isFinite := by
  have hchanges := ExtNum.pctChange_map_fin 1 fun q hq => (hpos q hq).ne'
  rw [min_eq_left (by omega), List.replicate_one, List.singleton_append] at hchanges
  generalize hreturns :
    List.zipWith (fun now past : K => now / past - 1) (close.drop 1) close = returns at hchanges
  have hlength : returns.length = close.length - 1 := by
    rw [← hreturns, List.length_zipWith, List.length_drop]
    omega
  -- the NaN in front has left the last window
  have hdrop : (nan :: returns.map fin).drop ((nan :: returns.map fin).length - 20) =
      (returns.drop (returns.length - 20)).map fin := by
    rw [List.length_cons, List.length_map,
      show returns.length + 1 - 20 = returns.length - 20 + 1 by omega,
      List.drop_succ_cons, List.map_drop]
  rw [volatilityFactor, hchanges, last_rolling (by decide) _ (by simp; omega), hdrop, if_pos,
    std_map_fin sqrt (by rw [List.length_drop]; omega), isFinite_fin]
  rw [List.all_eq_true, List.forall_mem_map]
  exact fun _ _ => rfl

include hpos in
/-- The returns are finite, and each is above -1. -/
theorem returns_map_fin :
    (ExtNum.pctChange 1 (close.map fin)).filter (fun x => !x.isNan) =
        (pctChange close).map fin ∧ ∀ r ∈ pctChange close, 0 < 1 + r := by
  constructor
  · rw [ExtNum.pctChange_map_fin 1 fun q hq => (hpos q hq).ne', List.filter_append,
      filter_not_isNan_map_fin, List.drop_one]
    -- the first return has no past and is dropped with its NaN
    have hnan : (List.replicate (min 1 close.length) (nan : ExtNum K)).filter
        (fun x => !x.isNan) = [] := by
      rw [List.filter_eq_nil_iff]
      intro x hx
      rw [List.eq_of_mem_replicate hx]
      simp
    rw [hnan, List.nil_append, pctChange]
  · intro r hr
    obtain ⟨i, hi, rfl⟩ := List.getElem_of_mem hr
    simp only [pctChange, List.getElem_zipWith, add_sub_cancel]
    exact div_pos (hpos _ (List.mem_of_mem_tail (List.getElem_mem _))) (hpos _ (List.getElem_mem _))

end FiniteCloses

/-- The metrics, entry by entry. -/
def RiskMetrics.map {α β : Type} (f : α → β) (r : RiskMetrics α) : RiskMetrics β where
  sharpeRatio := f r.sharpeRatio
  maxDrawdown := f r.maxDrawdown
  volatility := f r.volatility
  beta := f r.beta

section Risk

variable {K : Type} [Field K] [LinearOrder K] [IsStrictOrderedRing K]

omit [IsStrictOrderedRing K] in
/-- Finite returns have finite compounded values. -/
theorem scan_returns_map_fin (returns : List K) :
    Series.scan (fun a b => a * b) (fin 1) ((returns.map fin).map fun r => fin 1 + r) =
      (Series.cumprod (returns.map fun r => 1 + r)).map fin := by
  rw [Series.cumprod, ← scan_mul_map_fin, List.map_map, List.map_map]
  rfl

omit [IsStrictOrderedRing K] in
/-- Compounded values have a largest drawdown. -/
theorem exists_min_falls {cum : List K} (hne : cum ≠ []) :
    ∃ least, (List.zipWith (fun cum peak : K => (cum - peak) / peak) cum
      (Drawdown.runningMax cum)).min? = some least := by
  rw [← Option.isSome_iff_exists]
  apply List.isSome_min?_of_ne_nil
  apply List.ne_nil_of_length_pos
  rw [List.length_zipWith, Drawdown.length_runningMax, Nat.min_self]
  exact List.length_pos_of_ne_nil hne

/-- From positive closes, the risk metrics are those of exact arithmetic. -/
theorem computeRiskExt_map_fin (sqrt : K → K) {close : List K} (hpos : ∀ q ∈ close, 0 < q) :
    computeRiskExt sqrt (close.map fin) = (computeRisk sqrt close).map fin := by
  obtain ⟨hreturns, hfactors⟩ := returns_map_fin hpos
  rw [computeRiskExt, computeRisk, hreturns, List.length_map]
  by_cases hshort : (pctChange close).length < 10
  · rw [if_pos hshort, if_pos hshort]
    rfl
  · rw [if_neg hshort, if_neg hshort]
    have hne : pctChange close ≠ [] := List.ne_nil_of_length_pos (by omega)
    have hstd : ExtNum.std sqrt 1 ((pctChange close).map fin) =
        fin (sampleStd sqrt (pctChange close)) := by
      rw [std_map_fin sqrt (by omega), Nat.cast_one, sampleStd]
    have hyear : ExtNum.sqrt sqrt (fin ((252 : ℕ) : K)) = fin (sqrt ((252 : ℕ) : K)) :=
      sqrt_fin sqrt (Nat.cast_nonneg 252)
    have hcum_pos : ∀ y ∈ Series.cumprod ((pctChange close).map fun r => 1 + r), 0 < y :=
      Series.cumprod_pos (by rw [List.forall_mem_map]; exact hfactors)
    have hcum_ne : Series.cumprod ((pctChange close).map fun r => 1 + r) ≠ [] := by
      apply List.ne_nil_of_length_pos
      rw [Series.cumprod, Series.length_scan, List.length_map]
      omega
    obtain ⟨least, hleast⟩ := exists_min_falls hcum_ne
    dsimp only
    rw [hstd, mean_map_fin hne, hyear, scan_returns_map_fin, falls_map_fin hcum_pos,
      nanMin_map_fin hleast, hleast, Option.getD_some, fin_mul_fin]
    -- the Sharpe ratio is only divided by a positive deviation
    by_cases hpositive : 0 < sampleStd sqrt (pctChange close)
    · rw [if_pos hpositive, if_pos ((fin_lt_fin _ _).2 hpositive), fin_div_fin _ hpositive.ne',
        fin_mul_fin]
      rfl
    · rw [if_neg hpositive, if_neg (mt (fin_lt_fin _ _).1 hpositive)]
      rfl

end Risk

/-! ### Finite results -/

section Results

variable {K : Type} [Field K] [LinearOrder K]

def Factors.Finite (f : Factors (ExtNum K)) : Prop :=
  f.trend.isFinite ∧ f.meanReversion.isFinite ∧ f.momentum.isFinite ∧ f.volatility.isFinite

def RiskMetrics.Finite (r : RiskMetrics (ExtNum K)) : Prop :=
  r.sharpeRatio.isFinite ∧ r.maxDrawdown.isFinite ∧ r.volatility.isFinite ∧ r.beta.isFinite

def Scores.Finite : Scores (ExtNum K) → Prop
  | .combined factorScore mlPrediction adjustedScore riskPenalty agreement =>
    factorScore.isFinite ∧ mlPrediction.isFinite ∧ adjustedScore.isFinite ∧
      riskPenalty.isFinite ∧ agreement.isFinite
  | .fallback value => value.isFinite

/-- All numbers of a result are finite. -/
def SignalResult.Finite (result : SignalResult (ExtNum K)) : Prop :=
  result.factors.Finite ∧ result.scores.Finite ∧ result.riskMetrics.Finite ∧
    result.confidence.isFinite

/-- The signal is the one of the adjusted score. -/
def FollowsScore (signal : Signal) : Scores (ExtNum K) → Prop
  | .combined _ _ adjustedScore _ _ =>
    (signal = .buy ↔ decimal 8 100 < adjustedScore) ∧
      (signal = .sell ↔ adjustedScore < -decimal 8 100) ∧
      (signal = .hold ↔
        ¬ decimal 8 100 < adjustedScore ∧ ¬ adjustedScore < -decimal 8 100)
  | .fallback _ => False

variable [IsStrictOrderedRing K]

/-- No score is above the upper threshold and below the lower one. -/
theorem not_lt_neg_decimal_of_lt {score : ExtNum K} (h : decimal 8 100 < score) :
    ¬ score < -decimal 8 100 := by
  have hpos : (0 : K) < (8 : ℕ) / (100 : ℕ) := by positivity
  have hneg : (-decimal 8 100 : ExtNum K) =
      fin (-(((8 : ℕ) : K) / ((100 : ℕ) : K))) := rfl
  rw [decimal] at h
  rw [hneg]
  cases score with
  | fin q =>
    rw [fin_lt_fin] at h ⊢
    linarith
  | inf negative =>
    rw [fin_lt_inf] at h
    subst h
    exact Bool.false_ne_true
  | nan => exact absurd h (not_lt_nan _)

/-- Whatever the inputs are, the confidence is in its range and the signal follows the score. -/
theorem combine_spec (sqrt : K → K) (f : Factors (ExtNum K)) (ml : ExtNum K)
    (r : RiskMetrics (ExtNum K)) :
    (∃ c, (combine sqrt f ml r).2.1 = fin c ∧ 0 ≤ c ∧ c ≤ ((100 : ℕ) : K)) ∧
      FollowsScore (combine sqrt f ml r).1 (combine sqrt f ml r).2.2 := by
  refine ⟨exists_clamp_eq_fin (Nat.cast_nonneg 100) _, ?_⟩
  rw [combine]
  dsimp only [FollowsScore]
  split
  · rename_i hbuy
    simp [hbuy, not_lt_neg_decimal_of_lt hbuy]
  · rename_i hbuy
    split
    · rename_i hsell
      simp [hbuy, hsell]
    · rename_i hsell
      simp [hbuy, hsell]

/-- Finite inputs have finite scores. -/
theorem finite_scores_combine (sqrt : K → K) {f : Factors (ExtNum K)} (hf : f.Finite) (ml : K)
    {r : RiskMetrics (ExtNum K)} (hr : r.Finite) :
    (combine sqrt f (fin ml) r).2.2.Finite := by
  obtain ⟨htrend, hmeanReversion, hmomentum, hvolatility⟩ := hf
  obtain ⟨-, -, hrisk, -⟩ := hr
  obtain ⟨t, ht⟩ := isFinite_iff.1 htrend
  obtain ⟨m, hm⟩ := isFinite_iff.1 hmeanReversion
  obtain ⟨o, ho⟩ := isFinite_iff.1 hmomentum
  obtain ⟨v, hv⟩ := isFinite_iff.1 hvolatility
  obtain ⟨risk, hrisk⟩ := isFinite_iff.1 hrisk
  -- the disagreement of the four factors
  have hstd := std_map_fin sqrt (show 0 < [t, m, o, v].length from Nat.succ_pos 3)
  change ExtNum.std sqrt 0 [fin t, fin m, fin o, fin v] = _ at hstd
  rw [combine]
  dsimp only [Scores.Finite]
  rw [ht, hm, ho, hv, hrisk, hstd]
  simp only [decimal, fin_mul_fin, fin_add_fin, fin_sub_fin, minOf_fin, maxOf_fin, isFinite_fin,
    and_self]

/-! ### When everything is finite -/

omit [Field K] [LinearOrder K] [IsStrictOrderedRing K] in
/-- A frame is only admitted with 20 rows. -/
theorem length_of_validated {df : Option (Frame (ExtNum K))} {closes : List (List (ExtNum K))}
    (h : validated df = some closes) : ∀ close ∈ closes, 20 ≤ close.length := by
  cases df with
  | none => cases h
  | some df =>
    rw [validated] at h
    split_ifs at h with hempty hclose hrows
    obtain rfl := Option.some.inj h
    rw [List.forall_mem_map]
    intro column _
    rw [List.length_map]
    exact not_lt.1 hrows

/-- From positive closes, the risk metrics are finite. -/
theorem finite_computeRiskExt (sqrt : K → K) {closes : List (List K)}
    (hpos : ∀ close ∈ closes, ∀ q ∈ close, 0 < q) :
    (computeRiskExt sqrt (closeSeries (closes.map (List.map fin)))).Finite := by
  have hfirst : closeSeries (closes.map (List.map fin)) = (closes.headD []).map fin := by
    rw [closeSeries]
    cases closes with
    | nil => rfl
    | cons close rest => exact filter_not_isNan_map_fin close
  have hpos_first : ∀ q ∈ closes.headD [], 0 < q := by
    cases closes with
    | nil => simp
    | cons close rest => exact hpos close List.mem_cons_self
  rw [hfirst, computeRiskExt_map_fin sqrt hpos_first]
  exact ⟨rfl, rfl, rfl, rfl⟩

/-- From positive closes, the factors are finite when there is more than one column of closes, and
otherwise when there are 21 rows and the last 20 closes are not all equal. -/
theorem finite_computeFactors_iff {sqrt : K → K} (hsqrt : SampleMoments.IsSqrt sqrt)
    {closes : List (List K)} (h20 : ∀ close ∈ closes, 20 ≤ close.length)
    (hpos : ∀ close ∈ closes, ∀ q ∈ close, 0 < q) :
    (computeFactors sqrt (closes.map (List.map fin))).Finite ↔
      ∀ close, closes = [close] →
        21 ≤ close.length ∧ ∃ p ∈ lastCloses 20 close, ∃ q ∈ lastCloses 20 close, p ≠ q := by
  match closes with
  | [] => exact iff_of_true ⟨rfl, rfl, rfl, rfl⟩ fun close h => by cases h
  -- one column: each factor has its own condition
  | [close] =>
    have h20' := h20 close List.mem_cons_self
    have hpos' := hpos close List.mem_cons_self
    constructor
    · rintro ⟨-, hmeanReversion, hmomentum, -⟩ other hother
      obtain rfl := List.singleton_inj.1 hother
      exact ⟨(isFinite_momentumFactor_iff hpos').1 hmomentum,
        (isFinite_meanReversionFactor_iff h20' hsqrt).1 hmeanReversion⟩
    · intro h
      obtain ⟨h21, hdistinct⟩ := h close rfl
      exact ⟨isFinite_trendFactor h20' hpos',
        (isFinite_meanReversionFactor_iff h20' hsqrt).2 hdistinct,
        (isFinite_momentumFactor_iff hpos').2 h21, isFinite_volatilityFactor hpos' sqrt h21⟩
  -- `df["close"]` is a frame, the factors raise and become zero
  | first :: second :: rest =>
    exact iff_of_true ⟨rfl, rfl, rfl, rfl⟩ fun close h => by simp at h

/-- From an admitted frame with finite positive closes, the numbers of a result are finite, with the
confidence in its range and the signal that of the score, exactly when there are 21 rows and the
last 20 closes are not all equal, or more than one column of closes. -/
theorem compute_finite_iff {sqrt : K → K} (hsqrt : SampleMoments.IsSqrt sqrt) (ml : K)
    (symbol : String) (timestamp : ℤ) {df : Option (Frame (ExtNum K))} {closes : List (List K)}
    (hdf : validated df = some (closes.map (List.map fin)))
    (hpos : ∀ close ∈ closes, ∀ q ∈ close, 0 < q) :
    let result := compute sqrt (fin ml) symbol timestamp df
    (result.Finite ∧ (∃ c, result.confidence = fin c ∧ 0 ≤ c ∧ c ≤ ((100 : ℕ) : K)) ∧
      FollowsScore result.signal result.scores) ↔
    ∀ close, closes = [close] →
      21 ≤ close.length ∧ ∃ p ∈ lastCloses 20 close, ∃ q ∈ lastCloses 20 close, p ≠ q := by
  intro result
  -- the validation counts the rows
  have h20 : ∀ close ∈ closes, 20 ≤ close.length := by
    have hrows := length_of_validated hdf
    rw [List.forall_mem_map] at hrows
    exact fun close hclose => (hrows close hclose).trans_eq (List.length_map _)
  have hresult : result = compute sqrt (fin ml) symbol timestamp df := rfl
  rw [compute, hdf] at hresult
  dsimp only at hresult
  have hrisk := finite_computeRiskExt sqrt hpos
  obtain ⟨hconfidence, hsignal⟩ := combine_spec sqrt
    (computeFactors sqrt (closes.map (List.map fin))) (fin ml)
    (computeRiskExt sqrt (closeSeries (closes.map (List.map fin))))
  -- only the factors can fail, the risk and the combination are finite with them
  rw [← finite_computeFactors_iff hsqrt h20 hpos, hresult]
  constructor
  · exact fun h => h.1.1
  · intro hfactors
    refine ⟨⟨hfactors, finite_scores_combine sqrt hfactors ml hrisk, hrisk, ?_⟩, hconfidence,
      hsignal⟩
    obtain ⟨c, hc, -⟩ := hconfidence
    exact isFinite_iff.2 ⟨c, hc⟩

end Results

/-! ### Frames of one column -/

/-- A frame of closes only. -/
def closeFrame {K : Type} (close : List K) : Frame (ExtNum K) where
  columns := ["Close"]
  rows := close.map fun q => [fin q]
  rows_length := by
    rw [List.forall_mem_map]
    exact fun _ _ => rfl

/-- A frame with one column of closes passes the checks from twenty rows on. -/
theorem validated_closeFrame {K : Type} {close : List K} (h : 20 ≤ close.length) :
    validated (some (closeFrame close)) = some ([close].map (List.map fin)) := by
  have hrows : (closeFrame close).rows = close.map fun q => [fin q] := rfl
  have hcolumns : (closeFrame close).columns = ["Close"] := rfl
  have hdropna : (closeFrame close).dropna = close.map fun q => [fin q] := by
    rw [Frame.dropna, hrows, List.filter_eq_self, List.forall_mem_map]
    exact fun _ _ => rfl
  have hnonempty : (close.map fun q => [(fin q : ExtNum K)]).isEmpty = false := by
    rw [List.isEmpty_eq_false_iff]
    exact List.ne_nil_of_length_pos (by rw [List.length_map]; omega)
  have hclose : ["Close"].zipIdx.filter (fun column => column.1.toLower = "close") =
      [("Close", 0)] := by
    decide +kernel
  have hcells : (close.map fun q => [(fin q : ExtNum K)]).map (fun row => row.getD 0 nan) =
      close.map fin := by
    rw [List.map_map]
    rfl
  rw [validated, hdropna, hrows, hcolumns, hnonempty, if_neg (by decide),
    if_neg (by decide +kernel),
    if_neg (by rw [List.length_map]; omega), hclose, List.map_singleton, hcells, List.map_singleton]

/-- Closes that go up by one a row. -/
def rising (n : ℕ) : List ℝ := (List.range n).map fun i : ℕ => (i : ℝ) + 1

theorem rising_pos (n : ℕ) : ∀ q ∈ rising n, 0 < q := by
  rw [rising, List.forall_mem_map]
  intro i _
  positivity

@[simp]
theorem length_rising (n : ℕ) : (rising n).length = n := by
  simp [rising]

/-- With 20 rows the frame is admitted, and the change over 20 rows is NaN. -/
theorem not_finite_compute_rising :
    validated (some (closeFrame (rising 20))) = some ([rising 20].map (List.map fin)) ∧
      (∀ q ∈ rising 20, 0 < q) ∧
      ¬ (compute Real.sqrt (fin 0) "AAPL" 0 (some (closeFrame (rising 20)))).Finite := by
  have hframe := validated_closeFrame (length_rising 20).ge
  refine ⟨hframe, rising_pos 20, fun hfinite => ?_⟩
  rw [compute, hframe] at hfinite
  have hmomentum := (isFinite_momentumFactor_iff (rising_pos 20)).1 hfinite.1.2.2.1
  rw [length_rising] at hmomentum
  omega

/-- One row more than the window of the momentum. -/
theorem compute_finite_iff_rising :
    let result := compute Real.sqrt (fin 0) "AAPL" 0 (some (closeFrame (rising 21)))
    result.Finite ∧ (∃ c, result.confidence = fin c ∧ 0 ≤ c ∧ c ≤ ((100 : ℕ) : ℝ)) ∧
      FollowsScore result.signal result.scores := by
  have h21 := length_rising 21
  refine (compute_finite_iff SampleMoments.isSqrt_real 0 "AAPL" 0
    (validated_closeFrame (by rw [h21]; decide)) ?_).2 ?_
  · rw [List.forall_mem_singleton]
    exact rising_pos 21
  · intro close hclose
    obtain rfl := List.singleton_inj.1 hclose
    have hmem : ∀ i ∈ (List.range 21).drop 1, (i : ℝ) + 1 ∈ lastCloses 20 (rising 21) := by
      intro i hi
      rw [lastCloses, h21, rising, ← List.map_drop]
      exact List.mem_map_of_mem hi
    exact ⟨h21.ge, _, hmem 1 (by decide), _, hmem 2 (by decide), by norm_num⟩

end TradingSimulator.SignalEngine
