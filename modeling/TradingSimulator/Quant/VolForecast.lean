import TradingSimulator.Library.LeastSquares

/-!
# The volatility forecast

`_ar1_fit` and `_forecast_factor` (`app/quant/vol_surface.py`), in exact arithmetic, with the square
root and the normal draws as parameters. The fit is the least-squares line through consecutive
values with a slope from 0 to 0.995, although the slope is clamped first and the intercept follows
from it (`ar1Fit_optimal`). The forecast iterates the fitted line, and its bands stay within the
error of the iteration (`forecastFactor_iterates`).
-/

namespace TradingSimulator.VolForecast

open LeastSquares SampleMoments Series

/-! ### The fit -/

section Fit

variable {K : Type} [Field K] [LinearOrder K]

/-- Python's `value or default`. -/
def orElse (value default : K) : K := if value = 0 then default else value

/-- The largest slope of a fit. -/
def maxPhi : K := ((995 : ℕ) : K) / ((1000 : ℕ) : K)

/-- `phi` of `_ar1_fit`. -/
def ar1Phi (x : List K) : K :=
  let x0 := x.dropLast
  let x1 := x.tail
  let m0 := mean x0
  let m1 := mean x1
  let denom := orElse (x0.map fun past => (past - m0) ^ 2).sum (1 / ((10 : ℕ) : K) ^ 12)
  min (max ((List.zipWith (fun past next => (past - m0) * (next - m1)) x0 x1).sum / denom) 0)
    maxPhi

/-- `c` of `_ar1_fit`. -/
def ar1C (x : List K) : K := mean x.tail - ar1Phi x * mean x.dropLast

/-- The errors of a line from every value to the next one. -/
def ar1Residuals (x : List K) (c phi : K) : List K :=
  List.zipWith (fun past next => next - (c + phi * past)) x.dropLast x.tail

/-- What `_ar1_fit` returns. -/
structure Ar1 (K : Type) where
  phi : K
  mu : K
  sigma : K

/-- `_ar1_fit`. -/
def ar1Fit (sqrt : K → K) (x : List K) : Ar1 K where
  phi := ar1Phi x
  mu := if ar1Phi x < 1 then ar1C x / (1 - ar1Phi x) else mean x.tail
  sigma := orElse (std sqrt (ar1Residuals x (ar1C x) (ar1Phi x))) (1 / ((10 : ℕ) : K) ^ 6)

/-- The squared error of a line. -/
def ar1Error (x : List K) (c phi : K) : K := ((ar1Residuals x c phi).map fun r => r ^ 2).sum

end Fit

section Optimal

variable {K : Type} [Field K] [LinearOrder K] [IsStrictOrderedRing K]

theorem maxPhi_nonneg : (0 : K) ≤ maxPhi := by
  unfold maxPhi
  positivity

theorem maxPhi_lt_one : (maxPhi : K) < 1 := by
  rw [maxPhi, div_lt_one (by positivity)]
  exact Nat.cast_lt.2 (by decide)

/-- The slope of a fit is in its interval. -/
theorem ar1Phi_mem (x : List K) : 0 ≤ ar1Phi x ∧ ar1Phi x ≤ maxPhi :=
  ⟨le_min (le_max_right _ _) maxPhi_nonneg, min_le_right _ _⟩

/-- The pairs of a value and the next one. -/
def steps (x : List K) : List (K × K) := x.dropLast.zip x.tail

variable {x : List K}

omit [Field K] [LinearOrder K] [IsStrictOrderedRing K] in
theorem map_fst_steps : (steps x).map Prod.fst = x.dropLast :=
  List.map_fst_zip (by simp)

omit [Field K] [LinearOrder K] [IsStrictOrderedRing K] in
theorem map_snd_steps : (steps x).map Prod.snd = x.tail :=
  List.map_snd_zip (by simp)

omit [LinearOrder K] [IsStrictOrderedRing K] in
theorem ar1Residuals_eq (c phi : K) :
    ar1Residuals x c phi = (steps x).map fun p => p.2 - (c + phi * p.1) := by
  rw [ar1Residuals, steps, List.map_zip_eq_zipWith]
  rfl

omit [LinearOrder K] [IsStrictOrderedRing K] in
theorem ar1Error_eq (c phi : K) : ar1Error x c phi = sse (steps x) c phi := by
  rw [ar1Error, ar1Residuals_eq, List.map_map]
  rfl

omit [Field K] [LinearOrder K] [IsStrictOrderedRing K] in
theorem length_steps : (steps x).length = x.length - 1 := by
  simp [steps]

/-- The standard deviation of the residuals of a line through the means. -/
theorem std_ar1Residuals (sqrt : K → K) (hx : 2 ≤ x.length) :
    std sqrt (ar1Residuals x (ar1C x) (ar1Phi x)) =
      sqrt (ar1Error x (ar1C x) (ar1Phi x) / ((x.length - 1 : ℕ) : K)) := by
  have hne : steps x ≠ [] := List.ne_nil_of_length_pos (by rw [length_steps]; omega)
  have hmean : mean (ar1Residuals x (ar1C x) (ar1Phi x)) = 0 := by
    rw [mean, ar1Residuals_eq, ar1C, ← map_fst_steps, ← map_snd_steps, sum_residuals_eq_zero hne,
      zero_div]
  have hlength : (ar1Residuals x (ar1C x) (ar1Phi x)).length = x.length - 1 := by
    rw [ar1Residuals_eq, List.length_map, length_steps]
  rw [std, hmean, mean, List.length_map, hlength, ar1Error]
  simp only [sub_zero]

omit [IsStrictOrderedRing K] in
/-- The slope is the clamped one of the least-squares line, when there is one. -/
theorem ar1Phi_eq (h : sxx (steps x) ≠ 0) :
    ar1Phi x = min (max (sxy (steps x) / sxx (steps x)) 0) maxPhi := by
  have hsxx : (x.dropLast.map fun past => (past - mean x.dropLast) ^ 2).sum = sxx (steps x) := by
    rw [sxx, map_fst_steps, ← map_fst_steps, List.map_map]
    rfl
  have hsxy : (List.zipWith (fun past next => (past - mean x.dropLast) * (next - mean x.tail))
      x.dropLast x.tail).sum = sxy (steps x) := by
    rw [sxy, map_fst_steps, map_snd_steps, steps, List.map_zip_eq_zipWith]
    rfl
  rw [ar1Phi, hsxx, hsxy, orElse, if_neg h]

/-- The level is the fixed point of the line. -/
theorem ar1Fit_mu_eq (sqrt : K → K) (x : List K) :
    (ar1Fit sqrt x).mu = ar1C x + (ar1Fit sqrt x).phi * (ar1Fit sqrt x).mu := by
  -- a clamped slope is below 1, so the branch that falls back to the mean is never taken
  have hlt : ar1Phi x < 1 := (ar1Phi_mem x).2.trans_lt maxPhi_lt_one
  have hdiv : 1 - ar1Phi x ≠ 0 := (sub_pos.2 hlt).ne'
  rw [ar1Fit]
  dsimp only
  rw [if_pos hlt]
  field_simp
  ring

/-- One residual that is not zero is enough for an error. -/
theorem ar1Error_ne_zero {c phi : K}
    (h : ∃ r ∈ ar1Residuals x c phi, r ≠ 0) : ar1Error x c phi ≠ 0 := by
  obtain ⟨r, hr, hr_ne⟩ := h
  intro hzero
  have hall : ∀ r ∈ ar1Residuals x c phi, r = 0 := by
    rw [← sum_sq_eq_zero_iff]
    simpa only [sub_zero, ar1Error] using hzero
  exact hr_ne (hall r hr)

theorem ar1Error_nonneg (c phi : K) : 0 ≤ ar1Error x c phi := by
  refine List.sum_nonneg ?_
  rw [List.forall_mem_map]
  exact fun r _ => sq_nonneg r

/-- The variance of the fit is its error over the number of pairs. -/
theorem ar1Fit_sigma_sq {sqrt : K → K} (hsqrt : IsSqrt sqrt) (hx : 2 ≤ x.length)
    (h : ∃ r ∈ ar1Residuals x (ar1C x) (ar1Phi x), r ≠ 0) :
    (ar1Fit sqrt x).sigma ^ 2 = ar1Error x (ar1C x) (ar1Phi x) / ((x.length - 1 : ℕ) : K) := by
  have hnonneg : 0 ≤ ar1Error x (ar1C x) (ar1Phi x) / ((x.length - 1 : ℕ) : K) :=
    div_nonneg (ar1Error_nonneg _ _) (Nat.cast_nonneg _)
  have hpairs : ((x.length - 1 : ℕ) : K) ≠ 0 := Nat.cast_ne_zero.2 (by omega)
  -- the deviation is not zero, so `or` leaves it as it is
  have hstd : std sqrt (ar1Residuals x (ar1C x) (ar1Phi x)) ≠ 0 := by
    rw [std_ar1Residuals sqrt hx, Ne, hsqrt.eq_zero_iff hnonneg]
    exact div_ne_zero (ar1Error_ne_zero h) hpairs
  show orElse (std sqrt (ar1Residuals x (ar1C x) (ar1Phi x))) _ ^ 2 = _
  rw [orElse, if_neg hstd, std_ar1Residuals sqrt hx, hsqrt.sq_eq hnonneg]

/-- Among all lines with a slope from 0 to 0.995, the fit has the least squared error; its level is
the fixed point of the line, and unless all residuals are zero its variance is the error over the
number of pairs. -/
theorem ar1Fit_optimal {sqrt : K → K} (hsqrt : IsSqrt sqrt) (hx : 2 ≤ x.length) :
    (0 ≤ (ar1Fit sqrt x).phi ∧ (ar1Fit sqrt x).phi ≤ maxPhi) ∧
    (∀ c' phi', 0 ≤ phi' → phi' ≤ maxPhi →
      ar1Error x (ar1C x) (ar1Fit sqrt x).phi ≤ ar1Error x c' phi') ∧
    (ar1Fit sqrt x).mu = ar1C x + (ar1Fit sqrt x).phi * (ar1Fit sqrt x).mu ∧
    ((∃ r ∈ ar1Residuals x (ar1C x) (ar1Fit sqrt x).phi, r ≠ 0) →
      (ar1Fit sqrt x).sigma ^ 2 =
        ar1Error x (ar1C x) (ar1Fit sqrt x).phi / ((x.length - 1 : ℕ) : K)) := by
  have hne : steps x ≠ [] := List.ne_nil_of_length_pos (by rw [length_steps]; omega)
  have hc : ar1C x =
      mean ((steps x).map Prod.snd) - ar1Phi x * mean ((steps x).map Prod.fst) := by
    rw [map_fst_steps, map_snd_steps, ar1C]
  refine ⟨ar1Phi_mem x, ?_, ar1Fit_mu_eq sqrt x, ar1Fit_sigma_sq hsqrt hx⟩
  intro c' phi' hlo hhi
  show ar1Error x (ar1C x) (ar1Phi x) ≤ _
  rw [ar1Error_eq, ar1Error_eq, hc]
  -- where all values but the last are equal, `sxx` is zero and every slope is as good
  exact sse_le_of_clamped hne ar1Phi_eq hlo hhi

end Optimal

/-- Three values, of which each is twice the one before. -/
theorem ar1Fit_optimal_rise :
    let x : List ℝ := [1, 2, 4]
    (0 ≤ (ar1Fit Real.sqrt x).phi ∧ (ar1Fit Real.sqrt x).phi ≤ maxPhi) ∧
    (∀ c' phi', 0 ≤ phi' → phi' ≤ maxPhi →
      ar1Error x (ar1C x) (ar1Fit Real.sqrt x).phi ≤ ar1Error x c' phi') ∧
    (ar1Fit Real.sqrt x).mu = ar1C x + (ar1Fit Real.sqrt x).phi * (ar1Fit Real.sqrt x).mu ∧
    ((∃ r ∈ ar1Residuals x (ar1C x) (ar1Fit Real.sqrt x).phi, r ≠ 0) →
      (ar1Fit Real.sqrt x).sigma ^ 2 =
        ar1Error x (ar1C x) (ar1Fit Real.sqrt x).phi / ((x.length - 1 : ℕ) : ℝ)) := by
  dsimp only
  exact ar1Fit_optimal isSqrt_real (Nat.le_succ 2)

/-! ### The forecast -/

section Forecast

variable {K : Type} [Field K] [LinearOrder K]

/-- The factor of a 95% band. -/
def bandWidth : K := ((196 : ℕ) : K) / ((100 : ℕ) : K)

/-- The means of the forecast, one for every step up to the horizon. -/
def forecastMeans (fit : Ar1 K) (current : K) (horizon : ℕ) : List K :=
  (List.range' 1 horizon).map fun k => fit.mu + (current - fit.mu) * fit.phi ^ k

/-- The variance of a band before the square root. -/
def forecastVar (fit : Ar1 K) (k : ℕ) : K :=
  fit.sigma * fit.sigma * (1 - fit.phi ^ (2 * k)) /
    (1 - fit.phi * fit.phi + 1 / ((10 : ℕ) : K) ^ 12)

/-- The bands of the forecast. -/
def forecastBands (sqrt : K → K) (fit : Ar1 K) (horizon : ℕ) : List K :=
  (List.range' 1 horizon).map fun k => bandWidth * sqrt (max (forecastVar fit k) 0)

/-- The simulated history of a factor, with the draws of `normal(0, sigma)`, and its current
value. -/
def history (draws : List K) (current mbar phiTrue : K) : List K :=
  scan (fun v draw => mbar + phiTrue * (v - mbar) + draw) mbar draws ++ [current]

/-- `_forecast_factor`, where `normal seed sigma` are the draws of the generator. -/
def forecastFactor (sqrt : K → K) (normal : ℕ → K → ℕ → K) (current mbar sigma : K)
    (horizon seed : ℕ) (phiTrue : K := ((9 : ℕ) : K) / ((10 : ℕ) : K)) : List K × List K :=
  let draws := (List.range 120).map (normal seed sigma)
  let fit := ar1Fit sqrt (history draws current mbar phiTrue)
  (forecastMeans fit current horizon, forecastBands sqrt fit horizon)

/-- One step of the fitted line. -/
def Ar1.next (fit : Ar1 K) (v : K) : K := fit.mu * (1 - fit.phi) + fit.phi * v

/-- A forecast that iterates the fitted line: its means come closer to the level from their side,
and its bands grow within the error of the iteration. -/
structure Iterates (fit : Ar1 K) (current : K) (horizon : ℕ) (forecast : List K × List K) :
    Prop where
  length_means : forecast.1.length = horizon
  length_bands : forecast.2.length = horizon
  mean_eq : ∀ k mean, forecast.1[k]? = some mean → mean = fit.next^[k + 1] current
  mean_closer : ∀ (i j : ℕ) past mean, i ≤ j → forecast.1[i]? = some past →
    forecast.1[j]? = some mean →
    |mean - fit.mu| ≤ |past - fit.mu|
  mean_side : ∀ mean ∈ forecast.1,
    (fit.mu ≤ current → fit.mu ≤ mean) ∧ (current ≤ fit.mu → mean ≤ fit.mu)
  band_nonneg : ∀ band ∈ forecast.2, 0 ≤ band
  band_mono : ∀ (i j : ℕ) past band, i ≤ j → forecast.2[i]? = some past →
    forecast.2[j]? = some band →
    past ≤ band
  band_le : ∀ k band, forecast.2[k]? = some band →
    (band / bandWidth) ^ 2 ≤ fit.sigma ^ 2 * ∑ j ∈ Finset.range (k + 1), fit.phi ^ (2 * j)

end Forecast

section Iteration

variable {K : Type} [Field K] [LinearOrder K] [IsStrictOrderedRing K]

omit [LinearOrder K] [IsStrictOrderedRing K] in
/-- The iterated line in closed form. -/
theorem iterate_next (fit : Ar1 K) (current : K) (k : ℕ) :
    fit.next^[k] current = fit.mu + (current - fit.mu) * fit.phi ^ k := by
  induction k with
  | zero => rw [Function.iterate_zero_apply, pow_zero, mul_one, add_sub_cancel]
  | succ k ih =>
    rw [Function.iterate_succ_apply', ih, Ar1.next, pow_succ]
    ring

omit [LinearOrder K] [IsStrictOrderedRing K] in
/-- The mean of a day in closed form. -/
theorem getElem?_forecastMeans {fit : Ar1 K} {current mean : K} {horizon k : ℕ}
    (h : (forecastMeans fit current horizon)[k]? = some mean) :
    mean = fit.mu + (current - fit.mu) * fit.phi ^ (k + 1) := by
  obtain ⟨hk, rfl⟩ := List.getElem?_eq_some_iff.1 h
  simp [forecastMeans, add_comm]

omit [IsStrictOrderedRing K] in
/-- The band of a day has the deviation that the process has reached by then. -/
theorem getElem?_forecastBands {sqrt : K → K} {fit : Ar1 K} {band : K} {horizon k : ℕ}
    (h : (forecastBands sqrt fit horizon)[k]? = some band) :
    band = bandWidth * sqrt (max (forecastVar fit (k + 1)) 0) := by
  obtain ⟨hk, rfl⟩ := List.getElem?_eq_some_iff.1 h
  simp [forecastBands, add_comm]

theorem bandWidth_pos : (0 : K) < bandWidth := by
  unfold bandWidth
  positivity

variable {fit : Ar1 K} (hphi : 0 ≤ fit.phi ∧ fit.phi ≤ maxPhi)

include hphi

/-- The squared slope is below one. -/
theorem phi_sq_lt_one : fit.phi * fit.phi < 1 :=
  mul_lt_one_of_nonneg_of_lt_one_left hphi.1 (hphi.2.trans_lt maxPhi_lt_one)
    (hphi.2.trans_lt maxPhi_lt_one).le

/-- What divides the variance is positive. -/
theorem forecastVar_denom_pos : 0 < 1 - fit.phi * fit.phi + 1 / ((10 : ℕ) : K) ^ 12 :=
  add_pos (sub_pos.2 (phi_sq_lt_one hphi)) (by positivity)

theorem forecastVar_nonneg (k : ℕ) : 0 ≤ forecastVar fit k := by
  have hle : fit.phi ^ (2 * k) ≤ 1 := pow_le_one₀ hphi.1 (hphi.2.trans maxPhi_lt_one.le)
  exact div_nonneg (mul_nonneg (mul_self_nonneg _) (sub_nonneg.2 hle))
    (forecastVar_denom_pos hphi).le

/-- The variance grows with the horizon. -/
theorem forecastVar_mono {i j : ℕ} (hij : i ≤ j) : forecastVar fit i ≤ forecastVar fit j := by
  have hpow : fit.phi ^ (2 * j) ≤ fit.phi ^ (2 * i) :=
    pow_le_pow_of_le_one hphi.1 (hphi.2.trans maxPhi_lt_one.le) (Nat.mul_le_mul_left 2 hij)
  apply div_le_div_of_nonneg_right _ (forecastVar_denom_pos hphi).le
  exact mul_le_mul_of_nonneg_left (sub_le_sub_left hpow 1) (mul_self_nonneg _)

/-- The variance is at most that of the iteration: what is added to the divisor makes it smaller
than the geometric series. -/
theorem forecastVar_le (k : ℕ) :
    forecastVar fit k ≤ fit.sigma ^ 2 * ∑ j ∈ Finset.range k, fit.phi ^ (2 * j) := by
  have hgeom : (∑ j ∈ Finset.range k, fit.phi ^ (2 * j)) * (1 - fit.phi * fit.phi) =
      1 - fit.phi ^ (2 * k) := by
    simp only [pow_mul, ← pow_two]
    exact geom_sum_mul_neg _ k
  have hsum : 0 ≤ ∑ j ∈ Finset.range k, fit.phi ^ (2 * j) :=
    Finset.sum_nonneg fun j _ => pow_nonneg hphi.1 _
  rw [forecastVar, div_le_iff₀ (forecastVar_denom_pos hphi), ← hgeom]
  -- `1e-12` in the divisor of the code
  have hmore : 0 ≤ fit.sigma ^ 2 * (∑ j ∈ Finset.range k, fit.phi ^ (2 * j)) *
      (1 / ((10 : ℕ) : K) ^ 12) := by positivity
  linarith

/-- From every fit with a slope in its interval, the forecast iterates the fitted line. -/
theorem iterates_forecast {sqrt : K → K} (hsqrt : IsSqrt sqrt) (current : K) (horizon : ℕ) :
    Iterates fit current horizon
      (forecastMeans fit current horizon, forecastBands sqrt fit horizon) where
  length_means := by simp [forecastMeans]
  length_bands := by simp [forecastBands]
  mean_eq k mean h := by rw [getElem?_forecastMeans h, iterate_next]
  mean_closer i j past mean hij hi hj := by
    -- the distance from the level shrinks with the powers of the slope
    rw [getElem?_forecastMeans hi, getElem?_forecastMeans hj, add_sub_cancel_left,
      add_sub_cancel_left, abs_mul, abs_mul, abs_of_nonneg (pow_nonneg hphi.1 _),
      abs_of_nonneg (pow_nonneg hphi.1 _)]
    exact mul_le_mul_of_nonneg_left (pow_le_pow_of_le_one hphi.1 (hphi.2.trans maxPhi_lt_one.le)
      (Nat.succ_le_succ hij)) (abs_nonneg _)
  mean_side mean h := by
    obtain ⟨k, hk⟩ := List.mem_iff_getElem?.1 h
    have hpow := pow_nonneg hphi.1 (k + 1)
    rw [getElem?_forecastMeans hk]
    constructor
    · intro hle
      exact le_add_of_nonneg_right (mul_nonneg (sub_nonneg.2 hle) hpow)
    · intro hle
      exact add_le_of_nonpos_right (mul_nonpos_of_nonpos_of_nonneg (sub_nonpos.2 hle) hpow)
  band_nonneg band h := by
    obtain ⟨k, hk⟩ := List.mem_iff_getElem?.1 h
    rw [getElem?_forecastBands hk]
    exact mul_nonneg bandWidth_pos.le (hsqrt.nonneg _)
  band_mono i j past band hij hi hj := by
    rw [getElem?_forecastBands hi, getElem?_forecastBands hj,
      max_eq_left (forecastVar_nonneg hphi _), max_eq_left (forecastVar_nonneg hphi _)]
    exact mul_le_mul_of_nonneg_left (hsqrt.mono (forecastVar_nonneg hphi _)
      (forecastVar_mono hphi (Nat.succ_le_succ hij))) bandWidth_pos.le
  band_le k band h := by
    -- the square undoes the root, whose argument is not negative
    rw [getElem?_forecastBands h, mul_div_cancel_left₀ _ bandWidth_pos.ne',
      max_eq_left (forecastVar_nonneg hphi _), hsqrt.sq_eq (forecastVar_nonneg hphi _)]
    exact forecastVar_le hphi (k + 1)

end Iteration

section Forecasts

variable {K : Type} [Field K] [LinearOrder K] [IsStrictOrderedRing K]

/-- `_forecast_factor` iterates the line that it has fitted to its history, and so does the forecast
from any fit with a slope from 0 to 0.995. -/
theorem forecastFactor_iterates {sqrt : K → K} (hsqrt : IsSqrt sqrt) :
    (∀ normal current mbar sigma horizon seed phiTrue,
      Iterates
        (ar1Fit sqrt (history ((List.range 120).map (normal seed sigma)) current mbar phiTrue))
        current horizon (forecastFactor sqrt normal current mbar sigma horizon seed phiTrue)) ∧
    ∀ (fit : Ar1 K) (current : K) (horizon : ℕ), 0 ≤ fit.phi → fit.phi ≤ maxPhi →
      Iterates fit current horizon
        (forecastMeans fit current horizon, forecastBands sqrt fit horizon) := by
  constructor
  · intro normal current mbar sigma horizon seed phiTrue
    exact iterates_forecast (ar1Phi_mem _) hsqrt current horizon
  · intro fit current horizon hnonneg hle
    exact iterates_forecast ⟨hnonneg, hle⟩ hsqrt current horizon

end Forecasts

/-- Five days of the level: with the fit of a history without noise, and with a fit that keeps nine
tenths of the distance each day. -/
theorem forecastFactor_iterates_fiveDays :
    Iterates
        (ar1Fit Real.sqrt
          (history ((List.range 120).map fun _ => 0) (22 / 100) (20 / 100) (9 / 10)))
        (22 / 100) 5
        (forecastFactor Real.sqrt (fun _ _ _ => 0) (22 / 100) (20 / 100) (12 / 1000) 5 11
          (9 / 10)) ∧
      Iterates ⟨9 / 10, 20 / 100, 12 / 1000⟩ (22 / 100) 5
        (forecastMeans ⟨9 / 10, 20 / 100, 12 / 1000⟩ (22 / 100) 5,
          forecastBands Real.sqrt ⟨9 / 10, 20 / 100, 12 / 1000⟩ 5) := by
  obtain ⟨hhistory, hfit⟩ := forecastFactor_iterates isSqrt_real
  exact ⟨hhistory (fun _ _ _ => 0) (22 / 100) (20 / 100) (12 / 1000) 5 11 (9 / 10),
    hfit ⟨9 / 10, 20 / 100, 12 / 1000⟩ (22 / 100) 5 (by norm_num) (by norm_num [maxPhi])⟩

end TradingSimulator.VolForecast
