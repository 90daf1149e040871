import TradingSimulator.Library.Compounding
import TradingSimulator.Portfolio.PerformanceEngine
import TradingSimulator.Quant.BacktestRun
import TradingSimulator.Quant.ReturnPredictor
import TradingSimulator.Quant.SignalEngine

/-!
# Drawdowns

The maximum drawdown is computed in four places: in a loop over the stored equity
(`app/portfolio/performance_engine.py`), and from an array of running maxima in the backtester, the
return predictor and the signal engine (`app/quant`). On one curve they all agree with the deepest
fall over all pairs of times (`maxDrawdown_isGreatest`).

The predictor and the signal engine apply it to the compounded returns, without the capital that is
there before the first of them. A loss from the start is then only counted when some later fall is
as deep (`drawdown_fromStart_iff`).
-/

namespace TradingSimulator

open Drawdown Series

namespace ReturnPredictor

/-- What `predict_returns` reports about its strategy. -/
structure StrategyMetrics (K : Type) where
  totalReturn : K
  sharpe : K
  maxDrawdown : K
  winRate : K
  alpha : K

section Definitions

variable {K : Type} [Field K] [LinearOrder K]

/-- `_sharpe`. -/
def sharpe (sqrt : K → K) (r : List K) : K :=
  let sd := std sqrt r
  if 0 < sd then mean r / sd * sqrt ((252 : ℕ) : K) else 0

/-- `_max_dd`. -/
def maxDd (equity : List K) : Option K := (Backtester.drawdowns equity).min?

/-- `strat_metrics`, from the returns of the strategy and those of the market. -/
def stratMetrics (sqrt : K → K) (round : K → ℕ → K) (stratR yte : List K) :
    Except ArrayError (StrategyMetrics K) := do
  let eq := cumprod (stratR.map fun r => 1 + r)
  let bench := cumprod (yte.map fun r => 1 + r)
  let last ← eq.getLast?.elim (.error .index) .ok
  let benchLast ← bench.getLast?.elim (.error .index) .ok
  let maxDrawdown ← (maxDd eq).elim (.error .index) .ok
  .ok
    { totalReturn := round ((last - 1) * (100 : ℕ)) 2
      sharpe := round (sharpe sqrt stratR) 2
      maxDrawdown := round (maxDrawdown * (100 : ℕ)) 2
      winRate := round (mean (stratR.map fun r => if 0 < r then 1 else 0) * (100 : ℕ)) 1
      alpha := round ((last - benchLast) * (100 : ℕ)) 2 }

end Definitions

end ReturnPredictor

/-! ### On one curve -/

section Curve

variable {K : Type} [Field K] [LinearOrder K] [IsStrictOrderedRing K]

/-- The array of the drawdowns has the deepest fall over all pairs of times as its least entry. -/
theorem exists_min?_drawdowns {curve : List K} (hne : curve ≠ []) (hpos : ∀ y ∈ curve, 0 < y) :
    ∃ least, IsLeast (growths curve) least ∧
      (Backtester.drawdowns curve).min? = some (least - 1) := by
  obtain ⟨least, hleast, hmin⟩ := exists_isLeast_growths hne hpos
  refine ⟨least, hleast, ?_⟩
  have hmap := min?_map (f := fun ratio => ratio - 1) (fun a b hab => sub_le_sub_right hab 1) hmin
  rwa [List.map_zipWith] at hmap

end Curve

/-! ### The loop over the stored equity -/

section Performance

open PerformanceEngine

/-- The body of the loop keeps the highest value so far, and what is left at the deepest fall. -/
theorem drawdownStep_spec {curve : List ℚ} {peak fall x : ℚ} (hlow : ∀ y ∈ curve ++ [x], eps ≤ y)
    (hpeak : IsGreatest {y | y ∈ curve} peak) (hfall : IsLeast (growths curve) (1 - fall)) :
    let next := if peak < x then x else peak
    IsGreatest {y | y ∈ curve ++ [x]} next ∧
      IsLeast (growths (curve ++ [x])) (1 - max fall ((next - x) / max next eps)) := by
  intro next
  have heps : (0 : ℚ) < eps := by norm_num [eps]
  have hpos : ∀ y ∈ curve ++ [x], 0 < y := fun y hy => heps.trans_le (hlow y hy)
  have hnext : next = max peak x := by
    unfold next
    rw [max_def_lt]
  have hgreatest := isGreatest_concat hpeak x
  rw [← hnext] at hgreatest
  -- no value of the curve is so small that the peak is replaced
  have hmax : max next eps = next := max_eq_left (hlow next hgreatest.1)
  have hleft : 1 - max fall ((next - x) / next) = min (1 - fall) (x / next) := by
    rw [sub_div, div_self (hpos next hgreatest.1).ne', ← min_sub_sub_left, sub_sub_cancel]
  refine ⟨hgreatest, ?_⟩
  rw [hmax, hleft, hnext]
  exact isLeast_growths_concat hpos hpeak hfall

/-- The loop computes the deepest fall over all pairs of times. -/
theorem isLeast_growths_maxDrawdown {curve : List ℚ} (hne : curve ≠ [])
    (hlow : ∀ y ∈ curve, eps ≤ y) : IsLeast (growths curve) (1 - maxDrawdown curve) := by
  obtain ⟨first, rest, rfl⟩ := List.exists_cons_of_ne_nil hne
  -- the induction carries the peak along, on a curve that grows at its end
  have hloop : ∀ rest : List ℚ, (∀ y ∈ first :: rest, eps ≤ y) →
      let state := (first :: rest).foldl (fun (state : ℚ × ℚ) equity =>
        let peak := if state.1 < equity then equity else state.1
        (peak, max state.2 ((peak - equity) / max peak eps))) (first, 0)
      IsGreatest {y | y ∈ first :: rest} state.1 ∧
        IsLeast (growths (first :: rest)) (1 - state.2) := by
    intro rest
    induction rest using List.reverseRecOn with
    | nil =>
      intro hlow
      have heps : (0 : ℚ) < eps := by norm_num [eps]
      have hfirst : first ≠ 0 := (heps.trans_le (hlow first List.mem_cons_self)).ne'
      simpa using isLeast_growths_singleton hfirst
    | append_singleton rest x ih =>
      intro hlow
      rw [← List.cons_append] at hlow ⊢
      obtain ⟨hpeak, hfall⟩ := ih fun y hy => hlow y (List.mem_append_left [x] hy)
      rw [List.foldl_append]
      exact drawdownStep_spec hlow hpeak hfall
  exact (hloop rest hlow).2

/-- For a user with a trade, the drawdown of the metrics is the deepest fall over all pairs of
times. It is below one, and the backtester computes its negation from the same curve. -/
theorem maxDrawdown_isGreatest (sqrt : ℚ → ℚ) (trade : Trade ℚ) (trades : List (Trade ℚ))
    (history : List (EquityHistory ℚ)) (hne : history ≠ [])
    (hlow : ∀ row ∈ history, 1 / 10 ^ 9 ≤ row.totalEquity) :
    let curve := equityCurve (.ok history)
    let drawdown :=
      (calculatePerformanceMetrics sqrt (.ok (trade :: trades)) (.ok history)).maxDrawdown
    IsGreatest (falls curve) drawdown ∧ 0 ≤ drawdown ∧ drawdown < 1 ∧
      Backtester.maxDd curve = some (-drawdown) ∧
      ∀ (num : Backtester.Numerics ℚ) (dailyRet : List ℚ), ∃ m dd,
        Backtester.metrics num dailyRet curve = .ok (m, dd) ∧
          m.maxDrawdown = num.round (-drawdown * 100) 2 := by
  intro curve drawdown
  have hmem : ∀ y ∈ curve, ∃ row ∈ history, row.totalEquity = y := by
    intro y hy
    obtain ⟨row, hrow, heq⟩ := List.mem_map.mp hy
    exact ⟨row, List.mem_mergeSort.mp hrow, heq⟩
  have hcurve : ∀ y ∈ curve, eps ≤ y := by
    intro y hy
    obtain ⟨row, hrow, rfl⟩ := hmem y hy
    exact hlow row hrow
  have hcurveNe : curve ≠ [] := by
    intro hnil
    have hlength := congrArg List.length hnil
    simp only [curve, equityCurve, List.length_map, List.length_mergeSort, List.length_nil,
      List.length_eq_zero_iff] at hlength
    exact hne hlength
  have heps : (0 : ℚ) < eps := by norm_num [eps]
  have hpos : ∀ y ∈ curve, 0 < y := fun y hy => heps.trans_le (hcurve y hy)
  -- the loop and the backtester both find the least growth over all pairs of times
  have hloop : IsLeast (growths curve) (1 - drawdown) :=
    isLeast_growths_maxDrawdown hcurveNe hcurve
  obtain ⟨least, hleast, hmin⟩ := exists_min?_drawdowns hcurveNe hpos
  have hmaxDd : Backtester.maxDd curve = some (-drawdown) := by
    rw [Backtester.maxDd, hmin, hleast.unique hloop, sub_sub_cancel_left]
  refine ⟨?_, ?_, ?_, hmaxDd, fun num dailyRet => ?_⟩
  · have hfalls := isGreatest_falls hpos hloop
    rwa [sub_sub_cancel] at hfalls
  · have hone := isLeast_growths_le_one hcurveNe hpos hloop
    linarith
  · have hzero := growths_pos hpos _ hloop.1
    linarith
  · obtain ⟨m, hm, hdrawdown⟩ := Backtester.exists_metrics num dailyRet hcurveNe hmaxDd
    exact ⟨m, _, hm, hdrawdown⟩

/-- A user who has fallen from `100` to `50`. -/
def halvedHistory : List (EquityHistory ℚ) := [⟨100, 0⟩, ⟨50, 1⟩]

/-- An account that loses half of its worth. -/
theorem maxDrawdown_isGreatest_halved :
    let curve := equityCurve (.ok halvedHistory)
    let drawdown := (calculatePerformanceMetrics id
      (.ok [⟨1, "AAPL", "BUY", 1, 100, none, 0⟩]) (.ok halvedHistory)).maxDrawdown
    IsGreatest (falls curve) drawdown ∧ 0 ≤ drawdown ∧ drawdown < 1 ∧
      Backtester.maxDd curve = some (-drawdown) ∧
      ∀ (num : Backtester.Numerics ℚ) (dailyRet : List ℚ), ∃ m dd,
        Backtester.metrics num dailyRet curve = .ok (m, dd) ∧
          m.maxDrawdown = num.round (-drawdown * 100) 2 :=
  maxDrawdown_isGreatest id _ [] halvedHistory (List.cons_ne_nil _ _) (by decide +kernel)

/-- Without a trade the metrics are empty, whatever the equity has done. -/
theorem noTrades_drawdown :
    (calculatePerformanceMetrics id (.ok []) (.ok halvedHistory)).maxDrawdown = 0 ∧
      (1 / 2 : ℚ) ∈ falls (equityCurve (.ok halvedHistory)) ∧
      ¬ IsGreatest (falls (equityCurve (.ok halvedHistory)))
        (calculatePerformanceMetrics id (.ok []) (.ok halvedHistory)).maxDrawdown := by
  have hcurve : equityCurve (.ok halvedHistory) = [100, 50] := by
    rw [equityCurve, List.mergeSort_of_pairwise (by decide +kernel)]
    rfl
  have hfall : (1 / 2 : ℚ) ∈ falls (equityCurve (.ok halvedHistory)) := by
    rw [hcurve]
    exact ⟨0, 1, zero_le_one, 100, rfl, 50, rfl, by norm_num⟩
  refine ⟨rfl, hfall, fun h => ?_⟩
  have hle : (1 / 2 : ℚ) ≤ 0 := h.2 hfall
  norm_num at hle

end Performance

/-! ### Returns and the starting capital -/

section Wealth

variable {K : Type} [Field K]

/-- The wealth after every return, with the starting capital in front. -/
def wealth (r : List K) : List K := 1 :: cumprod (r.map fun x => 1 + x)

variable [LinearOrder K]

/-- A drawdown is measured from the starting capital: it is the least change over all pairs of
times, and not above a total loss. -/
structure MeasuredFromStart (r : List K) (drawdown : K) : Prop where
  isLeast : IsLeast (changes (wealth r)) drawdown
  le_total : ∀ last ∈ (wealth r).getLast?, last - 1 < 0 → drawdown ≤ last - 1

/-- Some fall between two times after the first return is as deep as every fall from the starting
capital. -/
def LaterFallAsDeep (r : List K) : Prop :=
  ∃ i j : ℕ, 1 ≤ i ∧ i ≤ j ∧ ∃ past ∈ (wealth r)[i]?, ∃ now ∈ (wealth r)[j]?,
    ∀ w ∈ wealth r, now ≤ past * w

variable [IsStrictOrderedRing K]

theorem wealth_pos {r : List K} (hr : ∀ x ∈ r, -1 < x) : ∀ w ∈ wealth r, 0 < w := by
  have hfactor : ∀ y ∈ r.map fun x => 1 + x, 0 < y :=
    List.forall_mem_map.mpr fun x hx => by linarith [hr x hx]
  exact List.forall_mem_cons.mpr ⟨one_pos, cumprod_pos hfactor⟩

/-- The drawdown is the least growth between any two days, the start among them, less one. -/
theorem measuredFromStart_iff {r : List K} {least : K} :
    MeasuredFromStart r (least - 1) ↔ IsLeast (growths (wealth r)) least := by
  rw [← isLeast_changes_iff]
  refine ⟨fun h => h.isLeast, fun h => ⟨h, fun last hlast _ => ?_⟩⟩
  -- a total loss is one of the changes
  refine h.2 ⟨0, (wealth r).length - 1, Nat.zero_le _, 1, rfl, last, ?_, by rw [div_one]⟩
  rwa [Option.mem_def, List.getLast?_eq_getElem?] at hlast

/-- The condition speaks about the growth without the starting capital. -/
theorem laterFallAsDeep_iff {r : List K} (hr : ∀ x ∈ r, -1 < x) :
    LaterFallAsDeep r ↔ ∃ ratio ∈ growths (cumprod (r.map fun x => 1 + x)),
      ∀ w ∈ wealth r, ratio ≤ w / 1 := by
  have hpos := wealth_pos hr
  constructor
  · rintro ⟨i, j, hi, hij, past, hpast, now, hnow, hle⟩
    obtain ⟨i, rfl⟩ := Nat.exists_eq_add_of_le' hi
    obtain ⟨j, rfl⟩ := Nat.exists_eq_add_of_le' (hi.trans hij)
    refine ⟨now / past, ⟨i, j, by omega, past, by simpa [wealth] using hpast, now,
      by simpa [wealth] using hnow, rfl⟩, fun w hw => ?_⟩
    rw [div_one, div_le_iff₀' (hpos past (List.mem_of_getElem? hpast))]
    exact hle w hw
  · rintro ⟨_, ⟨i, j, hij, past, hpast, now, hnow, rfl⟩, hle⟩
    have hmem : past ∈ wealth r := List.mem_cons_of_mem _ (List.mem_of_getElem? hpast)
    refine ⟨i + 1, j + 1, by omega, by omega, past, by simpa [wealth] using hpast, now,
      by simpa [wealth] using hnow, fun w hw => ?_⟩
    have hratio := hle w hw
    rwa [div_one, div_le_iff₀' (hpos past hmem)] at hratio

/-- A first return that is not a loss is enough. -/
theorem laterFallAsDeep_of_nonneg {first : K} {rest : List K} (hfirst : 0 ≤ first)
    (hr : ∀ x ∈ first :: rest, -1 < x) : LaterFallAsDeep (first :: rest) := by
  have hpos := wealth_pos hr
  have hwealth : wealth (first :: rest) =
      1 :: (1 + first) :: scan (· * ·) (1 + first) (rest.map fun x => 1 + x) := by
    rw [wealth, List.map_cons, cumprod, scan_cons, one_mul]
  obtain ⟨low, hlow⟩ := Option.ne_none_iff_exists'.mp (mt List.min?_eq_none_iff.mp
    (List.cons_ne_nil (1 + first) (scan (· * ·) (1 + first) (rest.map fun x => 1 + x))))
  obtain ⟨hmem, hle⟩ := min?_eq_some_iff_isLeast.mp hlow
  obtain ⟨j, hj⟩ := List.getElem?_of_mem hmem
  rw [hwealth] at hpos
  -- the fall from the first close, which is not below the starting capital, to the lowest one
  refine ⟨1, j + 1, le_rfl, by omega, 1 + first, by simp [hwealth], low, by simp [hwealth, hj],
    fun w hw => ?_⟩
  rw [hwealth] at hw
  rcases List.mem_cons.mp hw with rfl | hw
  · rw [mul_one]
    exact hle List.mem_cons_self
  · have hw0 : 0 < w := hpos w (List.mem_cons_of_mem 1 hw)
    exact (hle hw).trans (le_mul_of_one_le_left hw0.le (by linarith))

omit [LinearOrder K] [IsStrictOrderedRing K] in
/-- The changes of a series that is compounded are its factors again. -/
theorem pctChange_scan {start : K} (hstart : start ≠ 0) {factors : List K}
    (hne : ∀ y ∈ factors, y ≠ 0) :
    SignalEngine.pctChange (start :: scan (· * ·) start factors) = factors.map fun y => y - 1 := by
  induction factors generalizing start with
  | nil => simp [SignalEngine.pctChange, scan]
  | cons y factors ih =>
    obtain ⟨hy, hrest⟩ := List.forall_mem_cons.mp hne
    have htail := ih (mul_ne_zero hstart hy) hrest
    unfold SignalEngine.pctChange at htail ⊢
    rw [List.tail_cons] at htail
    rw [scan_cons, List.tail_cons, List.zipWith_cons_cons, htail, mul_div_cancel_left₀ y hstart,
      List.map_cons]

/-- Any returns are those of some closing prices. -/
theorem pctChange_wealth {r : List K} (hr : ∀ x ∈ r, -1 < x) :
    SignalEngine.pctChange (wealth r) = r := by
  have hfactor : ∀ y ∈ r.map fun x => 1 + x, y ≠ 0 :=
    List.forall_mem_map.mpr fun x hx => by linarith [hr x hx]
  rw [wealth, cumprod, pctChange_scan one_ne_zero hfactor, List.map_map]
  simp [Function.comp_def]

omit [IsStrictOrderedRing K] in
/-- The signal engine divides the fall by the peak, where the predictor divides first. -/
theorem zipWith_fall_eq_drawdowns {curve : List K} (hpos : ∀ y ∈ curve, 0 < y) :
    List.zipWith (fun cum peak => (cum - peak) / peak) curve (runningMax curve) =
      Backtester.drawdowns curve := by
  unfold Backtester.drawdowns
  rw [← List.map_uncurry_zip_eq_zipWith, ← List.map_uncurry_zip_eq_zipWith]
  refine List.map_congr_left ?_
  rintro ⟨cum, peak⟩ hmem
  have hpeak : peak ≠ 0 := (hpos peak (mem_of_mem_runningMax (List.of_mem_zip hmem).2)).ne'
  show (cum - peak) / peak = cum / peak - 1
  rw [sub_div, div_self hpeak]

/-- The predictor and the signal engine measure the drawdown of returns from the starting capital
if and only if some fall between two later times is as deep as every fall from it. -/
theorem drawdown_fromStart_iff (sqrt : K → K) (r : List K) (hne : r ≠ []) (hr : ∀ x ∈ r, -1 < x) :
    ((∃ d, ReturnPredictor.maxDd (cumprod (r.map fun x => 1 + x)) = some d ∧
        MeasuredFromStart r d) ↔ LaterFallAsDeep r) ∧
      ∀ close, SignalEngine.pctChange close = r → 10 ≤ r.length →
        (MeasuredFromStart r (SignalEngine.computeRisk sqrt close).maxDrawdown ↔
          LaterFallAsDeep r) := by
  set curve := cumprod (r.map fun x => 1 + x) with hcurve
  have hpos : ∀ y ∈ curve, 0 < y := fun y hy => wealth_pos hr y (List.mem_cons_of_mem 1 hy)
  have hcurveNe : curve ≠ [] := by
    intro hnil
    have hlength := congrArg List.length hnil
    simp only [hcurve, cumprod, length_scan, List.length_map, List.length_nil,
      List.length_eq_zero_iff] at hlength
    exact hne hlength
  obtain ⟨least, hleast, hmin⟩ := exists_min?_drawdowns hcurveNe hpos
  -- both measure the curve without the starting capital in front
  have hiff : MeasuredFromStart r (least - 1) ↔ LaterFallAsDeep r := by
    rw [measuredFromStart_iff, laterFallAsDeep_iff hr, ← hcurve]
    exact isLeast_growths_cons_iff hleast
  refine ⟨?_, ?_⟩
  · rw [ReturnPredictor.maxDd, hmin]
    simpa using hiff
  · rintro close rfl hlength
    rw [← hiff]
    simp only [SignalEngine.computeRisk, if_neg (not_lt.mpr hlength), ← hcurve,
      zipWith_fall_eq_drawdowns hpos, hmin, Option.getD_some]

/-- Ten returns, the first of which is the given one. -/
def firstReturn (x : ℚ) : List ℚ := x :: List.replicate 9 0

/-- The curve whose first day is a gain. -/
theorem drawdown_fromStart_iff_gain :
    ((∃ d, ReturnPredictor.maxDd (cumprod ((firstReturn 1).map fun x => 1 + x)) = some d ∧
        MeasuredFromStart (firstReturn 1) d) ↔ LaterFallAsDeep (firstReturn 1)) ∧
      ∀ close, SignalEngine.pctChange close = firstReturn 1 → 10 ≤ (firstReturn 1).length →
        (MeasuredFromStart (firstReturn 1) (SignalEngine.computeRisk id close).maxDrawdown ↔
          LaterFallAsDeep (firstReturn 1)) :=
  drawdown_fromStart_iff id (firstReturn 1) (List.cons_ne_nil _ _) (by decide +kernel)

/-- A half is lost with the first return, and neither of the two reports a drawdown. -/
theorem firstDayLoss_unreported :
    ReturnPredictor.maxDd (cumprod ((firstReturn (-1 / 2)).map fun x => 1 + x)) = some 0 ∧
      SignalEngine.pctChange ((2 : ℚ) :: List.replicate 10 1) = firstReturn (-1 / 2) ∧
      (SignalEngine.computeRisk id ((2 : ℚ) :: List.replicate 10 1)).maxDrawdown = 0 ∧
      ¬ MeasuredFromStart (firstReturn (-1 / 2)) 0 := by
  refine ⟨by decide +kernel, by decide +kernel, by decide +kernel, fun h => ?_⟩
  have hlast : (wealth (firstReturn (-1 / 2))).getLast? = some (1 / 2) := by decide +kernel
  have hle := h.le_total (1 / 2) hlast (by norm_num)
  norm_num at hle

end Wealth

end TradingSimulator
