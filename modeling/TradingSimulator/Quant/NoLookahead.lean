import TradingSimulator.Quant.Backtester
import TradingSimulator.Library.Causal
import Mathlib.Analysis.Real.Sqrt
import Mathlib.Tactic.IntervalCases

/-!
# The backtester does not look ahead

Two price series that agree up to a bar have the same indicators and signals up to that bar, for
every strategy (`signal_agree`). As a signal is traded on the next bar, the positions agree one bar
further, and the equity curves agree up to the bar (`curves_no_lookahead`).
-/

namespace TradingSimulator.Backtester

open Series

/-- A series of positive prices. -/
structure PriceSeries (K : Type) [Zero K] [LT K] where
  prices : List K
  prices_pos : ∀ price ∈ prices, 0 < price

/-- The windows of the strategies, as the indicators use them, are shorter than the series. -/
structure Params.WindowsBelow {K : Type} (p : Params K) (n : ℕ) : Prop where
  fast : max 1 p.fast < n
  slow : max 2 p.slow < n
  rsiPeriod : max 2 p.rsiPeriod < n

variable {K : Type} [Field K] {n k : ℕ} {xs ys : List K}

/-! ### Indicators -/

/-- A moving average reads the bars up to its own. -/
theorem sma_agree (h : Agree n k xs ys) (w : ℤ) : AgreeOk n k (sma xs w) (sma ys w) := by
  simp only [sma]
  have hw : 1 ≤ (max 1 w).toNat := by omega
  generalize (max 1 w).toNat = w at hw
  have hc : Agree (n + 1) (k + 1) (cumsum (0 :: xs)) (cumsum (0 :: ys)) := (h.cons 0).scan _ _
  rw [hc.left, hc.right, h.left, h.right]
  refine (AgreeOk.elementwise_lag _ hc w).bind fun sums₁ sums₂ hsums => ?_
  -- `w` sums fewer, assigned behind `w - 1` entries: the bound is back at `k`
  have hlength : n + 1 - w = n - (w - 1) := by omega
  rw [hlength] at hsums
  refine AgreeOk.mono (AgreeOk.assignFrom List.length_replicate (w - 1) (hsums.map _)) ?_
  omega

/-- The exponential average is a loop over the bars. -/
theorem ema_agree (h : Agree (n + 1) (k + 1) xs ys) (w : ℤ) :
    AgreeOk (n + 1) (k + 1) (ema xs w) (ema ys w) := by
  obtain ⟨first, us, vs, rfl, rfl, htail⟩ := h.exists_cons
  exact AgreeOk.ok (htail.scanl _ first)

/-- The averages of the gains or losses read the changes up to their own bar. -/
theorem wilder_agree (h : Agree n k xs ys) {period : ℕ} (hperiod : period < n) :
    AgreeOk n k (wilder xs period) (wilder ys period) := by
  unfold wilder
  rw [if_pos (h.left ▸ hperiod), if_pos (h.right ▸ hperiod)]
  refine AgreeOk.ok ?_
  have hlength : (List.replicate period (0 : K)).length + (n - (period + 1) + 1) = n := by
    simp only [List.length_replicate]
    omega
  by_cases hk : k ≤ period
  · -- up to the bar `period` all entries are zero
    rw [← hlength]
    exact (Agree.append_of_length_eq _ (by simp [h.left]) (by simp [h.right])).mono
      (by simpa using hk)
  · -- behind it the loop starts from the same mean
    rw [h.window_eq (show 1 + period ≤ k by omega)]
    have hloop := ((h.drop (period + 1)).scanl
      (fun prev change : K => (prev * ((period : K) - 1) + change) / period)
      (mean ((ys.drop 1).take period))).append_left (List.replicate period (0 : K))
    rw [hlength] at hloop
    exact hloop.mono (by simp only [List.length_replicate]; omega)

/-- The rolling deviation reads the window that ends at its bar. -/
theorem rollingStd_agree (sqrt : K → K) (h : Agree n k xs ys) (w : ℕ) :
    Agree n k (rollingStd sqrt xs w) (rollingStd sqrt ys w) := by
  unfold rollingStd
  exact h.slidingWindow (std sqrt) (by omega)

variable [LinearOrder K]

/-- The relative strength reads the bars up to its own. -/
theorem rsi_agree (h : Agree (n + 1) (k + 1) xs ys) {period : ℤ}
    (hperiod : max 2 period < (n + 1 : ℕ)) :
    AgreeOk (n + 1) (k + 1) (rsi xs period) (rsi ys period) := by
  have hperiod : (max 2 period).toNat < n + 1 := by omega
  obtain ⟨first, us, vs, hxs, hys, -⟩ := h.exists_cons
  have hx : xs.head? = some first := by rw [hxs]; rfl
  have hy : ys.head? = some first := by rw [hys]; rfl
  simp only [rsi, hx, hy]
  generalize (max 2 period).toNat = period at hperiod
  -- the first change is taken against the first price itself
  have hdelta := h.diff first
  refine (wilder_agree (hdelta.map _) hperiod).bind fun ag₁ ag₂ hag => ?_
  refine (wilder_agree (hdelta.map _) hperiod).bind fun al₁ al₂ hal => ?_
  have hvalues := (hag.zipWith (fun gain loss => gain / if loss = 0 then 1 / 10 ^ 9 else loss)
    hal).map fun ratio => 100 - 100 / (1 + ratio)
  refine AgreeOk.ok ?_
  -- the first entries are overwritten by a constant
  rw [hvalues.left, hvalues.right, Nat.min_eq_left hperiod.le]
  have hbehind := (hvalues.drop period).append_left (List.replicate period (50 : K))
  rw [List.length_replicate, Nat.add_sub_cancel' hperiod.le] at hbehind
  exact hbehind.mono (by omega)

/-! ### Signals and curves -/

/-- The signal of a bar depends on the prices up to it. -/
theorem signal_agree (sqrt : K → K) (strategy : Strategy) {p : Params K}
    (h : Agree (n + 1) (k + 1) xs ys) (hperiod : max 2 p.rsiPeriod < (n + 1 : ℕ)) :
    AgreeOk (n + 1) (k + 1) (signal sqrt strategy xs p) (signal sqrt strategy ys p) := by
  cases strategy with
  | sma =>
    refine (sma_agree h p.fast).bind fun f₁ f₂ hf => ?_
    refine (sma_agree h p.slow).bind fun s₁ s₂ hs => ?_
    exact AgreeOk.ok (hf.zipWith _ hs)
  | ema =>
    refine (ema_agree h p.fast).bind fun f₁ f₂ hf => ?_
    refine (ema_agree h p.slow).bind fun s₁ s₂ hs => ?_
    exact AgreeOk.ok (hf.zipWith _ hs)
  | momentum =>
    simp only [signal]
    have hlb : 1 ≤ (max 1 p.slow).toNat := by omega
    generalize (max 1 p.slow).toNat = lb at hlb
    rw [h.left, h.right]
    refine (AgreeOk.elementwise_lag _ h lb).bind fun ratios₁ ratios₂ hratios => ?_
    refine (AgreeOk.assignFrom List.length_replicate lb (hratios.map _)).bind
      fun roc₁ roc₂ hroc => ?_
    have hroc := hroc.mono (show k + 1 ≤ lb + (k + 1 - lb) by omega)
    refine (sma_agree h p.slow).bind fun trend₁ trend₂ htrend => ?_
    exact AgreeOk.ok (hroc.zipWith _ (h.zip htrend))
  -- the loops over the bars carry the position along
  | rsi =>
    refine (rsi_agree h hperiod).bind fun values₁ values₂ hvalues => ?_
    exact AgreeOk.ok (hvalues.scan _ 0)
  | bollinger =>
    refine (sma_agree h _).bind fun mid₁ mid₂ hmid => ?_
    have hlower := hmid.zipWith (Option.map₂ fun mid sd => mid - 2 * sd)
      (rollingStd_agree sqrt h (max 2 p.slow).toNat)
    exact AgreeOk.ok ((h.zip (hlower.zip hmid)).scan _ 0)

omit [LinearOrder K] in
/-- The return of a bar reads its price and the one before. -/
theorem barReturns_agree (h : Agree (n + 1) (k + 1) xs ys) :
    Agree (n + 1) (k + 1) (barReturns xs) (barReturns ys) := by
  unfold barReturns
  rw [h.left, h.right, Nat.add_sub_cancel]
  have hpast := (h.take n).mono (Nat.le_succ k)
  rw [Nat.min_eq_left (Nat.le_succ n)] at hpast
  exact (((h.drop 1).zipWith _ hpast).map _).cons 0

/-- The net return of a bar reads the position before it. -/
theorem netReturns_agree (costBps : K) {ret₁ ret₂ : List K} (hpos : Agree n k xs ys)
    (hret : Agree n k ret₁ ret₂) :
    Agree n k (netReturns costBps xs ret₁) (netReturns costBps ys ret₂) :=
  (hpos.zipWith _ hret).zipWith _ ((hpos.diff 0).map _)

omit [LinearOrder K] in
theorem equityCurve_agree (initial : K) (h : Agree n k xs ys) :
    Agree n k (equityCurve initial xs) (equityCurve initial ys) :=
  ((h.map _).scan _ 1).map _

/-- The positions agree one bar beyond the prices, the equity curves as far as the prices. -/
theorem curves_agree (sqrt : K → K) (strategy : Strategy) {p : Params K} (costBps initial : K)
    (h : Agree (n + 1) (k + 1) xs ys) (hp : p.WindowsBelow (n + 1)) :
    ∃ c₁ c₂, curves sqrt strategy p costBps initial xs = .ok c₁ ∧
      curves sqrt strategy p costBps initial ys = .ok c₂ ∧
      Agree (n + 1) (k + 2) c₁.pos c₂.pos ∧ Agree (n + 1) (k + 1) c₁.equity c₂.equity := by
  obtain ⟨s₁, s₂, hs₁, hs₂, hs⟩ := signal_agree sqrt strategy h hp.rsiPeriod
  have hne₁ : xs ≠ [] := List.ne_nil_of_length_eq_add_one h.left
  have hne₂ : ys ≠ [] := List.ne_nil_of_length_eq_add_one h.right
  -- the shift by one bar
  have hpos := (hs.take n).cons 0
  rw [Nat.min_eq_left (Nat.le_succ n)] at hpos
  have hnet := netReturns_agree costBps (hpos.mono (Nat.le_succ (k + 1))) (barReturns_agree h)
  refine ⟨_, _, curves_of_signal sqrt costBps initial hs₁ (hs.left.trans h.left.symm) hne₁,
    curves_of_signal sqrt costBps initial hs₂ (hs.right.trans h.right.symm) hne₂, ?_, ?_⟩
  · simpa only [h.left, h.right, Nat.add_sub_cancel] using hpos
  · simpa only [h.left, h.right, Nat.add_sub_cancel] using equityCurve_agree initial hnet

/-- For every strategy and all its parameters, the positions up to bar `i + 1` and the equity up to
bar `i` depend only on the prices up to bar `i`. -/
theorem curves_no_lookahead (sqrt : K → K) (strategy : Strategy) (p : Params K)
    (costBps initial : K) (price₁ price₂ : PriceSeries K) (n i : ℕ)
    (hn₁ : price₁.prices.length = n) (hn₂ : price₂.prices.length = n) (hp : p.WindowsBelow n)
    (hagree : ∀ j ≤ i, price₁.prices[j]? = price₂.prices[j]?) :
    ∃ c₁ c₂, curves sqrt strategy p costBps initial price₁.prices = .ok c₁ ∧
      curves sqrt strategy p costBps initial price₂.prices = .ok c₂ ∧
      (∀ j ≤ i + 1, c₁.pos[j]? = c₂.pos[j]?) ∧ ∀ j ≤ i, c₁.equity[j]? = c₂.equity[j]? := by
  obtain ⟨n, rfl⟩ : ∃ m, n = m + 1 := Nat.exists_eq_succ_of_ne_zero fun hn => by
    have hslow := hp.slow
    omega
  have h : Agree (n + 1) (i + 1) price₁.prices price₂.prices :=
    Agree.iff_getElem?.mpr ⟨hn₁, hn₂, fun j hj => hagree j (Nat.le_of_lt_succ hj)⟩
  obtain ⟨c₁, c₂, hc₁, hc₂, hpos, hequity⟩ := curves_agree sqrt strategy costBps initial h hp
  refine ⟨c₁, c₂, hc₁, hc₂, fun j hj => ?_, fun j hj => ?_⟩
  · exact (Agree.iff_getElem?.mp hpos).2.2 j (by omega)
  · exact (Agree.iff_getElem?.mp hequity).2.2 j (by omega)

/-- Four bars whose last price differs. -/
def lastBar [IsStrictOrderedRing K] (price : K) (h : 0 < price) : PriceSeries K where
  prices := [1, 1, 1, price]
  prices_pos := by simp [h]

/-- Two series that differ on the last bar only. -/
theorem curves_no_lookahead_lastBar :
    ∃ c₁ c₂, curves Real.sqrt .bollinger ⟨1, 2, 2, 30, 55⟩ 5 100000 [1, 1, 1, 4] = .ok c₁ ∧
      curves Real.sqrt .bollinger ⟨1, 2, 2, 30, 55⟩ 5 100000 [1, 1, 1, 5] = .ok c₂ ∧
      (∀ j ≤ 3, c₁.pos[j]? = c₂.pos[j]?) ∧ ∀ j ≤ 2, c₁.equity[j]? = c₂.equity[j]? := by
  refine curves_no_lookahead Real.sqrt .bollinger ⟨1, 2, 2, 30, 55⟩ 5 100000
    (lastBar 4 (by norm_num)) (lastBar 5 (by norm_num)) 4 2 rfl rfl ⟨?_, ?_, ?_⟩ ?_
  · norm_num
  · norm_num
  · norm_num
  · intro j hj
    interval_cases j <;> rfl

end TradingSimulator.Backtester
