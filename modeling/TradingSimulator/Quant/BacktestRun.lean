import TradingSimulator.Library.Drawdown
import TradingSimulator.Library.Rounding
import TradingSimulator.Quant.EquityBounds
import Mathlib.Algebra.Order.Floor.Ring
import Mathlib.Data.List.DropRight

/-!
# A run of the backtester

`run_backtest` (`app/quant/backtester.py`), from its arguments to the dictionary it returns: the
number of bars, the curves, the metrics, and the points of the curves that go into the chart. The
prices come from a random generator that is seeded with the symbol, and are a parameter.

The lower bound of `120` is applied to the years, before they are turned into bars, so that every
backtest of a year or more runs over the longest span (`barCount_of_one_le`), and the chart of this
span has more points than it is meant to have (`runBacktest_span`).
-/

namespace TradingSimulator.Backtester

open Rounding Series

/-- `TRADING_DAYS`. -/
def TRADING_DAYS : ℕ := 252

/-- What a run takes from elsewhere: the square root and the power of numpy, `round`, the case of a
string, and the prices of a symbol over a number of bars. -/
structure Numerics (K : Type) where
  sqrt : K → K
  pow : K → K → K
  round : K → ℕ → K
  upper : String → String
  lower : String → String
  /-- `_synth_prices`. -/
  synthPrices : String → ℕ → List K

/-- The metrics that `_metrics` computes. -/
structure Metrics (K : Type) where
  totalReturn : K
  cagr : K
  vol : K
  sharpe : K
  sortino : K
  maxDrawdown : K
  calmar : K

/-- The metrics of a strategy: those of its curve, and what `run_backtest` adds to them. -/
structure StrategyMetrics (K : Type) extends Metrics K where
  winRate : K
  trades : ℕ
  profitFactor : K
  exposure : K
  alpha : K

/-- An entry of `series`. The date is given by the bar. -/
structure SeriesPoint (K : Type) where
  bar : ℕ
  equity : K
  benchmark : K
  price : K
  drawdown : K

/-- What `run_backtest` returns for a strategy that it knows. -/
structure Backtest (K : Type) where
  symbol : String
  strategy : Strategy
  initial : K
  params : Params K
  series : List (SeriesPoint K)
  signals : List (TradeSignal K)
  metrics : StrategyMetrics K
  benchmark : Metrics K

/-- The strategy of a name. -/
def Strategy.ofName : String → Option Strategy
  | "sma" => some .sma
  | "ema" => some .ema
  | "rsi" => some .rsi
  | "momentum" => some .momentum
  | "bollinger" => some .bollinger
  | _ => none

/-- The bars that go into the chart: every `step`-th one, and the last one. -/
def sampleBars (n : ℕ) : List ℕ :=
  let step := max 1 (n / 520)
  -- `range(0, n, step)`
  let idx := List.range' 0 ((n + step - 1) / step) step
  if idx.getLast? = some (n - 1) then idx else idx ++ [n - 1]

section Definitions

variable {K : Type} [Field K] [LinearOrder K]

/-- `dd` in `_metrics`: the fall below the running maximum at every bar. -/
def drawdowns (equity : List K) : List K :=
  List.zipWith (fun equity peak => equity / peak - 1) equity (Drawdown.runningMax equity)

/-- `max_dd` in `_metrics`. -/
def maxDd (equity : List K) : Option K := (drawdowns equity).min?

/-- `_metrics`: the metrics of a curve, with its drawdowns. -/
def metrics (num : Numerics K) (dailyRet equity : List K) :
    Except ArrayError (Metrics K × List K) := do
  let years := max ((dailyRet.length : K) / TRADING_DAYS) (1 / ((10 : ℕ) : K) ^ 9)
  let first ← equity.head?.elim (.error .index) .ok
  let last ← equity.getLast?.elim (.error .index) .ok
  let total := last / first - 1
  let cagr := num.pow (last / first) (1 / years) - 1
  let deviation := std num.sqrt dailyRet
  let vol := deviation * num.sqrt TRADING_DAYS
  let mean := Series.mean dailyRet
  let sharpe := if 0 < deviation then mean / deviation * num.sqrt TRADING_DAYS else 0
  let downside := dailyRet.filter fun r => r < 0
  let dstd := if downside = [] then 0 else std num.sqrt downside
  let sortino := if 0 < dstd then mean / dstd * num.sqrt TRADING_DAYS else 0
  let maxDd ← (maxDd equity).elim (.error .index) .ok
  let calmar := if maxDd < 0 then cagr / |maxDd| else 0
  .ok (
    { totalReturn := num.round (total * (100 : ℕ)) 2
      cagr := num.round (cagr * (100 : ℕ)) 2
      vol := num.round (vol * (100 : ℕ)) 2
      sharpe := num.round sharpe 2
      sortino := num.round sortino 2
      maxDrawdown := num.round (maxDd * (100 : ℕ)) 2
      calmar := num.round calmar 2 }, drawdowns equity)

variable [FloorRing K]

/-- The number of bars of a backtest over a number of years. -/
def barCount (years : K) : ℕ :=
  let n :=
    if 1 ≤ years then truncate (max ((120 : ℕ) : K) (min years ((10 : ℕ) : K)) * TRADING_DAYS)
    else truncate (years * TRADING_DAYS)
  (max 150 (min n 2520)).toNat

/-- `run_backtest`, without a result for a strategy that it does not know. -/
def runBacktest (num : Numerics K) (symbol strategy : String) (p : Params K)
    (costBps years initial : K) : Except ArrayError (Option (Backtest K)) :=
  match Strategy.ofName (num.lower strategy) with
  | none => .ok none
  | some strategy => do
    let n := barCount years
    let price := num.synthPrices symbol n
    let c ← curves num.sqrt strategy p costBps initial price
    let first ← price.head?.elim (.error .index) .ok
    let bench := price.map fun price => initial * (price / first)
    let (stratM, dd) ← metrics num c.net c.equity
    let benchRet ← assignFrom (List.replicate n 0) 1 (c.ret.drop 1)
    let (benchM, _) ← metrics num benchRet bench
    let log := extractTrades price c.pos
    let tradeM := tradeMetrics num.round log
    let series := (sampleBars n).map fun i =>
      { bar := i
        equity := num.round (c.equity.getD i 0) 2
        benchmark := num.round (bench.getD i 0) 2
        price := num.round (price.getD i 0) 2
        drawdown := num.round (dd.getD i 0 * (100 : ℕ)) 2 }
    .ok <| some
      { symbol := num.upper symbol
        strategy
        initial
        params := p
        series
        signals := log.signals.rtake 40
        metrics :=
          { stratM with
            winRate := tradeM.winRate
            trades := tradeM.trades
            profitFactor := tradeM.profitFactor
            exposure := num.round (Series.mean c.pos * (100 : ℕ)) 1
            alpha := num.round (stratM.totalReturn - benchM.totalReturn) 2 }
        benchmark := benchM }

/-- The span of a backtest over a number of years and the bars of its chart, as they are meant to
be. -/
structure IntendedSpan (years : K) (bars : ℕ) (idx : List ℕ) : Prop where
  bars_eq : (bars : ℤ) = max 150 (min ⌊(TRADING_DAYS : K) * years⌋ 2520)
  increasing : idx.Pairwise (· < ·)
  starts : idx.head? = some 0
  ends : idx.getLast? = some (bars - 1)
  length_le : idx.length ≤ 521

end Definitions

/-! ### The bars of the chart -/

/-- The last of every `step`-th bar below `n`. -/
theorem exists_last_step {n step : ℕ} (hn : 0 < n) (hstep : 0 < step) :
    ∃ count, (n + step - 1) / step = count + 1 ∧ count * step < n := by
  have hle : 1 ≤ (n + step - 1) / step := (Nat.one_le_div_iff hstep).mpr (by omega)
  obtain ⟨count, hcount⟩ := Nat.exists_eq_add_of_le' hle
  refine ⟨count, hcount, ?_⟩
  have hmul := Nat.div_mul_le_self (n + step - 1) step
  rw [hcount, Nat.add_mul] at hmul
  omega

/-- The bars of the chart go up from the first bar to the last. -/
theorem sampleBars_spec {n : ℕ} (hn : 0 < n) :
    (sampleBars n).Pairwise (· < ·) ∧ (sampleBars n).head? = some 0 ∧
      (sampleBars n).getLast? = some (n - 1) := by
  have hstep : 0 < max 1 (n / 520) := by omega
  unfold sampleBars
  dsimp only
  generalize max 1 (n / 520) = step at hstep
  obtain ⟨count, hcount, hlast⟩ := exists_last_step hn hstep
  rw [hcount]
  have hpairwise := List.pairwise_lt_range' (s := 0) (n := count + 1) step hstep
  have hgetLast : (List.range' 0 (count + 1) step).getLast? = some (count * step) := by
    rw [List.range'_concat, List.getLast?_concat, Nat.zero_add, Nat.mul_comm]
  have hhead : (List.range' 0 (count + 1) step).head? = some 0 := rfl
  split_ifs with hend
  · exact ⟨hpairwise, hhead, hend⟩
  · refine ⟨List.pairwise_append.mpr ⟨hpairwise, List.pairwise_singleton _ _, ?_⟩, ?_, ?_⟩
    · -- the last of the sampled bars is not the last bar, so all of them are below it
      rw [hgetLast, Option.some.injEq] at hend
      intro i hi j hj
      obtain ⟨k, hk, rfl⟩ := List.mem_range'.mp hi
      have hmul : step * k ≤ count * step := by
        rw [Nat.mul_comm]
        exact Nat.mul_le_mul_right step (Nat.le_of_lt_succ hk)
      rw [List.mem_singleton.mp hj]
      omega
    · rw [List.head?_append, hhead, Option.some_or]
    · exact List.getLast?_concat

/-! ### The number of bars -/

section BarCount

variable {K : Type} [Field K] [LinearOrder K] [IsStrictOrderedRing K] [FloorRing K]

/-- A backtest of a year or more has the longest span. -/
theorem barCount_of_one_le {years : K} (hyears : 1 ≤ years) : barCount years = 2520 := by
  have hclamp : max ((120 : ℕ) : K) (min years ((10 : ℕ) : K)) = ((120 : ℕ) : K) :=
    max_eq_left ((min_le_right _ _).trans (by norm_num))
  have hbars : truncate (((120 : ℕ) : K) * TRADING_DAYS) = 30240 := by
    rw [← Nat.cast_mul, truncate, if_pos (Nat.cast_nonneg _), Int.floor_natCast]
    rfl
  rw [barCount, if_pos hyears, hclamp, hbars]
  rfl

/-- This is the span that is meant from ten years on. -/
theorem barCount_eq_iff {years : K} (hyears : 1 ≤ years) :
    (barCount years : ℤ) = max 150 (min ⌊(TRADING_DAYS : K) * years⌋ 2520) ↔ 10 ≤ years := by
  have hten : (2520 : ℤ) ≤ ⌊(TRADING_DAYS : K) * years⌋ ↔ 10 ≤ years := by
    have hbars : ((2520 : ℤ) : K) = (TRADING_DAYS : K) * 10 := by
      rw [TRADING_DAYS]
      norm_num
    have hpos : (0 : K) < (TRADING_DAYS : K) := by
      rw [TRADING_DAYS]
      norm_num
    rw [Int.le_floor, hbars, mul_le_mul_iff_right₀ hpos]
  rw [barCount_of_one_le hyears, ← hten]
  omega

end BarCount

/-! ### The result of a run -/

section Run

variable {K : Type} [Field K] [LinearOrder K]

/-- A curve with a value has a least drawdown. -/
theorem exists_maxDd {equity : List K} (hne : equity ≠ []) :
    ∃ least, maxDd equity = some least := by
  refine Option.ne_none_iff_exists'.mp (mt List.min?_eq_none_iff.mp fun hnil => ?_)
  have hlength := congrArg List.length hnil
  simp only [drawdowns, List.length_zipWith, Drawdown.length_runningMax, min_self,
    List.length_nil, List.length_eq_zero_iff] at hlength
  exact hne hlength

/-- It has metrics, and its least drawdown is among them. -/
theorem exists_metrics (num : Numerics K) (dailyRet : List K) {equity : List K} {least : K}
    (hne : equity ≠ []) (hleast : maxDd equity = some least) :
    ∃ m, metrics num dailyRet equity = .ok (m, drawdowns equity) ∧
      m.maxDrawdown = num.round (least * (100 : ℕ)) 2 := by
  obtain ⟨first, rest, rfl⟩ := List.exists_cons_of_ne_nil hne
  have hlast : (first :: rest).getLast? = some ((first :: rest).getLast hne) :=
    List.getLast?_eq_some_getLast hne
  simp only [metrics, List.head?_cons, hlast, hleast, Option.elim, bind, Except.bind]
  exact ⟨_, rfl, rfl⟩

variable [IsStrictOrderedRing K] [FloorRing K]

omit [IsStrictOrderedRing K] in
/-- A run of a known strategy with admitted parameters has a result, and the chart shows the sampled
bars. -/
theorem exists_runBacktest {num : Numerics K} {symbol name : String} {strategy : Strategy}
    {p : Params K} {years : K} (costBps initial : K)
    (hname : Strategy.ofName (num.lower name) = some strategy) (hp : p.Admitted)
    (hprices : ∀ n, (num.synthPrices symbol n).length = n) (hbars : 150 ≤ barCount years) :
    ∃ result, runBacktest num symbol name p costBps years initial = .ok (some result) ∧
      result.series.map SeriesPoint.bar = sampleBars (barCount years) := by
  set price := num.synthPrices symbol (barCount years) with hprice
  have hlength : price.length = barCount years := hprices (barCount years)
  obtain ⟨first, rest, hcons⟩ := List.exists_cons_of_length_pos (show 0 < price.length by omega)
  have hhead : price.head? = some first := by rw [hcons]; rfl
  obtain ⟨pos, hpos, -, -, hcurves⟩ :=
    exists_curves num.sqrt strategy hp (hbars.trans_eq hlength.symm)
  obtain ⟨c, hc, -, hret, hnet, hequity⟩ := hcurves costBps initial
  have hreturns : (barReturns price).length = price.length :=
    length_barReturns (hcons ▸ List.cons_ne_nil first rest)
  have hequityNe : c.equity ≠ [] := by
    rw [hequity, equityCurve_eq initial costBps (hreturns.trans hpos.symm)]
    intro hnil
    have hzero := congrArg List.length hnil
    simp only [List.length_map, cumprod, length_scan, positionBars, List.length_zip, hpos,
      hreturns, List.length_cons, List.length_nil] at hzero
    omega
  -- neither curve is empty, so both have metrics
  obtain ⟨stratDd, hstratDd⟩ := exists_maxDd hequityNe
  obtain ⟨stratM, hstratM, -⟩ := exists_metrics num c.net hequityNe hstratDd
  -- `bench_ret[1:] = ret[1:]` fits, because there is a return for every bar
  have hbenchRet : assignFrom (List.replicate (barCount years) (0 : K)) 1 (c.ret.drop 1) =
      .ok ((List.replicate (barCount years) (0 : K)).take 1 ++ c.ret.drop 1) := by
    refine assignFrom_of_length_eq ?_
    rw [hret, List.length_drop, List.length_replicate, hreturns, hlength]
  have hbenchNe : price.map (fun price => initial * (price / first)) ≠ [] := by
    rw [hcons]
    exact List.cons_ne_nil _ _
  obtain ⟨benchDd, hbenchDd⟩ := exists_maxDd hbenchNe
  obtain ⟨benchM, hbenchM, -⟩ := exists_metrics num
    ((List.replicate (barCount years) (0 : K)).take 1 ++ c.ret.drop 1) hbenchNe hbenchDd
  simp only [runBacktest, hname, ← hprice, hc, hhead, hstratM, hbenchRet, hbenchM, Option.elim,
    bind, Except.bind]
  refine ⟨_, rfl, ?_⟩
  simp [Function.comp_def]

/-- A backtest of a year or more never has the span and the chart that are meant: it takes ten years
for the number of bars to be right, and the chart has `631` bars. They still go up from the first
bar to the last. -/
theorem runBacktest_span (num : Numerics K) (symbol name : String) (strategy : Strategy)
    (p : Params K) (costBps years initial : K)
    (hname : Strategy.ofName (num.lower name) = some strategy) (hp : p.Admitted)
    (hprices : ∀ n, (num.synthPrices symbol n).length = n) (hyears : 1 ≤ years) :
    ∃ result, runBacktest num symbol name p costBps years initial = .ok (some result) ∧
      let idx := result.series.map SeriesPoint.bar
      ((barCount years : ℤ) = max 150 (min ⌊(TRADING_DAYS : K) * years⌋ 2520) ↔ 10 ≤ years) ∧
        idx.Pairwise (· < ·) ∧ idx.head? = some 0 ∧ idx.getLast? = some (barCount years - 1) ∧
        idx.length = 631 ∧ ¬ IntendedSpan years (barCount years) idx := by
  have hcount : barCount years = 2520 := barCount_of_one_le hyears
  obtain ⟨result, hrun, hidx⟩ := exists_runBacktest costBps initial hname hp hprices
    (show 150 ≤ barCount years by omega)
  have hlength : (sampleBars (barCount years)).length = 631 := by
    rw [hcount]
    decide +kernel
  obtain ⟨hincreasing, hstarts, hends⟩ :=
    sampleBars_spec (show 0 < barCount years by omega)
  refine ⟨result, hrun, ?_⟩
  rw [hidx]
  refine ⟨barCount_eq_iff hyears, hincreasing, hstarts, hends, hlength, fun hspan => ?_⟩
  have hcap := hspan.length_le
  omega

end Run

/-- Prices that do not move, and no rounding. -/
def flatNumerics : Numerics ℚ where
  sqrt := id
  pow x _ := x
  round x _ := x
  upper := id
  lower := id
  synthPrices _ n := List.replicate n 1

/-- Three years of a price that does not move. -/
theorem runBacktest_span_flat :
    ∃ result, runBacktest flatNumerics "AAPL" "sma" ⟨20, 50, 14, 30, 55⟩ 5 3 100000 =
        .ok (some result) ∧
      let idx := result.series.map SeriesPoint.bar
      ((barCount (3 : ℚ) : ℤ) = max 150 (min ⌊(TRADING_DAYS : ℚ) * 3⌋ 2520) ↔ (10 : ℚ) ≤ 3) ∧
        idx.Pairwise (· < ·) ∧ idx.head? = some 0 ∧
        idx.getLast? = some (barCount (3 : ℚ) - 1) ∧ idx.length = 631 ∧
        ¬ IntendedSpan (3 : ℚ) (barCount (3 : ℚ)) idx :=
  runBacktest_span flatNumerics "AAPL" "sma" .sma _ 5 3 100000 rfl admitted_default
    (fun _ => List.length_replicate) (by norm_num)

/-- Three years are `756` bars, and the backtest runs over `2520`. -/
theorem threeYears_span :
    barCount (3 : ℚ) = 2520 ∧ ⌊(TRADING_DAYS : ℚ) * 3⌋ = 756 ∧
      ¬ ∃ result, runBacktest flatNumerics "AAPL" "sma" ⟨20, 50, 14, 30, 55⟩ 5 3 100000 =
          .ok (some result) ∧
        IntendedSpan (3 : ℚ) (barCount (3 : ℚ)) (result.series.map SeriesPoint.bar) := by
  have hcount : barCount (3 : ℚ) = 2520 := barCount_of_one_le (by norm_num)
  have hfloor : ⌊(TRADING_DAYS : ℚ) * 3⌋ = 756 := by
    rw [TRADING_DAYS]
    norm_num
  refine ⟨hcount, hfloor, ?_⟩
  rintro ⟨result, -, hspan⟩
  have hbars := hspan.bars_eq
  rw [hcount, hfloor] at hbars
  omega

end TradingSimulator.Backtester
