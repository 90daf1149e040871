import TradingSimulator.Execution.ExecutionEngine
import TradingSimulator.Library.Series
import Mathlib.Data.Rat.Defs

/-!
# Performance metrics

`calculate_performance_metrics` (`app/portfolio/performance_engine.py`): the trade log is replayed
against an average cost per symbol for the winning and losing sales, and the stored equity curve
gives the return, the drawdown and the volatility. Arithmetic is exact, and the square root behind
the standard deviation is a parameter.
-/

namespace TradingSimulator

/-- An entry of the dictionary `positions` of the replay. -/
structure ReplayPosition where
  quantity : ℚ
  avgPrice : ℚ
  deriving DecidableEq

/-- The variables of the loop over the trades. -/
structure PerformanceState where
  wins : ℕ
  losses : ℕ
  profit : ℚ
  loss : ℚ
  positions : String → Option ReplayPosition

/-- The dictionary `calculate_performance_metrics` returns. -/
structure PerformanceMetrics where
  totalReturn : ℚ
  winRate : ℚ
  totalTrades : ℕ
  profitFactor : ℚ
  maxDrawdown : ℚ
  avgProfit : ℚ
  avgLoss : ℚ
  volatility : ℚ
  sharpeRatio : ℚ
  deriving DecidableEq

namespace PerformanceEngine

/-- `EPS`. -/
def eps : ℚ := 1 / 10 ^ 9

/-- `_empty_metrics`. -/
def emptyMetrics : PerformanceMetrics :=
  { totalReturn := 0, winRate := 0, totalTrades := 0, profitFactor := 0, maxDrawdown := 0
    avgProfit := 0, avgLoss := 0, volatility := 0, sharpeRatio := 0 }

/-! ### Replaying the trades -/

/-- The variables before the loop. -/
def start : PerformanceState :=
  { wins := 0, losses := 0, profit := 0, loss := 0, positions := fun _ => none }

/-- `positions[symbol]`, after a missing entry has been created. -/
def positionOf (state : PerformanceState) (symbol : String) : ReplayPosition :=
  (state.positions symbol).getD ⟨0, 0⟩

/-- The entry after a buy: the average price is left alone when nothing is held. -/
def buyPosition (pos : ReplayPosition) (trade : Trade ℚ) : ReplayPosition :=
  let totalCost := pos.avgPrice * pos.quantity + trade.price * trade.quantity
  let quantity := pos.quantity + trade.quantity
  { quantity, avgPrice := if 0 < quantity then totalCost / quantity else pos.avgPrice }

/-- The quantity that a sale closes. -/
def sellQty (pos : ReplayPosition) (trade : Trade ℚ) : ℚ := min trade.quantity pos.quantity

/-- The P&L of a sale. -/
def salePnl (pos : ReplayPosition) (trade : Trade ℚ) : ℚ :=
  (trade.price - pos.avgPrice) * sellQty pos trade

/-- The body of the loop over the trades. -/
def replayTrade (state : PerformanceState) (trade : Trade ℚ) : PerformanceState :=
  let pos := positionOf state trade.symbol
  let write := fun pos => Function.update state.positions trade.symbol (some pos)
  if trade.action = "BUY" then { state with positions := write (buyPosition pos trade) }
  else if trade.action = "SELL" then
    -- a sale of what is not held is skipped
    if pos.quantity ≤ 0 then { state with positions := write pos }
    else
      let pnl := salePnl pos trade
      let positions := write { pos with quantity := pos.quantity - sellQty pos trade }
      if 0 < pnl then
        { state with wins := state.wins + 1, profit := state.profit + pnl, positions }
      else
        { state with losses := state.losses + 1, loss := state.loss + |pnl|, positions }
  else { state with positions := write pos }

/-- `order_by(Trade.timestamp.asc())`. -/
def byTimestamp (trades : List (Trade ℚ)) : List (Trade ℚ) :=
  trades.mergeSort fun a b => decide (a.timestamp ≤ b.timestamp)

/-- The loop over the trades in the order of their timestamps. -/
def replay (trades : List (Trade ℚ)) : PerformanceState :=
  (byTimestamp trades).foldl replayTrade start

/-! ### The equity curve -/

/-- `get_equity_curve`: the equities in the order of their timestamps, none when the query
fails. -/
def equityCurve (history : Except DbError (List (EquityHistory ℚ))) : List ℚ :=
  match history with
  | .ok history =>
    (history.mergeSort fun a b => decide (a.timestamp ≤ b.timestamp)).map EquityHistory.totalEquity
  | .error _ => []

/-- The return from the first to the last point of the curve in percent. -/
def totalReturn (curve : List ℚ) : ℚ :=
  match curve.head?, curve.getLast? with
  | some initial, some final =>
    if 2 ≤ curve.length then (final - initial) / max initial eps * 100 else 0
  | _, _ => 0

/-- The loop that keeps the peak and the deepest fall from it. -/
def maxDrawdown (curve : List ℚ) : ℚ :=
  match curve with
  | [] => 0
  | first :: _ =>
    (curve.foldl (fun (state : ℚ × ℚ) equity =>
      let peak := if state.1 < equity then equity else state.1
      (peak, max state.2 ((peak - equity) / max peak eps))) (first, 0)).2

/-- The returns between consecutive points of the curve. -/
def returns (curve : List ℚ) : List ℚ :=
  List.zipWith (fun change equity => change / max equity eps) (Series.diff curve) curve

/-- The standard deviation of the returns and their mean per unit of it. -/
def volatilityAndSharpe (sqrt : ℚ → ℚ) (curve : List ℚ) : ℚ × ℚ :=
  let returns := returns curve
  if 1 < returns.length then
    let volatility := Series.std sqrt returns
    (volatility, if 0 < volatility then Series.mean returns / volatility else 0)
  else (0, 0)

/-- `calculate_performance_metrics`, from the outcomes of its two queries. -/
def calculatePerformanceMetrics (sqrt : ℚ → ℚ) (trades : Except DbError (List (Trade ℚ)))
    (history : Except DbError (List (EquityHistory ℚ))) : PerformanceMetrics :=
  match trades with
  | .error _ => emptyMetrics
  | .ok [] => emptyMetrics
  | .ok trades =>
    let state := replay trades
    -- every sale that is replayed counts, as one without a gain is a loss
    let totalTrades := state.wins + state.losses
    let curve := equityCurve history
    let (volatility, sharpeRatio) := volatilityAndSharpe sqrt curve
    { totalReturn := totalReturn curve
      winRate := state.wins / max (totalTrades : ℚ) 1 * 100
      totalTrades
      profitFactor := state.profit / max state.loss eps
      maxDrawdown := maxDrawdown curve
      avgProfit := state.profit / max (state.wins : ℚ) 1
      avgLoss := state.loss / max (state.losses : ℚ) 1
      volatility
      sharpeRatio }

end PerformanceEngine

end TradingSimulator
