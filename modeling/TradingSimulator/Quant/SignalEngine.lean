import TradingSimulator.Library.Drawdown
import TradingSimulator.Library.Series

/-!
# The signal engine

The results of `SignalEngine` (`app/quant/signal_engine.py`) and its risk metrics, in exact
arithmetic and with the square root as a parameter.
-/

namespace TradingSimulator.SignalEngine

open Series

/-- The metrics that `_compute_risk` returns. -/
structure RiskMetrics (K : Type) where
  sharpeRatio : K
  maxDrawdown : K
  volatility : K
  beta : K

inductive Signal where
  | buy
  | sell
  | hold
  deriving DecidableEq

/-- The four factors. -/
structure Factors (α : Type) where
  trend : α
  meanReversion : α
  momentum : α
  volatility : α

/-- The scores of a result: those of `_combine`, or the one of `_fallback`. -/
inductive Scores (α : Type) where
  | combined (factorScore mlPrediction adjustedScore riskPenalty agreement : α)
  | fallback (value : α)

/-- `SignalResult`, with the time of its computation in microseconds since the epoch. -/
structure SignalResult (α : Type) where
  symbol : String
  signal : Signal
  confidence : α
  scores : Scores α
  factors : Factors α
  riskMetrics : RiskMetrics α
  timestamp : ℤ

/-- `_fallback`. -/
def fallback {α : Type} [NatCast α] (symbol : String) (timestamp : ℤ) : SignalResult α where
  symbol
  signal := .hold
  confidence := ((0 : ℕ) : α)
  scores := .fallback ((1 : ℕ) : α)
  factors :=
    { trend := ((0 : ℕ) : α)
      meanReversion := ((0 : ℕ) : α)
      momentum := ((0 : ℕ) : α)
      volatility := ((0 : ℕ) : α) }
  riskMetrics :=
    { sharpeRatio := ((0 : ℕ) : α)
      maxDrawdown := ((0 : ℕ) : α)
      volatility := ((0 : ℕ) : α)
      beta := ((1 : ℕ) : α) }
  timestamp

variable {K : Type} [Field K]

/-- `pct_change().dropna()`: the returns from every value to the next one. -/
def pctChange (close : List K) : List K :=
  List.zipWith (fun now past => now / past - 1) close.tail close

/-- `Series.std` of pandas: the standard deviation of a sample. -/
def sampleStd (sqrt : K → K) (xs : List K) : K :=
  sqrt ((xs.map fun x => (x - mean xs) ^ 2).sum / ((xs.length : K) - 1))

/-- `_compute_risk`, from the closing prices. -/
def computeRisk [LinearOrder K] (sqrt : K → K) (close : List K) : RiskMetrics K :=
  let returns := pctChange close
  if returns.length < 10 then
    { sharpeRatio := 0, maxDrawdown := 0, volatility := 0, beta := 1 }
  else
    let std := sampleStd sqrt returns
    let sharpe := if 0 < std then mean returns / std * sqrt ((252 : ℕ) : K) else 0
    let cum := cumprod (returns.map fun r => 1 + r)
    let dd := List.zipWith (fun cum peak => (cum - peak) / peak) cum (Drawdown.runningMax cum)
    -- with ten returns or more there is a least entry
    { sharpeRatio := sharpe
      maxDrawdown := dd.min?.getD 0
      volatility := std * sqrt ((252 : ℕ) : K)
      beta := 1 }

end TradingSimulator.SignalEngine
