import TradingSimulator.Library.Series
import Mathlib.Algebra.Order.Group.Unbundled.Abs
import Mathlib.Data.Option.NAry

/-!
# The strategy backtester

The indicators, the signals and the equity curve of `run_backtest` (`app/quant/backtester.py`), in
exact arithmetic: prices and curves are over an ordered field, and the square root behind the
standard deviation is a parameter. An entry of an array that may be NaN is an `Option`, with `none`
for NaN; a comparison with NaN is false.

A window is an integer, as the caller passes it, and each indicator first brings it to its least
admissible value.
-/

namespace TradingSimulator.Backtester

open Series

/-- The strategies that `run_backtest` knows. -/
inductive Strategy where
  | sma
  | ema
  | rsi
  | momentum
  | bollinger
  deriving DecidableEq

/-- The parameters of a strategy. -/
structure Params (K : Type) where
  fast : ℤ
  slow : ℤ
  rsiPeriod : ℤ
  rsiBuy : K
  rsiSell : K

/-- The series behind a backtest. -/
structure Curves (K : Type) where
  /-- The signal of every bar. -/
  rawSig : List K
  /-- The return of every bar. -/
  ret : List K
  /-- The position held over every bar. -/
  pos : List K
  /-- The return on the position less the cost of trading. -/
  net : List K
  equity : List K

section Definitions

variable {K : Type} [Field K] [LinearOrder K]

/-! ### Indicators -/

/-- `_sma`: moving averages from running sums. -/
def sma (x : List K) (w : ℤ) : Except ArrayError (List (Option K)) := do
  let w := (max 1 w).toNat
  let c := cumsum (0 :: x)
  -- `c[w:] - c[:-w]`
  let sums ← elementwise (fun upper lower => upper - lower) (c.drop w) (c.take (c.length - w))
  assignFrom (List.replicate x.length none) (w - 1) (sums.map fun sum => some (sum / w))

/-- `_ema`. -/
def ema (x : List K) (w : ℤ) : Except ArrayError (List K) :=
  let w := (max 1 w).toNat
  let a : K := 2 / (w + 1)
  match x with
  | [] => .error .index
  | first :: rest => .ok (rest.scanl (fun prev price => a * price + (1 - a) * prev) first)

/-- The averages of the gains or of the losses in `_rsi`: the first one is the mean of the entries
`1` to `period`, and every later one weighs the one before with `period - 1`. -/
def wilder (changes : List K) (period : ℕ) : Except ArrayError (List K) :=
  if period < changes.length then
    .ok (List.replicate period 0 ++
      (changes.drop (period + 1)).scanl
        (fun prev change : K => (prev * ((period : K) - 1) + change) / period)
        (mean ((changes.drop 1).take period)))
  else .error .index

/-- `_rsi`. -/
def rsi (x : List K) (period : ℤ) : Except ArrayError (List K) := do
  let period := (max 2 period).toNat
  let first ← x.head?.elim (.error .index) .ok
  let delta := diff (first :: x)
  let ag ← wilder (delta.map fun change => if 0 < change then change else 0) period
  let al ← wilder (delta.map fun change => if change < 0 then -change else 0) period
  -- a bar without losses is divided by a small number
  let rs := List.zipWith (fun gain loss => gain / if loss = 0 then 1 / 10 ^ 9 else loss) ag al
  let values := rs.map fun ratio => 100 - 100 / (1 + ratio)
  .ok (List.replicate (min period values.length) 50 ++ values.drop period)

/-! ### Signals -/

/-- `x > y`, false when either is NaN. -/
def above : Option K → Option K → Bool
  | some x, some y => y < x
  | _, _ => false

/-- One bar of the loop of the `rsi` strategy. -/
def rsiStep (p : Params K) (pos value : K) : K :=
  if pos = 0 ∧ value < p.rsiBuy then 1 else if pos = 1 ∧ p.rsiSell < value then 0 else pos

/-- One bar of the loop of the `bollinger` strategy, at a price with its lower band and its
average. -/
def bollingerStep (pos : K) : K × Option K × Option K → K
  | (_, none, _) => pos
  | (price, some lower, mid) =>
    if pos = 0 ∧ price < lower then 1 else if pos = 1 ∧ above (some price) mid then 0 else pos

/-- The rolling standard deviation of the `bollinger` strategy. -/
def rollingStd (sqrt : K → K) (price : List K) (w : ℕ) : List (Option K) :=
  (List.range price.length).map fun i =>
    if i < w - 1 then none else some (std sqrt ((price.drop (i + 1 - w)).take w))

/-- `_signal`. -/
def signal (sqrt : K → K) (strategy : Strategy) (price : List K) (p : Params K) :
    Except ArrayError (List K) :=
  match strategy with
  | .sma => do
    let f ← sma price p.fast
    let s ← sma price p.slow
    .ok (List.zipWith (fun f s => if above f s then 1 else 0) f s)
  | .ema => do
    let f ← ema price p.fast
    let s ← ema price p.slow
    .ok (List.zipWith (fun f s => if s < f then 1 else 0) f s)
  | .momentum => do
    let lb := (max 1 p.slow).toNat
    let ratios ← elementwise (fun price past => price / past) (price.drop lb)
      (price.take (price.length - lb))
    -- the rate of change is zero before the first full window
    let roc ← assignFrom (List.replicate price.length 0) lb (ratios.map fun ratio => ratio - 1)
    let trend ← sma price p.slow
    .ok (List.zipWith (fun roc bar => if 0 < roc ∧ above (some bar.1) bar.2 then 1 else 0) roc
      (price.zip trend))
  | .rsi => do
    let values ← rsi price p.rsiPeriod
    .ok (scan (rsiStep p) 0 values)
  | .bollinger => do
    let w := (max 2 p.slow).toNat
    let mid ← sma price w
    let lower := List.zipWith (Option.map₂ fun mid sd => mid - 2 * sd) mid (rollingStd sqrt price w)
    .ok (scan bollingerStep 0 (price.zip (lower.zip mid)))

/-! ### The equity curve -/

/-- `net`: the return on the positions, less a cost for every change of position. -/
def netReturns (costBps : K) (pos ret : List K) : List K :=
  let cost := (diff (0 :: pos)).map fun change => costBps / 10 ^ 4 * |change|
  List.zipWith (fun gross cost => gross - cost) (List.zipWith (fun pos ret => pos * ret) pos ret)
    cost

/-- `equity`: the initial amount, compounded. -/
def equityCurve (initial : K) (net : List K) : List K :=
  (cumprod (net.map fun r => 1 + r)).map fun growth => initial * growth

/-- The part of `run_backtest` that computes the equity curve of a strategy on a price series. A
signal is traded on the next bar. -/
def curves (sqrt : K → K) (strategy : Strategy) (p : Params K) (costBps initial : K)
    (price : List K) : Except ArrayError (Curves K) := do
  let n := price.length
  let rawSig ← signal sqrt strategy price p
  let ratios ← elementwise (fun price past => price / past) (price.drop 1) (price.take (n - 1))
  let ret ← assignFrom (List.replicate n 0) 1 (ratios.map fun ratio => ratio - 1)
  -- the shift by one bar: `pos[1:] = raw_sig[:-1]`
  let pos ← assignFrom (List.replicate n 0) 1 (rawSig.take (rawSig.length - 1))
  let net := netReturns costBps pos ret
  .ok { rawSig, ret, pos, net, equity := equityCurve initial net }

/-- The returns of a series: that of the first bar is zero. -/
def barReturns (price : List K) : List K :=
  0 :: (List.zipWith (fun price past => price / past) (price.drop 1)
    (price.take (price.length - 1))).map fun ratio => ratio - 1

/-- With a signal for every bar, the curves are those of the returns and of the shifted signal. -/
theorem curves_of_signal (sqrt : K → K) {strategy : Strategy} {p : Params K} (costBps initial : K)
    {price rawSig : List K} (hsignal : signal sqrt strategy price p = .ok rawSig)
    (hlength : rawSig.length = price.length) (hne : price ≠ []) :
    curves sqrt strategy p costBps initial price =
      let pos := 0 :: rawSig.take (price.length - 1)
      let net := netReturns costBps pos (barReturns price)
      .ok { rawSig, ret := barReturns price, pos, net, equity := equityCurve initial net } := by
  have hn : 1 ≤ price.length := List.length_pos_iff.mpr hne
  have hzero : (List.replicate price.length (0 : K)).take 1 = [0] := by
    rw [List.take_replicate, Nat.min_eq_left hn, List.replicate_one]
  have hratios : (price.drop 1).length = (price.take (price.length - 1)).length := by simp
  -- both slices that are assigned to are filled exactly
  have hret : assignFrom (List.replicate price.length 0) 1
      ((List.zipWith (fun price past => price / past) (price.drop 1)
        (price.take (price.length - 1))).map fun ratio => ratio - 1) = .ok (barReturns price) := by
    rw [assignFrom_of_length_eq (by simp), hzero]
    rfl
  have hpos : assignFrom (List.replicate price.length 0) 1 (rawSig.take (price.length - 1)) =
      .ok (0 :: rawSig.take (price.length - 1)) := by
    rw [assignFrom_of_length_eq (by simp [hlength]), hzero]
    rfl
  simp only [curves, hsignal, bind, Except.bind, elementwise_of_length_eq _ hratios, hret, hlength,
    hpos]

end Definitions

end TradingSimulator.Backtester
