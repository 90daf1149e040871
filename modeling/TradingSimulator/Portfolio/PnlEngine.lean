import Mathlib.Algebra.Order.Floor.Ring
import Mathlib.Data.Rat.Floor
import TradingSimulator.Execution.ExecutionEngine
import TradingSimulator.Library.Lots

/-!
# P&L report

`app/portfolio/pnl_engine.py`: the unrealized P&L of the open positions, marked against their
stored average price, the realized P&L of the trade log by first-in-first-out lot matching, and
the report `get_total_pnl` that adds the two.

`Decimal` arithmetic is exact here; `safeDecimal` rounds to four places as the source does, and
`safeDecimal_of_onGrid` says that it leaves a multiple of 0.0001 alone. `sellLots_eq` is what one
replayed sale does to the open lots.
-/

namespace TradingSimulator

/-! ### Rounding -/

/-- `_QUANTUM`. -/
def quantum : ℚ := 1 / 10000

/-- `ROUND_HALF_UP`: to the nearest integer, a half away from zero. -/
def roundHalfUp (x : ℚ) : ℤ :=
  if x < 0 then -⌊-x + 1 / 2⌋ else ⌊x + 1 / 2⌋

/-- `safe_decimal` of a number or of `None`. -/
def safeDecimal (value : Option ℚ) : Option ℚ :=
  value.map fun value => roundHalfUp (value / quantum) * quantum

/-- A multiple of `_QUANTUM`. -/
def OnGrid (x : ℚ) : Prop := ∃ n : ℤ, x = n * quantum

/-- Rounding leaves an integer alone. -/
theorem roundHalfUp_intCast (n : ℤ) : roundHalfUp n = n := by
  have hfloor : ∀ m : ℤ, ⌊(m : ℚ) + 1 / 2⌋ = m := by
    intro m
    rw [Int.floor_eq_iff]
    constructor <;> linarith
  rw [roundHalfUp]
  split
  · -- a negative integer is rounded by its absolute value
    rw [← Int.cast_neg, hfloor, neg_neg]
  · exact hfloor n

/-- A multiple of 0.0001 is not rounded. -/
theorem safeDecimal_of_onGrid {x : ℚ} (hx : OnGrid x) : safeDecimal (some x) = some x := by
  obtain ⟨n, rfl⟩ := hx
  have hquantum : quantum ≠ 0 := by norm_num [quantum]
  rw [safeDecimal, Option.map_some, mul_div_cancel_right₀ _ hquantum, roundHalfUp_intCast]

/-- Integers are multiples of 0.0001. -/
theorem onGrid_natCast (n : ℕ) : OnGrid (n : ℚ) :=
  ⟨n * 10000, by push_cast; norm_num [quantum, mul_assoc]⟩

theorem OnGrid.zero : OnGrid 0 := ⟨0, by simp⟩

theorem OnGrid.add {x y : ℚ} (hx : OnGrid x) (hy : OnGrid y) : OnGrid (x + y) := by
  obtain ⟨m, rfl⟩ := hx
  obtain ⟨n, rfl⟩ := hy
  exact ⟨m + n, by rw [Int.cast_add, add_mul]⟩

theorem OnGrid.neg {x : ℚ} (hx : OnGrid x) : OnGrid (-x) := by
  obtain ⟨n, rfl⟩ := hx
  exact ⟨-n, by rw [Int.cast_neg, neg_mul]⟩

/-! ### Unrealized P&L -/

/-- `get_safe_price`. `lastClose` is the last close the data provider returns, `none` when it
fails or returns no rows. -/
def getSafePrice (market : MarketState ℚ) (lastClose : String → Option ℚ) (symbol : String) :
    Option ℚ :=
  match market.getPrice symbol with
  | some price => safeDecimal (some price)
  | none =>
    match lastClose symbol with
    | some close => safeDecimal (some close)
    | none => none

/-- One row of `calculate_unrealized_pnl`. -/
structure PositionPnl where
  symbol : String
  quantity : ℚ
  avgPrice : ℚ
  currentPrice : ℚ
  marketValue : ℚ
  unrealizedPnl : ℚ
  signal : String
  deriving DecidableEq

/-- `calculate_unrealized_pnl`: a position without a price is skipped. -/
def calculateUnrealizedPnl (market : MarketState ℚ) (lastClose : String → Option ℚ)
    (getSignal : String → String) (account : Account ℚ) : List PositionPnl :=
  account.positions.filterMap fun position => do
    let currentPrice ← getSafePrice market lastClose position.symbol
    let avgPrice ← safeDecimal (some position.avgPrice)
    let quantity ← safeDecimal (some position.quantity)
    pure
      { symbol := position.symbol
        quantity
        avgPrice
        currentPrice
        marketValue := quantity * currentPrice
        unrealizedPnl := (currentPrice - avgPrice) * quantity
        signal := getSignal position.symbol }

/-! ### Realized P&L -/

/-- The loop that matches a sale at `price` with the oldest lots: the P&L it adds and the lots it
leaves. -/
def sellLots (price remaining : ℚ) : List (Lot ℚ) → ℚ × List (Lot ℚ)
  | [] => (0, [])
  | lot :: lots =>
    if 0 < remaining then
      let matched := min remaining lot.units
      let gain := (price - lot.unitCost) * matched
      if lot.units - matched = 0 then
        -- the lot is taken off the queue and the loop goes on with the next one
        let rest := sellLots price (remaining - matched) lots
        (gain + rest.1, rest.2)
      else
        -- the lot outlasts the sale, so nothing remains to be matched
        (gain, { lot with units := lot.units - matched } :: lots)
    else (0, lot :: lots)

/-- The variables of the loop over the trades: the P&L so far and the open lots of each symbol. -/
structure FifoState where
  pnl : ℚ
  openLots : String → List (Lot ℚ)

/-- The body of the loop over the trades. -/
def replayTrade (state : FifoState) (trade : Trade ℚ) : FifoState :=
  match safeDecimal (some trade.quantity), safeDecimal (some trade.price) with
  | some quantity, some price =>
    let lots := state.openLots trade.symbol
    -- the actions are compared as they were stored
    if trade.action = "BUY" then
      { state with
        openLots := Function.update state.openLots trade.symbol (lots ++ [⟨quantity, price⟩]) }
    else if trade.action = "SELL" then
      let sale := sellLots price quantity lots
      { pnl := state.pnl + sale.1
        openLots := Function.update state.openLots trade.symbol sale.2 }
    else state
  | _, _ => state

/-- The loop over the trades, in the order of their ids. -/
def replayTrades (trades : List (Trade ℚ)) : FifoState :=
  trades.foldl replayTrade { pnl := 0, openLots := fun _ => [] }

/-- `calculate_realized_pnl`. -/
def calculateRealizedPnl (account : Account ℚ) : ℚ := (replayTrades account.trades).pnl

/-! ### The report -/

/-- The `summary` of the report. -/
structure PnlSummary where
  realizedPnl : ℚ
  unrealizedPnl : ℚ
  totalPnl : ℚ
  deriving DecidableEq

/-- The dictionary `get_total_pnl` returns. -/
structure TotalPnl where
  status : String
  positions : List PositionPnl
  cashBalance : ℚ
  marketValue : ℚ
  totalEquity : ℚ
  realizedPnl : ℚ
  unrealizedPnl : ℚ
  totalPnl : ℚ
  pnlPercentage : ℚ
  summary : PnlSummary
  deriving DecidableEq

/-- `get_total_pnl` of an existing user. -/
def getTotalPnl (market : MarketState ℚ) (lastClose : String → Option ℚ)
    (getSignal : String → String) (account : Account ℚ) : TotalPnl :=
  let unrealizedPositions := calculateUnrealizedPnl market lastClose getSignal account
  let realizedPnl := calculateRealizedPnl account
  let totalUnrealized := (unrealizedPositions.map PositionPnl.unrealizedPnl).sum
  let marketValue := (unrealizedPositions.map PositionPnl.marketValue).sum
  let cashBalance := account.balance
  -- positions without a price are left out of the market value and of the unrealized P&L
  let totalEquity := cashBalance + marketValue
  let invested := totalEquity - totalUnrealized
  let totalPnl := totalUnrealized + realizedPnl
  { status := "success"
    positions := unrealizedPositions
    cashBalance
    marketValue
    totalEquity
    realizedPnl
    unrealizedPnl := totalUnrealized
    totalPnl
    pnlPercentage := if 0 < invested then totalUnrealized / invested * 100 else 0
    summary := { realizedPnl, unrealizedPnl := totalUnrealized, totalPnl } }

/-! ### What the report computes -/

/-- A sale that the open lots cover earns the proceeds less the cost of the oldest units, and
leaves the others. -/
theorem sellLots_eq (price : ℚ) {quantity : ℚ} {lots : List (Lot ℚ)} (hquantity : 0 ≤ quantity)
    (hle : quantity ≤ Lot.totalUnits lots) :
    sellLots price quantity lots =
      (price * quantity - Lot.totalCost (Lot.takeUnits quantity lots),
        Lot.dropUnits quantity lots) := by
  -- along the queue, with what is left of the sale
  induction lots generalizing quantity with
  | nil =>
    rw [Lot.totalUnits_nil] at hle
    simp [sellLots, Lot.takeUnits, Lot.dropUnits, le_antisymm hle hquantity]
  | cons lot lots ih =>
    rw [Lot.totalUnits_cons] at hle
    rw [sellLots, Lot.takeUnits, Lot.dropUnits]
    by_cases hnone : quantity ≤ 0
    · -- nothing is left to be sold
      rw [if_neg (not_lt.mpr hnone), if_pos hnone, if_pos hnone, le_antisymm hnone hquantity]
      simp
    · rw [if_pos (not_le.mp hnone), if_neg hnone, if_neg hnone]
      by_cases hwhole : lot.units ≤ quantity
      · -- the oldest lot is used up
        have hrest := ih (sub_nonneg.mpr hwhole) (by linarith)
        simp only [min_eq_right hwhole, sub_self, hwhole, hrest, ↓reduceIte, Lot.totalCost_cons]
        congr 1
        ring
      · -- the oldest lot is cut
        have hrest : lot.units - quantity ≠ 0 := by linarith
        simp only [min_eq_left (not_le.mp hwhole).le, hrest, hwhole, ↓reduceIte,
          Lot.totalCost_cons, Lot.totalCost_nil]
        congr 1
        ring

/-- The report of a row whose symbol is quoted and whose numbers are multiples of 0.0001. -/
theorem calculateUnrealizedPnl_eq {market : MarketState ℚ} (lastClose : String → Option ℚ)
    (getSignal : String → String) {account : Account ℚ} (current : String → ℚ)
    (hpriced : ∀ position ∈ account.positions,
      market.getPrice position.symbol = some (current position.symbol) ∧
        OnGrid (current position.symbol))
    (hgrid : ∀ position ∈ account.positions, OnGrid position.quantity ∧ OnGrid position.avgPrice) :
    calculateUnrealizedPnl market lastClose getSignal account =
      account.positions.map fun position =>
        { symbol := position.symbol
          quantity := position.quantity
          avgPrice := position.avgPrice
          currentPrice := current position.symbol
          marketValue := position.quantity * current position.symbol
          unrealizedPnl := (current position.symbol - position.avgPrice) * position.quantity
          signal := getSignal position.symbol } := by
  rw [calculateUnrealizedPnl, ← List.filterMap_eq_map]
  refine List.filterMap_congr fun position hposition => ?_
  -- no row is skipped, and rounding to four decimals changes nothing
  obtain ⟨hquote, hcurrent⟩ := hpriced position hposition
  obtain ⟨hquantity, havg⟩ := hgrid position hposition
  simp [getSafePrice, hquote, safeDecimal_of_onGrid hcurrent, safeDecimal_of_onGrid hquantity,
    safeDecimal_of_onGrid havg]

end TradingSimulator
