import Mathlib.Algebra.BigOperators.Group.List.Basic
import Mathlib.Algebra.Ring.Rat
import TradingSimulator.Execution.ExecutionEngine

/-!
# Equity

`calculate_total_equity` and `calculate_realized_pnl` (`app/portfolio/equity_engine.py`) and the
snapshot writer `record_equity_snapshot` (`app/portfolio/equity_snapshot_service.py`).

`calculate_total_equity` catches every exception of its reads and answers zero, so its model takes
the outcome of each read; `Account.totalEquity` is the case in which all of them succeed, and
`totalEquity_eq` its value as cash plus marked positions.
-/

namespace TradingSimulator

section RealizedPnl

variable {α : Type} [Add α] [Zero α]

/-- `calculate_realized_pnl` of this engine, from the outcome of its query: the sum of the column
`realized_pnl`, zero when it is null or the query fails. -/
def EquityEngine.calculateRealizedPnl (realizedPnl : Except DbError (List (Option α))) : α :=
  match realizedPnl with
  | .ok column => (sqlSum column).getD 0
  | .error _ => 0

/-- `calculate_realized_pnl` when its query succeeds. -/
def Account.recordedPnl (account : Account α) : α :=
  EquityEngine.calculateRealizedPnl (.ok (account.trades.map Trade.realizedPnl))

end RealizedPnl

section Engine

variable {α : Type} [Add α] [Mul α] [Zero α] [LE α] [DecidableLE α]

/-- The price a position is marked at: its quote, or its average price when it has no positive
quote. -/
def markPrice (prices : String → Option α) (position : Position α) : α :=
  (validPrice? (prices position.symbol)).getD position.avgPrice

/-- `calculate_total_equity` from the outcomes of its reads: the balance of the user row, the
position rows and the quoted prices. -/
def calculateTotalEquity (user : Except DbError (Option α))
    (positions : Except DbError (List (Position α)))
    (prices : Except DbError (String → Option α)) : α :=
  let equity : Except DbError α := do
    match ← user with
    | none => pure 0
    | some balance =>
      let positions ← positions
      let prices ← prices
      pure (positions.foldl
        (fun total position => total + markPrice prices position * position.quantity) balance)
  -- any exception is answered with zero
  match equity with
  | .ok equity => equity
  | .error _ => 0

/-- `calculate_total_equity` when all its reads succeed. -/
def Account.totalEquity (account : Account α) (market : MarketState α) : α :=
  calculateTotalEquity (.ok (some account.balance)) (.ok account.positions)
    (.ok market.getAllPrices)

/-- Two snapshots are at least five seconds apart (`SNAPSHOT_COOLDOWN_SECONDS`). -/
def snapshotCooldown : ℤ := 5000000

/-- `order_by(timestamp.desc()).first()`. -/
def latestSnapshot (history : List (EquityHistory α)) : Option (EquityHistory α) :=
  history.foldl (fun latest row =>
    match latest with
    | none => some row
    | some best => if best.timestamp < row.timestamp then some row else some best) none

/-- `record_equity_snapshot`: add a row with the current equity unless the last one is recent. -/
def Account.recordEquitySnapshot (account : Account α) (market : MarketState α) (now : ℤ) :
    Account α :=
  match latestSnapshot account.equityHistory with
  | some last =>
    -- the cooldown is measured from the latest row
    if now - last.timestamp < snapshotCooldown then account
    else
      { account with
        equityHistory := account.equityHistory ++ [⟨account.totalEquity market, now⟩] }
  | none =>
    { account with equityHistory := account.equityHistory ++ [⟨account.totalEquity market, now⟩] }

/-- A snapshot touches the equity history only. -/
theorem recordEquitySnapshot_eq (account : Account α) (market : MarketState α) (now : ℤ) :
    ∃ history, account.recordEquitySnapshot market now =
      { account with equityHistory := history } := by
  unfold Account.recordEquitySnapshot
  split
  · split <;> exact ⟨_, rfl⟩
  · exact ⟨_, rfl⟩

@[simp]
theorem recordEquitySnapshot_balance (account : Account α) (market : MarketState α) (now : ℤ) :
    (account.recordEquitySnapshot market now).balance = account.balance := by
  obtain ⟨history, h⟩ := recordEquitySnapshot_eq account market now
  rw [h]

@[simp]
theorem recordEquitySnapshot_positions (account : Account α) (market : MarketState α) (now : ℤ) :
    (account.recordEquitySnapshot market now).positions = account.positions := by
  obtain ⟨history, h⟩ := recordEquitySnapshot_eq account market now
  rw [h]

@[simp]
theorem recordEquitySnapshot_trades (account : Account α) (market : MarketState α) (now : ℤ) :
    (account.recordEquitySnapshot market now).trades = account.trades := by
  obtain ⟨history, h⟩ := recordEquitySnapshot_eq account market now
  rw [h]

end Engine

/-- Over exact rationals a valuation whose reads succeed is the cash plus every position at its
mark. -/
theorem calculateTotalEquity_ok (balance : ℚ) (positions : List (Position ℚ))
    (prices : String → Option ℚ) :
    calculateTotalEquity (.ok (some balance)) (.ok positions) (.ok prices) =
      balance + (positions.map fun position =>
        markPrice prices position * position.quantity).sum := by
  -- the loop adds to a running total
  have hfold : ∀ (positions : List (Position ℚ)) (total : ℚ),
      positions.foldl (fun total position =>
        total + markPrice prices position * position.quantity) total =
      total + (positions.map fun position =>
        markPrice prices position * position.quantity).sum := by
    intro positions
    induction positions with
    | nil => simp
    | cons position positions ih =>
      intro total
      rw [List.foldl_cons, ih, List.map_cons, List.sum_cons, add_assoc]
  exact hfold positions balance

/-- Over exact rationals the equity is the cash plus every position at its mark. -/
theorem totalEquity_eq (account : Account ℚ) (market : MarketState ℚ) :
    account.totalEquity market = account.balance +
      (account.positions.map fun position =>
        markPrice market.prices position * position.quantity).sum :=
  calculateTotalEquity_ok account.balance account.positions market.prices

end TradingSimulator
