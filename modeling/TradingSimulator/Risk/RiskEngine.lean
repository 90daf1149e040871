import Mathlib.Tactic.SplitIfs
import Mathlib.Tactic.Tauto
import TradingSimulator.Models

/-!
# Pre-trade risk gate

`check_daily_loss_limit` (`app/risk/daily_loss_engine.py`) and `check_risk_limits`
(`app/risk/risk_engine.py`). Both catch every exception of their queries, so they take the
outcome of each query; `Account.riskReads` is the case in which all queries succeed, and
`checkRiskLimits_riskReads` lists what the gate checks then.
-/

namespace TradingSimulator

variable {α : Type} [Add α] [Mul α] [Neg α] [Zero α] [NatCast α]
  [LT α] [LE α] [DecidableLT α] [DecidableLE α]

/-- `MAX_DAILY_LOSS`. -/
def maxDailyLoss : ℕ := 5000

/-- `MAX_POSITION_PER_STOCK`. -/
def maxPositionPerStock : ℕ := 100

/-- `MAX_TOTAL_EXPOSURE`. -/
def maxTotalExposure : ℕ := 100000

/-- Midnight before `now`, both in microseconds since the epoch. -/
def todayStart (now : ℤ) : ℤ := now - now % 86400000000

/-- The outcomes of the queries behind the gate: the realized P&L of the day, the locked position
row of the symbol and the cost of all positions. -/
structure RiskReads (α : Type) where
  dailyRealized : Except DbError (Option α)
  position : Except DbError (Option (Position α))
  totalExposure : Except DbError (Option α)

/-- `calculate_daily_pnl`: a failed query counts as no P&L. -/
def calculateDailyPnl (total : Except DbError (Option α)) : α :=
  match total with
  | .ok total => total.getD 0
  | .error _ => 0

/-- `check_daily_loss_limit`. -/
def checkDailyLossLimit (total : Except DbError (Option α)) : Bool :=
  !decide (calculateDailyPnl total < -(maxDailyLoss : α))

/-- The body of the `try` block of `check_risk_limits`, which reads the action as it was sent. -/
def riskVerdict (reads : RiskReads α) (action : String) (quantity price : α) :
    Except DbError Bool :=
  -- each check returns before the queries of the later ones
  if checkDailyLossLimit reads.dailyRealized = false then pure false
  else if quantity ≤ 0 ∨ price ≤ 0 then pure false
  else do
    let position ← reads.position
    let currentQty := (position.map Position.quantity).getD 0
    if action = "BUY" ∧ (maxPositionPerStock : α) < currentQty + quantity then pure false
    else if action = "SELL" ∧ currentQty < quantity then pure false
    else do
      let totalExposure ← reads.totalExposure
      if action = "BUY" ∧ (maxTotalExposure : α) < totalExposure.getD 0 + quantity * price then
        pure false
      else pure true

/-- `check_risk_limits`: any exception refuses the trade. -/
def checkRiskLimits (reads : RiskReads α) (action : String) (quantity price : α) : Bool :=
  match riskVerdict reads action quantity price with
  | .ok verdict => verdict
  | .error _ => false

/-- The realized P&L of the trades since midnight. -/
def Account.dailyRealized (account : Account α) (now : ℤ) : Option α :=
  sqlSum ((account.trades.filter fun trade => todayStart now ≤ trade.timestamp).map
    Trade.realizedPnl)

/-- The sum of `quantity * avg_price` over the positions. -/
def Account.totalExposure (account : Account α) : Option α :=
  sqlSum (account.positions.map fun position => some (position.quantity * position.avgPrice))

/-- The queries of the gate on the rows of a user, when none of them fails. -/
def Account.riskReads (account : Account α) (symbol : String) (now : ℤ) : RiskReads α where
  dailyRealized := .ok (account.dailyRealized now)
  position := .ok (account.position? symbol)
  totalExposure := .ok account.totalExposure

/-- What a request must satisfy to pass the gate when no query fails. -/
theorem checkRiskLimits_riskReads (account : Account α) (symbol action : String) (now : ℤ)
    (quantity price : α) :
    checkRiskLimits (account.riskReads symbol now) action quantity price = true ↔
      checkDailyLossLimit (.ok (account.dailyRealized now)) = true ∧
      ¬ quantity ≤ 0 ∧ ¬ price ≤ 0 ∧
      (action = "BUY" → ¬ (maxPositionPerStock : α) <
        ((account.position? symbol).map Position.quantity).getD 0 + quantity) ∧
      (action = "SELL" →
        ¬ ((account.position? symbol).map Position.quantity).getD 0 < quantity) ∧
      (action = "BUY" → ¬ (maxTotalExposure : α) <
        account.totalExposure.getD 0 + quantity * price) := by
  -- without failing queries the block is a chain of tests
  have hverdict : riskVerdict (account.riskReads symbol now) action quantity price =
      if checkDailyLossLimit (.ok (account.dailyRealized now)) = false then .ok false
      else if quantity ≤ 0 ∨ price ≤ 0 then .ok false
      else if action = "BUY" ∧ (maxPositionPerStock : α) <
        ((account.position? symbol).map Position.quantity).getD 0 + quantity then .ok false
      else if action = "SELL" ∧
        ((account.position? symbol).map Position.quantity).getD 0 < quantity then .ok false
      else if action = "BUY" ∧ (maxTotalExposure : α) <
        account.totalExposure.getD 0 + quantity * price then .ok false
      else .ok true := rfl
  rw [checkRiskLimits, hverdict]
  split_ifs with hdaily hinput hlimit hshares hexposure
  · simp [hdaily]
  · simp only [false_iff]
    tauto
  · simp only [false_iff]
    tauto
  · simp only [false_iff]
    tauto
  · simp only [false_iff]
    tauto
  · simp only [true_iff]
    rw [Bool.not_eq_false] at hdaily
    tauto

end TradingSimulator
