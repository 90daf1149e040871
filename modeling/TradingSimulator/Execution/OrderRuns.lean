import TradingSimulator.Api.Routes
import TradingSimulator.Execution.AccountRows
import TradingSimulator.Library.Runs

/-!
# Runs of `execute_trade`

One user sends order after order to the engine. `orderStep` is the step function of the run, and
`orderStep_cases` its two outcomes: the account is as it was, or a fill has been recorded.
-/

namespace TradingSimulator

/-- The account after a call of `execute_trade`. -/
def orderStep (upper : String → String) (account : Account ℚ) (call : TradeCall ℚ) : Account ℚ :=
  (executeTrade upper call.market (some account) call.request call.stamp).2.getD account

/-- A `BUY` or a `SELL`, in any letter case, of a positive quantity. -/
structure TradeOrder (upper : String → String) (call : TradeCall ℚ) : Prop where
  action : upper call.request.action = "BUY" ∨ upper call.request.action = "SELL"
  quantity_pos : 0 < call.request.quantity

variable {upper : String → String} {account : Account ℚ} {call : TradeCall ℚ} {price : ℚ}
  {fill : Fill ℚ}

/-- An order changes nothing or records the fill that the engine computes for it. -/
theorem orderStep_cases (upper : String → String) (account : Account ℚ) (call : TradeCall ℚ) :
    orderStep upper account call = account ∨
      ∃ price fill, Fills upper account call price fill ∧
        orderStep upper account call =
          account.record (call.toTrade upper price fill) fill := by
  obtain ⟨response, hresult, -⟩ | ⟨price, fill, trade, hprice, hfill, rfl, hresult⟩ :=
    executeTrade_cases upper call.market account call.request call.stamp
  · left
    rw [orderStep, hresult, Option.getD_some]
  · right
    refine ⟨price, fill, ⟨hprice, hfill⟩, ?_⟩
    rw [orderStep, hresult, Option.getD_some]
    rfl

/-- A filled sale finds the quantity it sells. -/
theorem Fills.sell_le_quantityOf (h : Fills upper account call price fill)
    (haction : upper call.request.action = "SELL") :
    call.request.quantity ≤ account.quantityOf (upper call.request.symbol) := by
  have hfill := h.2
  rw [fillOrder, haction, if_neg (by decide)] at hfill
  obtain ⟨old, hold, hshares, -⟩ := sellFill_ok hfill
  rwa [Account.quantityOf, hold, heldQuantity_some]

/-- A filled order of a positive quantity keeps the rows valid. -/
theorem Account.RowsValid.recordFill (hrows : account.RowsValid)
    (h : Fills upper account call price fill) (hquantity : 0 < call.request.quantity) :
    (account.record (call.toTrade upper price fill) fill).RowsValid :=
  hrows.record h.2 rfl (validPrice?_eq_some_iff.mp h.1).2 hquantity

end TradingSimulator
