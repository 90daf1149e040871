import TradingSimulator.Api.Routes
import TradingSimulator.Execution.AccountRows

/-!
# Runs of `POST /trades`

One user sends request after request; `tradeStep` is the step function of the run. This module
says what a request does to the columns of the account, so that the results about whole runs never
unfold the route: `tradeStep_of_not_filled` and `tradeStep_of_filled` are the two outcomes, and
`tradeStep_rowsValid` is the invariant every run keeps.
-/

namespace TradingSimulator

/-! ### Columns after a snapshot -/

section Snapshot

variable (account : Account ℚ) (market : MarketState ℚ) (now : ℤ)

@[simp]
theorem quantityOf_recordEquitySnapshot (symbol : String) :
    (account.recordEquitySnapshot market now).quantityOf symbol = account.quantityOf symbol := by
  simp [Account.quantityOf, Account.position?]

@[simp]
theorem cost_recordEquitySnapshot :
    (account.recordEquitySnapshot market now).cost = account.cost := by
  simp [Account.cost]

/-- A snapshot does not touch the positions. -/
@[simp]
theorem rowsValid_recordEquitySnapshot :
    (account.recordEquitySnapshot market now).RowsValid ↔ account.RowsValid := by
  constructor <;>
    · rintro ⟨hvalid, hunique⟩
      exact ⟨by simpa using hvalid, by simpa using hunique⟩

end Snapshot

section Requests

variable {upper : String → String} {account : Account ℚ} {call : TradeCall ℚ} {price : ℚ}
  {fill : Fill ℚ}

/-- The request passes all checks and the engine computes a fill for it. -/
def Filled (upper : String → String) (account : Account ℚ) (call : TradeCall ℚ) : Prop :=
  Admitted account call ∧ ∃ price fill, Fills upper account call price fill

/-- An admitted request has a positive quantity. -/
theorem Admitted.quantity_pos (h : Admitted account call) : 0 < call.request.quantity :=
  not_le.mp h.1

/-- The engine fills at a positive price only. -/
theorem Fills.price_pos (h : Fills upper account call price fill) : 0 < price :=
  (validPrice?_eq_some_iff.mp h.1).2

/-- When the engine fills an admitted request. -/
theorem exists_fills_iff (hrows : account.RowsValid) (hadmitted : Admitted account call) :
    (∃ price fill, Fills upper account call price fill) ↔
      ∃ price, validPrice? (call.market.getPrice (upper call.request.symbol)) = some price ∧
        ((upper call.request.action = "BUY" ∧ price * call.request.quantity ≤ account.balance) ∨
          (upper call.request.action ≠ "BUY" ∧
            ∃ held, account.position? (upper call.request.symbol) = some held ∧
              call.request.quantity ≤ held.quantity)) := by
  have hheld : ∀ old ∈ account.position? (upper call.request.symbol), 0 < old.quantity :=
    fun old hold => (hrows.valid old (Account.mem_of_position? old hold)).1
  simp only [Fills, exists_and_left]
  refine exists_congr fun price => and_congr_right fun _ => ?_
  exact exists_fillOrder_ok_iff hheld hadmitted.quantity_pos

/-- A request that is not filled leaves the account as it was. -/
theorem tradeStep_of_not_filled (h : ¬ Filled upper account call) :
    tradeStep upper account call = account :=
  (tradeStep_cases upper account call).resolve_right fun ⟨hadmitted, price, fill, hfills, _⟩ =>
    h ⟨hadmitted, price, fill, hfills⟩

/-- A filled request is recorded. -/
theorem tradeStep_of_filled (hadmitted : Admitted account call)
    (hfills : Fills upper account call price fill) :
    tradeStep upper account call =
      (account.record (call.toTrade upper price fill) fill).recordEquitySnapshot call.market
        call.now :=
  congrArg Prod.snd (trade_eq_of_fill hadmitted hfills)

/-- Every request keeps the rows valid. -/
theorem tradeStep_rowsValid (upper : String → String) (account : Account ℚ)
    (call : TradeCall ℚ) (hrows : account.RowsValid) :
    (tradeStep upper account call).RowsValid := by
  by_cases hfilled : Filled upper account call
  · obtain ⟨hadmitted, price, fill, hfills⟩ := hfilled
    -- the snapshot that follows the trade does not touch the rows
    rw [tradeStep_of_filled hadmitted hfills, rowsValid_recordEquitySnapshot]
    exact hrows.record hfills.2 rfl hfills.price_pos hadmitted.quantity_pos
  · rwa [tradeStep_of_not_filled hfilled]

end Requests

/-- An order for shares quoted at 100. -/
def appleOrder (id : ℕ) (action : String) (quantity : ℚ) : TradeCall ℚ where
  market := .ofQuotes [("AAPL", 100)]
  now := 0
  request := { symbol := "AAPL", action, quantity }
  stamp := ⟨id, 0⟩

end TradingSimulator
