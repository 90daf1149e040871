import TradingSimulator.Api.TradeRuns
import TradingSimulator.Library.Runs

/-!
# The trade log as a record of the holdings

The P&L and performance reports replay the recorded trades with the actions `BUY` and `SELL`. The
engine treats every action other than `BUY` as a sale and records it under its own name, so such a
trade moves the position and is not replayed. `always_logged_iff` says that the log accounts for
the holdings throughout a run exactly when the run fills no such request, and `holdOrder_unlogged`
shows one.
-/

namespace TradingSimulator

/-- What a recorded trade adds to the replayed quantity of `symbol`. -/
def Trade.replayedQuantity (symbol : String) (trade : Trade ℚ) : ℚ :=
  if trade.symbol = symbol then
    if trade.action = "BUY" then trade.quantity
    else if trade.action = "SELL" then -trade.quantity
    else 0
  else 0

namespace Account

/-- The quantities bought less the quantities sold of `symbol` in the trade log. -/
def replayedQuantity (account : Account ℚ) (symbol : String) : ℚ :=
  (account.trades.map (Trade.replayedQuantity symbol)).sum

/-- The log accounts for what is held of every symbol. -/
def Logged (account : Account ℚ) : Prop :=
  ∀ symbol, account.quantityOf symbol = account.replayedQuantity symbol

end Account

/-- A request that the engine fills is a `BUY` or a `SELL`: any other action passes the checks only
without a valid quote for the symbol or without the shares to sell. -/
def KnownAction (upper : String → String) (account : Account ℚ) (call : TradeCall ℚ) : Prop :=
  upper call.request.action = "BUY" ∨ upper call.request.action = "SELL" ∨
    ¬ (Admitted account call ∧
      (∃ price, validPrice? (call.market.getPrice (upper call.request.symbol)) = some price) ∧
      ∃ held, account.position? (upper call.request.symbol) = some held ∧
        call.request.quantity ≤ held.quantity)

variable {upper : String → String} {account : Account ℚ} {call : TradeCall ℚ}

/-- A bought or sold quantity is replayed as the engine moved it. -/
theorem replayedQuantity_toTrade {price : ℚ} {fill : Fill ℚ}
    (haction : upper call.request.action = "BUY" ∨ upper call.request.action = "SELL")
    (symbol : String) :
    (call.toTrade upper price fill).replayedQuantity symbol =
      if upper call.request.symbol = symbol then
        signedQuantity (upper call.request.action) call.request.quantity
      else 0 := by
  rcases haction with haction | haction <;>
    simp [Trade.replayedQuantity, TradeCall.toTrade, Fill.toTrade, signedQuantity, haction]

/-- A quantity moved under any other action is not replayed. -/
theorem replayedQuantity_toTrade_other {price : ℚ} {fill : Fill ℚ}
    (hbuy : upper call.request.action ≠ "BUY") (hsell : upper call.request.action ≠ "SELL")
    (symbol : String) : (call.toTrade upper price fill).replayedQuantity symbol = 0 := by
  simp [Trade.replayedQuantity, TradeCall.toTrade, Fill.toTrade, hbuy, hsell]

/-- A filled request moves holdings and log by the signed quantity and by what is replayed of it. -/
theorem logged_tradeStep_of_filled_iff (hrows : account.RowsValid) (hlogged : account.Logged)
    (hadmitted : Admitted account call) {price : ℚ} {fill : Fill ℚ}
    (hfills : Fills upper account call price fill) :
    (tradeStep upper account call).Logged ↔
      ∀ symbol, (if upper call.request.symbol = symbol then
          signedQuantity (upper call.request.action) call.request.quantity else 0) =
        (call.toTrade upper price fill).replayedQuantity symbol := by
  have hheld : ∀ symbol, (account.record (call.toTrade upper price fill) fill).quantityOf symbol =
      account.quantityOf symbol + if upper call.request.symbol = symbol then
        signedQuantity (upper call.request.action) call.request.quantity else 0 :=
    Account.quantityOf_record hfills.2 rfl hrows.unique
  rw [tradeStep_of_filled hadmitted hfills]
  refine forall_congr' fun symbol => ?_
  rw [quantityOf_recordEquitySnapshot, hheld, hlogged symbol, Account.replayedQuantity,
    Account.replayedQuantity, recordEquitySnapshot_trades, Account.record_trades, List.map_append,
    List.sum_append, List.map_singleton, List.sum_singleton, add_right_inj]

/-- One request keeps the log complete exactly when it is not filled under an unknown action. -/
theorem tradeStep_logged_iff (hrows : account.RowsValid) (hlogged : account.Logged) :
    (tradeStep upper account call).Logged ↔ KnownAction upper account call := by
  by_cases hknown : upper call.request.action = "BUY" ∨ upper call.request.action = "SELL"
  · refine iff_of_true ?_ (hknown.imp_right Or.inl)
    by_cases hfilled : Filled upper account call
    · obtain ⟨hadmitted, price, fill, hfills⟩ := hfilled
      rw [logged_tradeStep_of_filled_iff hrows hlogged hadmitted hfills]
      exact fun symbol => (replayedQuantity_toTrade hknown symbol).symm
    · rwa [tradeStep_of_not_filled hfilled]
  · -- under an unknown action the request is filled as a sale
    obtain ⟨hbuy, hsell⟩ := not_or.mp hknown
    have hfilled_iff : Filled upper account call ↔ Admitted account call ∧
        (∃ price, validPrice? (call.market.getPrice (upper call.request.symbol)) = some price) ∧
        ∃ held, account.position? (upper call.request.symbol) = some held ∧
          call.request.quantity ≤ held.quantity := by
      refine and_congr_right fun hadmitted => ?_
      rw [exists_fills_iff hrows hadmitted]
      simp [hbuy]
    simp only [KnownAction, hbuy, hsell, false_or, ← hfilled_iff]
    constructor
    · -- the holding moves by a positive quantity, the replayed log does not
      rintro hnext ⟨hadmitted, price, fill, hfills⟩
      have hmoved := (logged_tradeStep_of_filled_iff hrows hlogged hadmitted hfills).mp hnext
        (upper call.request.symbol)
      rw [if_pos rfl, replayedQuantity_toTrade_other hbuy hsell, signedQuantity, if_neg hbuy,
        neg_eq_zero] at hmoved
      exact hadmitted.quantity_pos.ne' hmoved
    · intro hfilled
      rwa [tradeStep_of_not_filled hfilled]

/-- From an account without positions and trades, the log accounts for the holdings in every state
of a run exactly when no request of the run is filled under an action other than `BUY` and
`SELL`. -/
theorem always_logged_iff (upper : String → String) (account : Account ℚ)
    (hpositions : account.positions = []) (htrades : account.trades = [])
    (calls : List (TradeCall ℚ)) :
    Runs.Always (tradeStep upper) Account.Logged account calls ↔
      Runs.EveryStep (tradeStep upper) (KnownAction upper) account calls := by
  have hlogged : account.Logged := by
    intro symbol
    simp [Account.quantityOf, Account.position?, Account.replayedQuantity, hpositions, htrades]
  exact Runs.always_iff_everyStep (A := fun _ => True)
    (fun account call _ hrows => tradeStep_rowsValid upper account call hrows)
    (fun _ _ _ hrows hlogged => tradeStep_logged_iff hrows hlogged)
    (Account.RowsValid.of_nil hpositions) hlogged fun _ _ => trivial

/-- A purchase with the action in lower case. -/
theorem always_logged_buy :
    Runs.Always (tradeStep String.toUpper) Account.Logged (Account.opened 100000)
      [appleOrder 1 "buy" 10] := by
  refine (always_logged_iff String.toUpper (Account.opened 100000) rfl rfl _).mpr ?_
  rw [Runs.everyStep_cons]
  exact ⟨Or.inl (by decide +kernel), Runs.everyStep_nil⟩

/-- An order to `HOLD` sells, and the sale is missing from the replayed log. -/
theorem holdOrder_unlogged :
    ¬ Runs.Always (tradeStep String.toUpper) Account.Logged (Account.opened 100000)
      [appleOrder 1 "BUY" 10, appleOrder 2 "HOLD" 4] := by
  intro h
  -- each request is evaluated on its own: the kernel does not share the state between them
  let bought : Account ℚ := ⟨99000, [⟨"AAPL", 10, 100⟩], [⟨1, "AAPL", "BUY", 10, 100, none, 0⟩],
    [⟨100000, 0⟩]⟩
  have hbuy :
      tradeStep String.toUpper (Account.opened 100000) (appleOrder 1 "BUY" 10) = bought := by
    decide +kernel
  have hheld : (tradeStep String.toUpper bought (appleOrder 2 "HOLD" 4)).quantityOf "AAPL" = 6 := by
    decide +kernel
  have hreplayed :
      (tradeStep String.toUpper bought (appleOrder 2 "HOLD" 4)).replayedQuantity "AAPL" = 10 := by
    decide +kernel
  have hlogged := h _ List.prefix_rfl "AAPL"
  rw [List.foldl_cons, hbuy, List.foldl_cons, List.foldl_nil, hheld, hreplayed] at hlogged
  norm_num at hlogged

end TradingSimulator
