import TradingSimulator.Execution.OrderRuns
import TradingSimulator.Portfolio.EquityEngine
import TradingSimulator.Portfolio.FifoReference

/-!
# The two realized P&Ls of a flat account

The P&L engine replays the log against the cost of the oldest lots, the equity engine adds up what
the executor has recorded against the average cost. After almost every partial sale they differ,
by the cost that each of them assigns to the units still held. `BookInv` states both against the
same cash flow: the replay is off by the cost of the open lots, the recorded P&L by the book cost
of the position row. A symbol that is not held has neither.
-/

namespace TradingSimulator

/-- The realized P&L recorded on the trades of `symbol`, null counted as zero. -/
def recordedOf (trades : List (Trade ℚ)) (symbol : String) : ℚ :=
  ((subHistory trades symbol).map fun trade => trade.realizedPnl.getD 0).sum

/-- The cash that the sales of `symbol` have brought in less what its purchases have cost. -/
def symbolCash (trades : List (Trade ℚ)) (symbol : String) : ℚ :=
  Lot.totalCost (lotsOf "SELL" trades symbol) - Lot.totalCost (lotsOf "BUY" trades symbol)

/-- The invariant of an account that trades at multiples of 0.0001. -/
structure BookInv (account : Account ℚ) : Prop extends account.RowsValid where
  covered : CoveredHistory account.trades
  held : ∀ symbol, account.quantityOf symbol = openQuantity account.trades symbol
  /-- The recorded P&L is off the cash flow by the book cost of the row. -/
  booked : ∀ symbol, recordedOf account.trades symbol =
    symbolCash account.trades symbol + heldCost (account.position? symbol)

section Columns

variable {trades : List (Trade ℚ)} {trade : Trade ℚ}

/-- A new trade adds its profit to those of its symbol. -/
theorem recordedOf_append (symbol : String) :
    recordedOf (trades ++ [trade]) symbol =
      recordedOf trades symbol +
        if trade.symbol = symbol then trade.realizedPnl.getD 0 else 0 := by
  rw [recordedOf, subHistory_append]
  split_ifs <;> simp [recordedOf]

/-- A trade moves the open quantity of its symbol by its signed quantity. -/
theorem openQuantity_append (haction : trade.action = "BUY" ∨ trade.action = "SELL")
    (symbol : String) :
    openQuantity (trades ++ [trade]) symbol =
      openQuantity trades symbol +
        if trade.symbol = symbol then signedQuantity trade.action trade.quantity else 0 := by
  rw [openQuantity, lotsOf_append, lotsOf_append]
  by_cases hsymbol : trade.symbol = symbol
  · rcases haction with haction | haction
    · simp [hsymbol, haction, openQuantity, signedQuantity, Trade.lot]
      ring
    · simp [hsymbol, haction, openQuantity, signedQuantity, Trade.lot]
      ring
  · simp [hsymbol, openQuantity]

/-- A trade brings in the cash that its signed quantity costs. -/
theorem symbolCash_append (haction : trade.action = "BUY" ∨ trade.action = "SELL")
    (symbol : String) :
    symbolCash (trades ++ [trade]) symbol =
      symbolCash trades symbol + if trade.symbol = symbol then trade.cashFlow else 0 := by
  rw [symbolCash, lotsOf_append, lotsOf_append]
  by_cases hsymbol : trade.symbol = symbol
  · rcases haction with haction | haction
    · simp [hsymbol, haction, symbolCash, Trade.cashFlow, signedQuantity, Trade.lot]
      ring
    · simp [hsymbol, haction, symbolCash, Trade.cashFlow, signedQuantity, Trade.lot]
      ring
  · simp [hsymbol, symbolCash]

/-- The replayed P&L of a symbol is off the cash flow by the cost of its open lots. -/
theorem CoveredHistory.pnl_eq_cash (h : CoveredHistory trades) (symbol : String) :
    (replayTrades (subHistory trades symbol)).pnl =
      symbolCash trades symbol + Lot.totalCost ((replayTrades trades).openLots symbol) := by
  have hsplit := Lot.cost_takeUnits_add_cost_dropUnits
    (Lot.totalUnits (lotsOf "SELL" trades symbol)) (lotsOf "BUY" trades symbol)
  rw [(h.replay_subHistory symbol).2, h.openLots_eq, symbolCash]
  linarith

/-- SQL skips the trades without a value, which the column sum counts as zero. -/
theorem recordedPnl_eq (account : Account ℚ) : account.recordedPnl = account.realizedPnl := by
  have hcolumn : ∀ column : List (Option ℚ),
      (column.filterMap id).sum = (column.map fun entry => entry.getD 0).sum := by
    intro column
    induction column with
    | nil => rfl
    | cons entry column ih => cases entry <;> simpa using ih
  rw [Account.recordedPnl, EquityEngine.calculateRealizedPnl, sqlSum, Account.realizedPnl]
  have hsum := hcolumn (account.trades.map Trade.realizedPnl)
  rw [List.map_map] at hsum
  cases hentries : (account.trades.map Trade.realizedPnl).filterMap id with
  | nil =>
    rw [hentries] at hsum
    exact hsum
  | cons entry entries =>
    rw [hentries] at hsum
    exact hsum

/-- What all trades have recorded is recorded on the trades of the symbols. -/
theorem sum_recordedOf (account : Account ℚ) :
    account.recordedPnl =
      ∑ symbol ∈ tradedSymbols account.trades, recordedOf account.trades symbol := by
  -- for every part of the log, with the symbols of the whole log fixed
  have hlog : ∀ trades : List (Trade ℚ), (∀ trade ∈ trades, trade.symbol ∈
        tradedSymbols account.trades) →
      (trades.map fun trade => trade.realizedPnl.getD 0).sum =
        ∑ symbol ∈ tradedSymbols account.trades, recordedOf trades symbol := by
    intro trades htrades
    induction trades using List.reverseRecOn with
    | nil => simp [recordedOf, subHistory]
    | append_singleton trades trade ih =>
      have hmem := htrades trade (by simp)
      rw [Finset.sum_congr rfl fun symbol _ => recordedOf_append symbol, Finset.sum_add_distrib,
        Finset.sum_ite_eq, if_pos hmem, List.map_append, List.sum_append,
        ih fun old hold => htrades old (List.mem_append_left _ hold)]
      simp
  rw [recordedPnl_eq]
  exact hlog account.trades symbol_mem_tradedSymbols

end Columns

/-! ### Runs of orders -/

namespace BookInv

variable {upper : String → String} {account : Account ℚ} {call : TradeCall ℚ}

/-- A freshly opened account. -/
theorem opened (opening : ℚ) : BookInv (Account.opened opening) where
  toRowsValid := Account.RowsValid.of_nil rfl
  covered := CoveredHistory.nil
  held _ := by
    simp [openQuantity, lotsOf, subHistory, Account.opened, Account.quantityOf, Account.position?]
  booked _ := by
    simp [recordedOf, symbolCash, subHistory, lotsOf, Account.opened, Account.position?]

/-- A filled regular order keeps the invariant. -/
theorem record (hinv : BookInv account) (hcall : RegularOrder upper call) {price : ℚ}
    {fill : Fill ℚ} (hfills : Fills upper account call price fill) :
    BookInv (account.record (call.toTrade upper price fill) fill) where
  toRowsValid := hinv.toRowsValid.recordFill hfills hcall.quantity_pos
  covered := by
    obtain ⟨hquote, -⟩ := validPrice?_eq_some_iff.mp hfills.1
    refine hinv.covered.append _ hcall.quantity_pos.le
      ⟨hcall.quantity_onGrid, hcall.price_onGrid price hquote⟩ fun haction => ?_
    -- the executor has checked the row, which holds what is open
    rw [← hinv.held]
    exact hfills.sell_le_quantityOf haction
  held symbol := by
    rw [Account.quantityOf_record hfills.2 rfl hinv.unique, Account.record_trades,
      openQuantity_append hcall.action, hinv.held]
    rfl
  booked symbol := by
    have hconserves := fillOrder_conserves hfills.2
    rw [fillOrder_balance hfills.2] at hconserves
    rw [Account.position?_record hfills.2 rfl hinv.unique, Account.record_trades,
      recordedOf_append, symbolCash_append hcall.action, hinv.booked]
    simp only [TradeCall.toTrade, Fill.toTrade, Trade.cashFlow]
    by_cases hsymbol : upper call.request.symbol = symbol
    · subst hsymbol
      simp only [↓reduceIte]
      linarith
    · simp only [hsymbol, ↓reduceIte, add_zero]

/-- The invariant holds after every run of regular orders. -/
theorem of_run (opening : ℚ) {calls : List (TradeCall ℚ)}
    (hcalls : ∀ call ∈ calls, RegularOrder upper call) :
    BookInv (calls.foldl (orderStep upper) (Account.opened opening)) := by
  refine Runs.foldl_invariant (A := RegularOrder upper) (J := BookInv) ?_ (opened opening) hcalls
  intro account call hcall hinv
  rcases orderStep_cases upper account call with h | ⟨price, fill, hfills, h⟩
  · rwa [h]
  · rw [h]
    exact hinv.record hcall hfills

/-- A symbol without a position row has no open lots that cost anything. -/
theorem totalCost_openLots (hinv : BookInv account) {symbol : String}
    (hflat : account.position? symbol = none) :
    Lot.totalCost ((replayTrades account.trades).openLots symbol) = 0 := by
  have hunits := hinv.covered.totalUnits_openLots symbol
  rw [← hinv.held, Account.quantityOf, hflat, heldQuantity_none] at hunits
  rw [hinv.covered.openLots_eq] at hunits ⊢
  apply Lot.AllNonneg.totalCost_eq_zero _ hunits
  exact (hinv.covered.lotsOf_nonneg "BUY" symbol).dropUnits _

/-- On a symbol that is not held both engines have realized the same. -/
theorem pnl_eq_recordedOf (hinv : BookInv account) {symbol : String}
    (hflat : account.position? symbol = none) :
    (replayTrades (subHistory account.trades symbol)).pnl =
      recordedOf account.trades symbol := by
  calc
    (replayTrades (subHistory account.trades symbol)).pnl
      = symbolCash account.trades symbol := by
        rw [hinv.covered.pnl_eq_cash, hinv.totalCost_openLots hflat, add_zero]
    _ = recordedOf account.trades symbol := by
        rw [hinv.booked, hflat, heldCost_none, add_zero]

end BookInv

/-- After every run of orders from an empty account, the P&L that lot matching realizes on a symbol
without a position is the one recorded on its trades, and the two engines report the same total
when nothing is held. -/
theorem realizedPnl_agrees_of_flat (upper : String → String) (opening : ℚ)
    (calls : List (TradeCall ℚ)) (hcalls : ∀ call ∈ calls, RegularOrder upper call)
    (account : Account ℚ)
    (hrun : account = calls.foldl (orderStep upper) (Account.opened opening)) :
    (∀ symbol, account.position? symbol = none →
        (replayTrades (subHistory account.trades symbol)).pnl =
          recordedOf account.trades symbol) ∧
      (account.positions = [] → calculateRealizedPnl account = account.recordedPnl) := by
  have hinv : BookInv account := hrun ▸ BookInv.of_run opening hcalls
  refine ⟨fun symbol hflat => hinv.pnl_eq_recordedOf hflat, fun hempty => ?_⟩
  have hflat : ∀ symbol, account.position? symbol = none := by
    intro symbol
    rw [Account.position?, hempty, KeyedRows.lookup_nil]
  rw [calculateRealizedPnl, calculateRealizedPnl_eq_sum _ symbol_mem_tradedSymbols, sum_recordedOf]
  exact Finset.sum_congr rfl fun symbol _ => hinv.pnl_eq_recordedOf (hflat symbol)

/-- `partialSale`, and the other share sold at 120. -/
def soldOut : List (TradeCall ℚ) := partialSale ++ [oneShare 4 "SELL" 120]

/-- The account that `soldOut` leaves. -/
def soldOutAccount : Account ℚ :=
  ⟨100020, [], partialSaleAccount.trades ++ [⟨4, "AAPL", "SELL", 1, 120, some (-30), 0⟩], []⟩

/-- The literal account is what the orders leave. -/
theorem soldOut_run :
    soldOutAccount = soldOut.foldl (orderStep String.toUpper) (Account.opened 100000) := by
  -- one order at a time, each from the literal state before it
  have hfirst : orderStep String.toUpper (Account.opened 100000) (oneShare 1 "BUY" 100) =
      onePurchaseAccount := by decide +kernel
  have hsecond : orderStep String.toUpper onePurchaseAccount (oneShare 2 "BUY" 200) =
      ⟨99700, [⟨"AAPL", 2, 150⟩], partialSaleAccount.trades.take 2, []⟩ := by decide +kernel
  have hthird : orderStep String.toUpper
      ⟨99700, [⟨"AAPL", 2, 150⟩], partialSaleAccount.trades.take 2, []⟩
      (oneShare 3 "SELL" 200) = partialSaleAccount := by decide +kernel
  have hfourth : orderStep String.toUpper partialSaleAccount (oneShare 4 "SELL" 120) =
      soldOutAccount := by decide +kernel
  simp only [soldOut, partialSale, List.cons_append, List.nil_append, List.foldl_cons,
    List.foldl_nil, hfirst, hsecond, hthird, hfourth]

/-- Two purchases, sold one by one. -/
theorem realizedPnl_agrees_of_flat_soldOut :
    calculateRealizedPnl soldOutAccount = soldOutAccount.recordedPnl := by
  have horders : ∀ order ∈ soldOut, RegularOrder String.toUpper order := by
    simp only [soldOut, partialSale, List.cons_append, List.nil_append, List.forall_mem_cons]
    exact ⟨oneShare_regular 1 (Or.inl (by decide +kernel)) (onGrid_natCast 100),
      oneShare_regular 2 (Or.inl (by decide +kernel)) (onGrid_natCast 200),
      oneShare_regular 3 (Or.inr (by decide +kernel)) (onGrid_natCast 200),
      oneShare_regular 4 (Or.inr (by decide +kernel)) (onGrid_natCast 120), by simp⟩
  exact (realizedPnl_agrees_of_flat String.toUpper 100000 soldOut horders soldOutAccount
    soldOut_run).2 rfl

end TradingSimulator
