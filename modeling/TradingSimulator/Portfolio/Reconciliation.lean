import Mathlib.Algebra.BigOperators.Group.Finset.Basic
import Mathlib.Algebra.BigOperators.Group.Finset.Piecewise
import TradingSimulator.Api.Routes
import TradingSimulator.Execution.AccountRows
import TradingSimulator.Library.Runs
import TradingSimulator.Portfolio.PnlEngine

/-!
# Does the P&L report reconcile with the equity?

`get_total_pnl` adds an unrealized P&L against the average cost that the engine keeps and a
realized P&L against the cost of the oldest lots. What the engine keeps after a partial sale is the
average over all lots, the ones already sold included, so the two parts need not add up.

`FifoInv` describes the replay of the trade log of a reachable account: the proceeds and payments
of all trades, corrected by what the lots still open have cost, are the realized P&L. It follows
(`totalPnl_eq_iff`) that the report reconciles with the equity exactly when the newest units
bought, as many as are held, have cost what the rows say at average price.
-/

namespace TradingSimulator

/-! ### Columns of the trade log -/

/-- The cash a trade brings in. -/
def Trade.cashFlow (trade : Trade ℚ) : ℚ :=
  -(trade.price * signedQuantity trade.action trade.quantity)

/-- The lot a purchase opens. -/
def Trade.lot (trade : Trade ℚ) : Lot ℚ := { units := trade.quantity, unitCost := trade.price }

namespace Account

/-- The cash all trades have brought in. -/
def cashFlow (account : Account ℚ) : ℚ := (account.trades.map Trade.cashFlow).sum

/-- The purchases of `symbol`, newest first. -/
def bought (account : Account ℚ) (symbol : String) : List (Lot ℚ) :=
  (account.trades.reverse.filter fun trade =>
    trade.symbol = symbol ∧ trade.action = "BUY").map Trade.lot

/-- What the newest `units` units bought of `symbol` have cost. -/
def newestCost (account : Account ℚ) (symbol : String) (units : ℚ) : ℚ :=
  Lot.totalCost (Lot.takeUnits units (account.bought symbol))

/-- The newest units bought, as many as are held of each symbol, have cost what the rows say at
average price. -/
def CostsAgree (account : Account ℚ) : Prop :=
  (account.positions.map fun position =>
    account.newestCost position.symbol position.quantity).sum = account.cost

end Account

/-! ### Runs of filled orders -/

/-- The account after an order that `execute_trade` fills; any other order blocks the run. -/
def fillStep (upper : String → String) (account : Account ℚ) (call : TradeCall ℚ) :
    Option (Account ℚ) :=
  match executeTrade upper call.market (some account) call.request call.stamp with
  | (.ok (.success _ _ _), user) => user
  | _ => none

/-- A `BUY` or a `SELL` of a positive quantity; quantity and price are multiples of 0.0001. -/
structure RegularOrder (upper : String → String) (call : TradeCall ℚ) : Prop where
  action : upper call.request.action = "BUY" ∨ upper call.request.action = "SELL"
  quantity_pos : 0 < call.request.quantity
  quantity_onGrid : OnGrid call.request.quantity
  price_onGrid : ∀ price, call.market.getPrice (upper call.request.symbol) = some price →
    OnGrid price

/-- A filled order has been recorded. -/
theorem fillStep_eq_some {upper : String → String} {account account' : Account ℚ}
    {call : TradeCall ℚ} (h : fillStep upper account call = some account') :
    ∃ price fill, Fills upper account call price fill ∧
      account' = account.record (call.toTrade upper price fill) fill := by
  obtain ⟨response, hresult, hresponse⟩ | ⟨price, fill, trade, hprice, hfill, rfl, hresult⟩ :=
    executeTrade_cases upper call.market account call.request call.stamp
  · -- a call that records nothing blocks the run
    rw [fillStep, hresult] at h
    match response, hresponse with
    | .error _, _ => cases h
    | .ok (.failure _), _ => cases h
    | .ok (.success trade status balance), hno => exact absurd rfl (hno trade status balance)
  · rw [fillStep, hresult] at h
    exact ⟨price, fill, ⟨hprice, hfill⟩, (Option.some.inj h).symm⟩

/-! ### The replayed log of a reachable account -/

/-- The open lots of the replay of an account. -/
def Account.openLots (account : Account ℚ) (symbol : String) : List (Lot ℚ) :=
  (replayTrades account.trades).openLots symbol

/-- What holds of every account reached by filled orders from the opening balance. -/
structure FifoInv (opening : ℚ) (account : Account ℚ) : Prop extends account.RowsValid where
  cash : account.balance = opening + account.cashFlow
  held_onGrid : ∀ symbol, OnGrid (account.quantityOf symbol)
  lots_positive : ∀ symbol, Lot.AllPositive (account.openLots symbol)
  lots_units : ∀ symbol, Lot.totalUnits (account.openLots symbol) = account.quantityOf symbol
  /-- The open lots are the newest purchases. -/
  lots_newest : ∀ symbol, (account.openLots symbol).reverse =
    Lot.takeUnits (account.quantityOf symbol) (account.bought symbol)
  /-- What was paid and is not in the open lots any more has been matched. -/
  realized : ∀ symbols : Finset String, (∀ trade ∈ account.trades, trade.symbol ∈ symbols) →
    calculateRealizedPnl account =
      account.cashFlow + ∑ symbol ∈ symbols, Lot.totalCost (account.openLots symbol)

/-- A freshly opened account. -/
theorem FifoInv.opened (opening : ℚ) : FifoInv opening (Account.opened opening) where
  toRowsValid := Account.RowsValid.of_nil rfl
  cash := by simp [Account.opened, Account.cashFlow]
  held_onGrid _ := OnGrid.zero
  lots_positive _ := by simp [Lot.AllPositive, Account.openLots, Account.opened, replayTrades]
  lots_units _ := rfl
  lots_newest _ := rfl
  realized symbols _ := by
    simp [calculateRealizedPnl, replayTrades, Account.opened, Account.cashFlow, Account.openLots]

/-! ### One more trade in the log -/

section Replay

variable {opening : ℚ} {account : Account ℚ} {trade : Trade ℚ} {fill : Fill ℚ}

/-- A purchase joins the purchases of its symbol as the newest one. -/
theorem bought_record (symbol : String) :
    (account.record trade fill).bought symbol =
      if trade.symbol = symbol ∧ trade.action = "BUY" then trade.lot :: account.bought symbol
      else account.bought symbol := by
  simp only [Account.bought, Account.record_trades, List.reverse_append, List.reverse_singleton,
    List.singleton_append, List.filter_cons, decide_eq_true_eq]
  split_ifs <;> rfl

/-- A recorded trade adds its cash flow. -/
theorem cashFlow_record :
    (account.record trade fill).cashFlow = account.cashFlow + trade.cashFlow := by
  simp [Account.cashFlow]

/-- What replaying `trade` after the log of `account` does: `lots` take the place of the open lots
of its symbol and `gain` is added to the P&L. -/
structure Replays (account : Account ℚ) (trade : Trade ℚ) (lots : List (Lot ℚ)) (gain : ℚ) :
    Prop where
  state : replayTrade (replayTrades account.trades) trade =
    { pnl := calculateRealizedPnl account + gain
      openLots := Function.update (replayTrades account.trades).openLots trade.symbol lots }
  positive : Lot.AllPositive lots
  units : Lot.totalUnits lots =
    account.quantityOf trade.symbol + signedQuantity trade.action trade.quantity
  newest : lots.reverse =
    Lot.takeUnits (account.quantityOf trade.symbol + signedQuantity trade.action trade.quantity)
      (if trade.action = "BUY" then trade.lot :: account.bought trade.symbol
        else account.bought trade.symbol)
  gain : gain = trade.cashFlow + Lot.totalCost lots -
    Lot.totalCost (account.openLots trade.symbol)

/-- Replaying a purchase opens a lot. -/
theorem Replays.buy (hinv : FifoInv opening account) (haction : trade.action = "BUY")
    (hquantity : 0 < trade.quantity) (hgrid : OnGrid trade.quantity ∧ OnGrid trade.price) :
    Replays account trade (account.openLots trade.symbol ++ [trade.lot]) 0 where
  state := by
    simp [replayTrade, safeDecimal_of_onGrid hgrid.1, safeDecimal_of_onGrid hgrid.2, haction,
      Account.openLots, Trade.lot, calculateRealizedPnl]
  positive := by
    intro lot hlot
    rcases List.mem_append.mp hlot with hold | hnew
    · exact hinv.lots_positive trade.symbol lot hold
    · rw [List.mem_singleton.mp hnew]
      exact hquantity
  units := by
    simp [signedQuantity, haction, hinv.lots_units, Trade.lot]
  newest := by
    have hheld : 0 ≤ account.quantityOf trade.symbol := by
      rw [← hinv.lots_units]
      exact (hinv.lots_positive trade.symbol).totalUnits_nonneg
    rw [List.reverse_append, hinv.lots_newest, signedQuantity, if_pos haction, if_pos haction,
      List.reverse_singleton, List.singleton_append, Lot.takeUnits]
    -- the new lot is taken whole, and the units behind it are those held before
    have hsome : ¬ account.quantityOf trade.symbol + trade.quantity ≤ 0 := by linarith
    have hwhole : trade.lot.units ≤ account.quantityOf trade.symbol + trade.quantity := by
      simpa [Trade.lot] using hheld
    rw [if_neg hsome, if_pos hwhole, Trade.lot, add_sub_cancel_right]
  gain := by
    simp [Trade.cashFlow, signedQuantity, haction, Trade.lot, mul_comm]

/-- Replaying a sale that the holding covers closes the oldest lots. -/
theorem Replays.sell (hinv : FifoInv opening account) (haction : trade.action = "SELL")
    (hquantity : 0 < trade.quantity) (hgrid : OnGrid trade.quantity ∧ OnGrid trade.price)
    (hheld : trade.quantity ≤ account.quantityOf trade.symbol) :
    Replays account trade (Lot.dropUnits trade.quantity (account.openLots trade.symbol))
      (trade.price * trade.quantity -
        Lot.totalCost (Lot.takeUnits trade.quantity (account.openLots trade.symbol))) := by
  have hlots := hinv.lots_positive trade.symbol
  have hle : trade.quantity ≤ Lot.totalUnits (account.openLots trade.symbol) := by
    rwa [hinv.lots_units]
  have hsigned : signedQuantity trade.action trade.quantity = -trade.quantity := by
    simp [signedQuantity, haction]
  have hsale := sellLots_eq trade.price hquantity.le hle
  constructor
  · rw [Account.openLots] at hsale
    simp [replayTrade, safeDecimal_of_onGrid hgrid.1, safeDecimal_of_onGrid hgrid.2, haction,
      hsale, Account.openLots, calculateRealizedPnl]
  · exact hlots.dropUnits trade.quantity
  · rw [Lot.totalUnits_dropUnits hquantity.le hle, hinv.lots_units, hsigned, sub_eq_add_neg]
  · -- what is left of the oldest lots are the newest units
    rw [Lot.reverse_dropUnits hlots hquantity.le hle, hinv.lots_units, hinv.lots_newest, hsigned,
      ← sub_eq_add_neg, Lot.takeUnits_takeUnits (by linarith), if_neg (by simp [haction])]
  · -- the cost of the units sold and that of the units left make up the cost before
    have hsplit := Lot.cost_takeUnits_add_cost_dropUnits trade.quantity
      (account.openLots trade.symbol)
    rw [Trade.cashFlow, hsigned]
    linarith

section Record

variable {lots : List (Lot ℚ)} {gain : ℚ}

/-- The loop over the trades runs once more, for the trade that is recorded. -/
theorem Replays.replayTrades_record (hreplays : Replays account trade lots gain) :
    replayTrades (account.record trade fill).trades =
      { pnl := calculateRealizedPnl account + gain
        openLots := Function.update (replayTrades account.trades).openLots trade.symbol lots } := by
  rw [Account.record_trades, replayTrades, List.foldl_append]
  exact hreplays.state

/-- A trade only changes the lots of its symbol. -/
theorem Replays.openLots_record (hreplays : Replays account trade lots gain) :
    (account.record trade fill).openLots =
      Function.update account.openLots trade.symbol lots := by
  ext symbol : 1
  rw [Account.openLots, hreplays.replayTrades_record]
  rfl

/-- Only the summand of the symbol changes. -/
theorem sum_totalCost_update {symbols : Finset String} {symbol : String} (hmem : symbol ∈ symbols)
    (openLots : String → List (Lot ℚ)) (lots : List (Lot ℚ)) :
    ∑ other ∈ symbols, Lot.totalCost (Function.update openLots symbol lots other) =
      Lot.totalCost lots - Lot.totalCost (openLots symbol) +
        ∑ other ∈ symbols, Lot.totalCost (openLots other) := by
  have hrest : ∀ other ∈ symbols.erase symbol,
      Lot.totalCost (Function.update openLots symbol lots other) =
        Lot.totalCost (openLots other) := by
    intro other hother
    rw [Function.update_of_ne (Finset.ne_of_mem_erase hother)]
  rw [← Finset.add_sum_erase symbols _ hmem, ← Finset.add_sum_erase symbols _ hmem,
    Function.update_self, Finset.sum_congr rfl hrest]
  ring

/-- Recording a filled order keeps the invariant, whatever its replay does to the lots. -/
theorem FifoInv.record (hinv : FifoInv opening account)
    (h : fillOrder trade.action trade.symbol trade.quantity trade.price account.balance
      (account.position? trade.symbol) = .ok fill)
    (hprice : 0 < trade.price) (hquantity : 0 < trade.quantity) (hgrid : OnGrid trade.quantity)
    (hreplays : Replays account trade lots gain) :
    FifoInv opening (account.record trade fill) := by
  have hquantityOf := Account.quantityOf_record h rfl hinv.unique
  refine ⟨hinv.toRowsValid.record h rfl hprice hquantity, ?_, ?_, ?_, ?_, ?_, ?_⟩
  · rw [Account.record_balance, fillOrder_balance h, hinv.cash, cashFlow_record, Trade.cashFlow]
    ring
  · intro symbol
    rw [hquantityOf, signedQuantity]
    refine (hinv.held_onGrid symbol).add ?_
    split_ifs
    · exact hgrid
    · exact hgrid.neg
    · exact OnGrid.zero
  -- the lots of the traded symbol are those of its replay, all others are as they were
  · intro symbol
    rw [hreplays.openLots_record]
    by_cases hsame : trade.symbol = symbol
    · subst hsame
      rw [Function.update_self]
      exact hreplays.positive
    · rw [Function.update_of_ne (Ne.symm hsame)]
      exact hinv.lots_positive symbol
  · intro symbol
    rw [hreplays.openLots_record, hquantityOf]
    by_cases hsame : trade.symbol = symbol
    · subst hsame
      rw [Function.update_self, if_pos rfl, hreplays.units]
    · rw [Function.update_of_ne (Ne.symm hsame), if_neg hsame, add_zero, hinv.lots_units]
  · intro symbol
    rw [hreplays.openLots_record, hquantityOf, bought_record]
    by_cases hsame : trade.symbol = symbol
    · subst hsame
      simp only [Function.update_self, true_and, ↓reduceIte]
      exact hreplays.newest
    · rw [Function.update_of_ne (Ne.symm hsame), if_neg hsame, add_zero,
        if_neg (fun h => hsame h.1), hinv.lots_newest]
  · intro symbols hsymbols
    rw [Account.record_trades] at hsymbols
    have hmem : trade.symbol ∈ symbols := hsymbols trade (by simp)
    have hold := hinv.realized symbols fun old hmem => hsymbols old (List.mem_append_left _ hmem)
    rw [calculateRealizedPnl, hreplays.replayTrades_record, cashFlow_record,
      hreplays.openLots_record, sum_totalCost_update hmem, hold, hreplays.gain]
    ring

end Record

end Replay

/-! ### Whole runs -/

/-- Every filled regular order keeps the invariant. -/
theorem fillStep_inv (upper : String → String) {opening : ℚ} (account : Account ℚ)
    (call : TradeCall ℚ) (account' : Account ℚ) (hcall : RegularOrder upper call)
    (hinv : FifoInv opening account) (h : fillStep upper account call = some account') :
    FifoInv opening account' := by
  obtain ⟨price, fill, hfills, rfl⟩ := fillStep_eq_some h
  obtain ⟨hquote, hprice⟩ := validPrice?_eq_some_iff.mp hfills.1
  have hgrid : OnGrid (call.toTrade upper price fill).quantity ∧
      OnGrid (call.toTrade upper price fill).price :=
    ⟨hcall.quantity_onGrid, hcall.price_onGrid price hquote⟩
  rcases hcall.action with haction | haction
  · exact hinv.record hfills.2 hprice hcall.quantity_pos hgrid.1
      (Replays.buy hinv haction hcall.quantity_pos hgrid)
  · -- the engine has sold no more than is held, so the open lots cover the sale
    have hheld : call.request.quantity ≤ account.quantityOf (upper call.request.symbol) := by
      have hfill := hfills.2
      rw [fillOrder, haction, if_neg (by decide)] at hfill
      obtain ⟨old, hold, hshares, -⟩ := sellFill_ok hfill
      rwa [Account.quantityOf, hold, heldQuantity_some]
    exact hinv.record hfills.2 hprice hcall.quantity_pos hgrid.1
      (Replays.sell hinv haction hcall.quantity_pos hgrid hheld)

section Report

variable {opening : ℚ} {account : Account ℚ}

/-- A row holds the quantity held of its symbol. -/
theorem Account.RowsValid.quantityOf_eq (hrows : account.RowsValid) {position : Position ℚ}
    (hmem : position ∈ account.positions) :
    account.quantityOf position.symbol = position.quantity := by
  rw [Account.quantityOf, Account.position?, KeyedRows.lookup_of_mem hrows.unique hmem,
    heldQuantity_some]

/-- The realized P&L is the cash brought in plus the cost of the newest units bought, as many as
are held. -/
theorem FifoInv.realizedPnl_eq (hinv : FifoInv opening account) :
    calculateRealizedPnl account = account.cashFlow +
      (account.positions.map fun position =>
        account.newestCost position.symbol position.quantity).sum := by
  -- the sum over the traded symbols is a sum over the rows
  let held := (account.positions.map Position.symbol).toFinset
  let symbols := held ∪ (account.trades.map Trade.symbol).toFinset
  have htraded : ∀ trade ∈ account.trades, trade.symbol ∈ symbols := by
    intro trade htrade
    exact Finset.mem_union_right _ (List.mem_toFinset.mpr (List.mem_map_of_mem htrade))
  -- a symbol that is not held has no open lots
  have hclosed : ∀ symbol ∈ symbols, symbol ∉ held →
      Lot.totalCost (account.openLots symbol) = 0 := by
    intro symbol _ hnot
    have hnone : account.position? symbol = none := by
      rw [Account.position?, KeyedRows.lookup_eq_none_iff]
      rintro row hrow rfl
      exact hnot (List.mem_toFinset.mpr (List.mem_map_of_mem hrow))
    have hunits : Lot.totalUnits (account.openLots symbol) = 0 := by
      rw [hinv.lots_units, Account.quantityOf, hnone, heldQuantity_none]
    rw [(hinv.lots_positive symbol).eq_nil hunits, Lot.totalCost_nil]
  -- the open lots of a row are the newest units bought of its symbol
  have hheld : ∀ position ∈ account.positions,
      Lot.totalCost (account.openLots position.symbol) =
        account.newestCost position.symbol position.quantity := by
    intro position hposition
    rw [← Lot.totalCost_reverse, hinv.lots_newest, hinv.quantityOf_eq hposition]
    rfl
  rw [hinv.realized symbols htraded, ← Finset.sum_subset Finset.subset_union_left hclosed,
    List.sum_toFinset _ hinv.unique, List.map_map]
  congr 2
  exact List.map_congr_left hheld

/-- The unrealized P&L is the market value less the book cost. -/
theorem sum_unrealizedPnl (current : String → ℚ) (positions : List (Position ℚ)) :
    (positions.map fun position =>
        (current position.symbol - position.avgPrice) * position.quantity).sum =
      (positions.map fun position => position.quantity * current position.symbol).sum -
        (positions.map Position.cost).sum := by
  induction positions with
  | nil => simp
  | cons position positions ih =>
    simp only [List.map_cons, List.sum_cons, ih, Position.cost]
    ring

/-- After every run of filled regular orders from the opening balance, the report of an account
whose symbols are quoted reconciles with its equity exactly when the newest units bought, as many
as are held, have cost what the rows say at average price. -/
theorem totalPnl_eq_iff (upper : String → String) (opening : ℚ) (orders : List (TradeCall ℚ))
    (horders : ∀ order ∈ orders, RegularOrder upper order) (account : Account ℚ)
    (hrun : Runs.exec (fillStep upper) (Account.opened opening) orders = some account)
    (market : MarketState ℚ) (lastClose : String → Option ℚ) (getSignal : String → String)
    (havg : ∀ position ∈ account.positions, OnGrid position.avgPrice)
    (hpriced : ∀ position ∈ account.positions,
      ∃ price, market.getPrice position.symbol = some price ∧ OnGrid price) :
    (getTotalPnl market lastClose getSignal account).totalPnl =
        (getTotalPnl market lastClose getSignal account).totalEquity - opening ↔
      account.CostsAgree := by
  have hinv : FifoInv opening account :=
    Runs.exec_invariant (fillStep_inv upper) (FifoInv.opened opening) horders hrun
  -- the quotes and the rows are on the grid, so the report rounds nothing
  let current : String → ℚ := fun symbol => (market.getPrice symbol).getD 0
  have hcurrent : ∀ position ∈ account.positions,
      market.getPrice position.symbol = some (current position.symbol) ∧
        OnGrid (current position.symbol) := by
    intro position hposition
    obtain ⟨price, hprice, hgrid⟩ := hpriced position hposition
    have hvalue : current position.symbol = price := by simp [current, hprice]
    rw [hvalue]
    exact ⟨hprice, hgrid⟩
  have hrows : ∀ position ∈ account.positions,
      OnGrid position.quantity ∧ OnGrid position.avgPrice := by
    intro position hposition
    have hheld := hinv.held_onGrid position.symbol
    rw [hinv.quantityOf_eq hposition] at hheld
    exact ⟨hheld, havg position hposition⟩
  -- both sides are the market value and the cash flow, up to the two notions of cost
  have hreport := calculateUnrealizedPnl_eq lastClose getSignal current hcurrent hrows
  have hunrealized := sum_unrealizedPnl current account.positions
  have hrealized := hinv.realizedPnl_eq
  have hcash := hinv.cash
  simp only [getTotalPnl, hreport, List.map_map, Function.comp_def, Account.CostsAgree,
    Account.cost]
  rw [hunrealized, hrealized, hcash]
  constructor <;>
    · intro h
      linarith

end Report

/-! ### Two purchases and a partial sale -/

/-- An order for one share quoted at `price`. -/
def oneShare (id : ℕ) (action : String) (price : ℚ) : TradeCall ℚ where
  market := .ofQuotes [("AAPL", price)]
  now := 0
  request := { symbol := "AAPL", action, quantity := 1 }
  stamp := ⟨id, 0⟩

/-- Buy at 100, buy at 200, sell the older share at 200. -/
def partialSale : List (TradeCall ℚ) :=
  [oneShare 1 "BUY" 100, oneShare 2 "BUY" 200, oneShare 3 "SELL" 200]

/-- The report while the share is quoted at `price`. -/
def oneShareReport (price : ℚ) (account : Account ℚ) : TotalPnl :=
  getTotalPnl (.ofQuotes [("AAPL", price)]) (fun _ => none) (fun _ => "HOLD") account

/-- An order for one share at a price that is a multiple of 0.0001 is regular. -/
theorem oneShare_regular (id : ℕ) {action : String} {price : ℚ}
    (haction : action.toUpper = "BUY" ∨ action.toUpper = "SELL") (hprice : OnGrid price) :
    RegularOrder String.toUpper (oneShare id action price) where
  action := haction
  quantity_pos := one_pos
  quantity_onGrid := ⟨10000, by norm_num [quantum, oneShare]⟩
  price_onGrid := by
    intro quote hquote
    have hsymbol : "AAPL".toUpper = "AAPL" := by decide +kernel
    have hsame : price = quote := by
      simpa [oneShare, hsymbol, MarketState.getPrice, MarketState.ofQuotes] using hquote
    exact hsame ▸ hprice

/-- The account after one purchase. -/
def onePurchaseAccount : Account ℚ :=
  ⟨99900, [⟨"AAPL", 1, 100⟩], [⟨1, "AAPL", "BUY", 1, 100, none, 0⟩], []⟩

/-- Two purchases at one price, and the sale of a share. -/
def evenSale : List (TradeCall ℚ) :=
  [oneShare 1 "BUY" 100, oneShare 2 "BUY" 100, oneShare 3 "SELL" 200]

/-- The account after them: the share that is left costs its average. -/
def evenSaleAccount : Account ℚ :=
  ⟨100000, [⟨"AAPL", 1, 100⟩],
    [⟨1, "AAPL", "BUY", 1, 100, none, 0⟩, ⟨2, "AAPL", "BUY", 1, 100, none, 0⟩,
      ⟨3, "AAPL", "SELL", 1, 200, some 100, 0⟩], []⟩

/-- The orders are filled one after the other. -/
theorem evenSale_exec :
    Runs.exec (fillStep String.toUpper) (Account.opened 100000) evenSale =
      some evenSaleAccount := by
  have hfirst : fillStep String.toUpper (Account.opened 100000) (oneShare 1 "BUY" 100) =
      some onePurchaseAccount := by decide +kernel
  have hsecond : fillStep String.toUpper onePurchaseAccount (oneShare 2 "BUY" 100) =
      some ⟨99800, [⟨"AAPL", 2, 100⟩], evenSaleAccount.trades.take 2, []⟩ := by decide +kernel
  have hthird : fillStep String.toUpper
      ⟨99800, [⟨"AAPL", 2, 100⟩], evenSaleAccount.trades.take 2, []⟩
      (oneShare 3 "SELL" 200) = some evenSaleAccount := by decide +kernel
  simp only [evenSale, Runs.exec, List.foldlM_cons, hfirst, hsecond, hthird, List.foldlM_nil,
    Option.bind_eq_bind, Option.bind_some, Option.pure_def]

/-- The share that was sold gained 100 and the one that is left gains 150. -/
theorem totalPnl_eq_iff_evenSale :
    (oneShareReport 250 evenSaleAccount).totalPnl =
      (oneShareReport 250 evenSaleAccount).totalEquity - 100000 := by
  have horders : ∀ order ∈ evenSale, RegularOrder String.toUpper order := by
    simp only [evenSale, List.forall_mem_cons]
    exact ⟨oneShare_regular 1 (Or.inl (by decide +kernel)) (onGrid_natCast 100),
      oneShare_regular 2 (Or.inl (by decide +kernel)) (onGrid_natCast 100),
      oneShare_regular 3 (Or.inr (by decide +kernel)) (onGrid_natCast 200), by simp⟩
  refine (totalPnl_eq_iff String.toUpper 100000 evenSale horders evenSaleAccount evenSale_exec
    _ _ _ ?_ ?_).mpr (by rw [Account.CostsAgree]; decide +kernel)
  · simpa [evenSaleAccount] using onGrid_natCast 100
  · simpa [evenSaleAccount, MarketState.getPrice, MarketState.ofQuotes] using onGrid_natCast 250

/-- The account after two purchases and the sale of the older share. -/
def partialSaleAccount : Account ℚ :=
  ⟨99900, [⟨"AAPL", 1, 150⟩],
    [⟨1, "AAPL", "BUY", 1, 100, none, 0⟩, ⟨2, "AAPL", "BUY", 1, 200, none, 0⟩,
      ⟨3, "AAPL", "SELL", 1, 200, some 50, 0⟩], []⟩

/-- The orders are filled one after the other. -/
theorem partialSale_exec :
    Runs.exec (fillStep String.toUpper) (Account.opened 100000) partialSale =
      some partialSaleAccount := by
  -- one order at a time, each from the literal state before it
  have hfirst : fillStep String.toUpper (Account.opened 100000) (oneShare 1 "BUY" 100) =
      some onePurchaseAccount := by decide +kernel
  have hsecond : fillStep String.toUpper onePurchaseAccount (oneShare 2 "BUY" 200) =
      some ⟨99700, [⟨"AAPL", 2, 150⟩], partialSaleAccount.trades.take 2, []⟩ := by decide +kernel
  have hthird : fillStep String.toUpper
      ⟨99700, [⟨"AAPL", 2, 150⟩], partialSaleAccount.trades.take 2, []⟩
      (oneShare 3 "SELL" 200) = some partialSaleAccount := by decide +kernel
  simp only [partialSale, Runs.exec, List.foldlM_cons, hfirst, hsecond, hthird, List.foldlM_nil,
    Option.bind_eq_bind, Option.bind_some, Option.pure_def]

/-- The share sold gains 100 over its own price and the share that is left gains 50 over the
average of both, but the account is worth only 100 more than at its opening. -/
theorem partialSale_not_reconciled :
    (∀ order ∈ partialSale, RegularOrder String.toUpper order) ∧
      Runs.exec (fillStep String.toUpper) (Account.opened 100000) partialSale =
        some partialSaleAccount ∧
      (∀ position ∈ partialSaleAccount.positions, OnGrid position.avgPrice) ∧
      (oneShareReport 200 partialSaleAccount).totalPnl ≠
        (oneShareReport 200 partialSaleAccount).totalEquity - 100000 := by
  refine ⟨?_, partialSale_exec, ?_, by decide +kernel⟩
  · simp only [partialSale, List.forall_mem_cons]
    exact ⟨oneShare_regular 1 (Or.inl (by decide +kernel)) (onGrid_natCast 100),
      oneShare_regular 2 (Or.inl (by decide +kernel)) (onGrid_natCast 200),
      oneShare_regular 3 (Or.inr (by decide +kernel)) (onGrid_natCast 200), by simp⟩
  · simpa [partialSaleAccount] using onGrid_natCast 150

end TradingSimulator
