import TradingSimulator.Execution.OrderRuns
import TradingSimulator.Portfolio.EquityEngine
import TradingSimulator.Portfolio.FlatAccounts
import TradingSimulator.Portfolio.PerformanceEngine

/-!
# The performance replay follows the executor

The executor deletes a position that is sold out, the replay keeps its entry with a stale average
price; the executor refuses to sell more than is held, the replay caps the sale. `Follows` is the
relation between the replay of the log and the rows of the account: the same quantity of every
symbol, and the same average price of every symbol that is held. Every order keeps it
(`Follows.record`), so the replay computes for every sale what the executor has recorded on it.
-/

namespace TradingSimulator

open PerformanceEngine

/-- The state of the replay after the trades, in the order of the log. -/
def replayLog (trades : List (Trade ℚ)) : PerformanceState :=
  trades.foldl PerformanceEngine.replayTrade start

/-- The replay counts a sale and finds the P&L that is recorded on it. -/
def SaleReplayed (state : PerformanceState) (trade : Trade ℚ) : Prop :=
  0 < (positionOf state trade.symbol).quantity ∧
    trade.realizedPnl = some (salePnl (positionOf state trade.symbol) trade)

/-- The sales of a log. -/
def salesOf (trades : List (Trade ℚ)) : List (Trade ℚ) :=
  trades.filter fun trade => trade.action = "SELL"

/-- The entries of the replay are the rows of the account. -/
structure PositionsAgree (state : PerformanceState) (account : Account ℚ) : Prop where
  quantity : ∀ symbol, (positionOf state symbol).quantity = account.quantityOf symbol
  avgPrice : ∀ symbol, ∀ position ∈ account.position? symbol,
    (positionOf state symbol).avgPrice = position.avgPrice

/-- The replay of the log follows the account. -/
structure Follows (account : Account ℚ) : Prop extends account.RowsValid where
  positions : PositionsAgree (replayLog account.trades) account
  counted : (replayLog account.trades).wins + (replayLog account.trades).losses =
    (salesOf account.trades).length
  totalled : (replayLog account.trades).profit - (replayLog account.trades).loss =
    account.realizedPnl
  replayed : ∀ done trade, done ++ [trade] <+: account.trades → trade.action = "SELL" →
    SaleReplayed (replayLog done) trade

/-! ### One more trade in the replay -/

section Replay

variable {state : PerformanceState} {trade : Trade ℚ}

/-- One entry is written, that of the traded symbol. -/
theorem replayTrade_positions (state : PerformanceState) (trade : Trade ℚ) :
    ∃ pos, (PerformanceEngine.replayTrade state trade).positions =
      Function.update state.positions trade.symbol (some pos) := by
  unfold PerformanceEngine.replayTrade
  simp only
  split
  · exact ⟨_, rfl⟩
  split
  · split
    · exact ⟨_, rfl⟩
    · split <;> exact ⟨_, rfl⟩
  · exact ⟨_, rfl⟩

/-- A trade leaves the other symbols as they are. -/
theorem positionOf_replayTrade_of_ne {symbol : String} (hne : trade.symbol ≠ symbol) :
    positionOf (PerformanceEngine.replayTrade state trade) symbol = positionOf state symbol := by
  obtain ⟨pos, hpositions⟩ := replayTrade_positions state trade
  rw [positionOf, hpositions, Function.update_of_ne (Ne.symm hne)]
  rfl

/-- A buy enlarges the entry and counts for nothing. -/
theorem replayTrade_buy (state : PerformanceState) (haction : trade.action = "BUY") :
    let next := PerformanceEngine.replayTrade state trade
    positionOf next trade.symbol = buyPosition (positionOf state trade.symbol) trade ∧
      next.wins + next.losses = state.wins + state.losses ∧
      next.profit - next.loss = state.profit - state.loss := by
  simp only [PerformanceEngine.replayTrade, haction, ↓reduceIte, and_self, and_true]
  simp [positionOf]

/-- A sale of no more than is held closes its whole quantity, and is either won or lost. -/
theorem replayTrade_sell (state : PerformanceState) (haction : trade.action = "SELL")
    (hheld : 0 < (positionOf state trade.symbol).quantity)
    (hle : trade.quantity ≤ (positionOf state trade.symbol).quantity) :
    let next := PerformanceEngine.replayTrade state trade
    positionOf next trade.symbol =
        { positionOf state trade.symbol with
          quantity := (positionOf state trade.symbol).quantity - trade.quantity } ∧
      next.wins + next.losses = state.wins + state.losses + 1 ∧
      next.profit - next.loss =
        state.profit - state.loss + salePnl (positionOf state trade.symbol) trade := by
  have hqty : sellQty (positionOf state trade.symbol) trade = trade.quantity := min_eq_left hle
  have hbuy : trade.action ≠ "BUY" := by simp [haction]
  simp only [PerformanceEngine.replayTrade, if_neg hbuy, if_pos haction, if_neg (not_le.mpr hheld),
    hqty]
  split
  · refine ⟨by simp [positionOf], by simp only; omega, ?_⟩
    simp only
    ring
  · next hpnl =>
    refine ⟨by simp [positionOf], by simp only; omega, ?_⟩
    -- a loss is added by its absolute value
    simp only [abs_of_nonpos (not_lt.mp hpnl)]
    ring

theorem replayLog_append (trades : List (Trade ℚ)) :
    replayLog (trades ++ [trade]) = PerformanceEngine.replayTrade (replayLog trades) trade := by
  rw [replayLog, List.foldl_append]
  rfl

/-- A new sale is the last one. -/
theorem salesOf_append (trades : List (Trade ℚ)) :
    salesOf (trades ++ [trade]) =
      if trade.action = "SELL" then salesOf trades ++ [trade] else salesOf trades := by
  rw [salesOf, List.filter_append]
  split_ifs with h <;> simp [salesOf, h]

/-- Trades whose timestamps increase are replayed in the order of the log. -/
theorem byTimestamp_eq_self {trades : List (Trade ℚ)}
    (h : (trades.map Trade.timestamp).Pairwise (· < ·)) : byTimestamp trades = trades := by
  apply List.mergeSort_of_pairwise
  rw [List.pairwise_map] at h
  exact h.imp fun hlt => by simpa using hlt.le

end Replay

/-! ### Runs of orders -/

namespace Follows

variable {upper : String → String} {account : Account ℚ} {call : TradeCall ℚ} {price : ℚ}
  {fill : Fill ℚ}

/-- A freshly opened account. -/
theorem opened (opening : ℚ) : Follows (Account.opened opening) where
  toRowsValid := Account.RowsValid.of_nil rfl
  positions :=
    { quantity := fun _ => rfl
      avgPrice := by simp [Account.opened, Account.position?] }
  counted := rfl
  totalled := by simp [replayLog, Account.opened, start, Account.realizedPnl]
  replayed := by simp [Account.opened]

/-- The entry of the traded symbol after a buy has the quantity and the average of the new row. -/
theorem buyPosition_eq (hinv : Follows account)
    (hfill : buyFill (upper call.request.symbol) call.request.quantity price account.balance
      (account.position? (upper call.request.symbol)) = .ok fill)
    (hquantity : 0 < call.request.quantity) :
    ∃ row, fill.position = some row ∧
      buyPosition (positionOf (replayLog account.trades) (upper call.request.symbol))
        (call.toTrade upper price fill) = ⟨row.quantity, row.avgPrice⟩ := by
  have hheld := hinv.positions.quantity (upper call.request.symbol)
  rw [Account.quantityOf] at hheld
  obtain ⟨-, -, -, ⟨hnone, hrow⟩ | ⟨old, row, hold, hrow, -, -, hpool⟩⟩ := buyFill_ok hfill
  · -- a symbol that is not held starts afresh, whatever its stale average is
    rw [hnone, heldQuantity_none] at hheld
    refine ⟨_, hrow, ?_⟩
    simp only [buyPosition, hheld, TradeCall.toTrade, Fill.toTrade, mul_zero, zero_add, hquantity,
      ↓reduceIte, mul_div_cancel_right₀ price hquantity.ne']
  · have havg := hinv.positions.avgPrice _ old hold
    rw [hold, heldQuantity_some] at hheld
    have hpos : 0 < old.quantity := (hinv.valid old (Account.mem_of_position? old hold)).1
    obtain ⟨hunits, hcost⟩ := CostPool.mk.inj hpool
    refine ⟨row, hrow, ?_⟩
    simp only [Position.pool] at hunits hcost
    simp only [buyPosition, hheld, havg, TradeCall.toTrade, Fill.toTrade,
      add_pos hpos hquantity, ↓reduceIte, hunits, hcost, mul_comm]

/-- The entry of the traded symbol before a sale, and the row that the sale leaves. -/
theorem sale_eq (hinv : Follows account)
    (hfill : sellFill call.request.quantity price account.balance
      (account.position? (upper call.request.symbol)) = .ok fill) :
    let pos := positionOf (replayLog account.trades) (upper call.request.symbol)
    0 < pos.quantity ∧ call.request.quantity ≤ pos.quantity ∧
      fill.realizedPnl = some (salePnl pos (call.toTrade upper price fill)) ∧
      heldQuantity fill.position = pos.quantity - call.request.quantity ∧
      ∀ row ∈ fill.position, pos.avgPrice = row.avgPrice := by
  obtain ⟨old, hold, hle, -, hpnl, hrow⟩ := sellFill_ok hfill
  have hheld := hinv.positions.quantity (upper call.request.symbol)
  have havg := hinv.positions.avgPrice _ old hold
  have hpos : 0 < old.quantity := (hinv.valid old (Account.mem_of_position? old hold)).1
  rw [Account.quantityOf, hold, heldQuantity_some] at hheld
  simp only [hheld]
  refine ⟨hpos, hle, ?_, ?_, ?_⟩
  · -- the cap of the replay has no effect on a sale that the executor has let pass
    rw [hpnl, salePnl, sellQty, hheld, havg]
    simp only [TradeCall.toTrade, Fill.toTrade, min_eq_left hle, CostPool.gain, Position.pool]
  · rcases hrow with ⟨hall, hnone⟩ | ⟨row, -, hsome, -, hpool⟩
    · rw [hnone, heldQuantity_none, hall, sub_self]
    · rw [hsome, heldQuantity_some]
      exact congrArg CostPool.units hpool
  · rcases hrow with ⟨-, hnone⟩ | ⟨row, -, hsome, -, hpool⟩
    · simp [hnone]
    · -- a partial sale leaves the average price
      rintro row' hrow'
      obtain rfl : row = row' := by simpa [hsome] using hrow'
      rw [havg]
      exact (congrArg CostPool.unitCost hpool).symm

/-- The entries and rows agree after a trade when those of its symbol do. -/
theorem positionsAgree_record (hinv : Follows account)
    (hfills : Fills upper account call price fill)
    (hquantity : (positionOf (PerformanceEngine.replayTrade (replayLog account.trades)
        (call.toTrade upper price fill)) (upper call.request.symbol)).quantity =
      heldQuantity fill.position)
    (havg : ∀ row ∈ fill.position,
      (positionOf (PerformanceEngine.replayTrade (replayLog account.trades)
        (call.toTrade upper price fill)) (upper call.request.symbol)).avgPrice = row.avgPrice) :
    PositionsAgree (PerformanceEngine.replayTrade (replayLog account.trades)
        (call.toTrade upper price fill))
      (account.record (call.toTrade upper price fill) fill) := by
  have hrow (symbol : String) :
      (account.record (call.toTrade upper price fill) fill).position? symbol =
        if upper call.request.symbol = symbol then fill.position else account.position? symbol :=
    Account.position?_record hfills.2 rfl hinv.unique symbol
  -- the other symbols have kept their entries and their rows
  constructor
  · intro symbol
    rw [Account.quantityOf, hrow]
    by_cases hsymbol : upper call.request.symbol = symbol
    · subst hsymbol
      rw [if_pos rfl, hquantity]
    · rw [if_neg hsymbol, positionOf_replayTrade_of_ne hsymbol]
      exact hinv.positions.quantity symbol
  · intro symbol position hposition
    rw [hrow] at hposition
    by_cases hsymbol : upper call.request.symbol = symbol
    · subst hsymbol
      rw [if_pos rfl] at hposition
      exact havg position hposition
    · rw [if_neg hsymbol] at hposition
      rw [positionOf_replayTrade_of_ne hsymbol]
      exact hinv.positions.avgPrice symbol position hposition

/-- A filled order keeps the relation. -/
theorem record (hinv : Follows account) (hcall : TradeOrder upper call)
    (hfills : Fills upper account call price fill) :
    Follows (account.record (call.toTrade upper price fill) fill) := by
  have hrows := hinv.toRowsValid.recordFill hfills hcall.quantity_pos
  have hcounted := hinv.counted
  have htotalled := hinv.totalled
  rcases fillOrder_ok hfills.2 with ⟨hbuy, hfill⟩ | ⟨hnot, hfill⟩
  -- the replay of a buy computes the same quantity and average price as the engine
  · have haction : (call.toTrade upper price fill).action = "BUY" := hbuy
    obtain ⟨row, hrow, hposition⟩ := hinv.buyPosition_eq hfill hcall.quantity_pos
    obtain ⟨hentry, hcount, htotal⟩ :=
      replayTrade_buy (replayLog account.trades) haction
    refine ⟨hrows, ?_, ?_, ?_, ?_⟩
    · rw [Account.record_trades, replayLog_append]
      refine hinv.positionsAgree_record hfills ?_ ?_
      · rw [hrow, heldQuantity_some]
        exact congrArg ReplayPosition.quantity (hentry.trans hposition)
      · rintro row' hrow'
        obtain rfl : row = row' := by simpa [hrow] using hrow'
        exact congrArg ReplayPosition.avgPrice (hentry.trans hposition)
    · rw [Account.record_trades, replayLog_append, salesOf_append, if_neg (by simp [haction]),
        hcount]
      exact hcounted
    · -- a buy realizes nothing
      have hpnl : (call.toTrade upper price fill).realizedPnl = none := (buyFill_ok hfill).2.2.1
      rw [Account.realizedPnl_record, hpnl, Option.getD_none, add_zero, Account.record_trades,
        replayLog_append, htotal]
      exact htotalled
    · rw [Account.record_trades]
      exact Runs.forall_prefix_concat.mpr
        ⟨hinv.replayed, fun hsell => absurd haction (by simp [hsell])⟩
  -- a sale was checked against the row, so the replay holds enough
  · have haction : (call.toTrade upper price fill).action = "SELL" :=
      hcall.action.resolve_left hnot
    obtain ⟨hheld, hle, hpnl, hquantity, havg⟩ := hinv.sale_eq hfill
    obtain ⟨hentry, hcount, htotal⟩ :=
      replayTrade_sell (replayLog account.trades) haction hheld hle
    refine ⟨hrows, ?_, ?_, ?_, ?_⟩
    · rw [Account.record_trades, replayLog_append]
      refine hinv.positionsAgree_record hfills ?_ ?_
      · rw [hquantity]
        exact congrArg ReplayPosition.quantity hentry
      · intro row hrow
        exact (congrArg ReplayPosition.avgPrice hentry).trans (havg row hrow)
    · rw [Account.record_trades, replayLog_append, salesOf_append, if_pos haction, hcount, hcounted,
        List.length_append, List.length_singleton]
    · have hrecorded : (call.toTrade upper price fill).realizedPnl =
          some (salePnl (positionOf (replayLog account.trades) (upper call.request.symbol))
            (call.toTrade upper price fill)) := hpnl
      rw [Account.realizedPnl_record, hrecorded, Option.getD_some, Account.record_trades,
        replayLog_append, htotal, htotalled]
      rfl
    · rw [Account.record_trades]
      exact Runs.forall_prefix_concat.mpr ⟨hinv.replayed, fun _ => ⟨hheld, hpnl⟩⟩

/-- The relation holds after every run of orders. -/
theorem of_run (opening : ℚ) {calls : List (TradeCall ℚ)}
    (hcalls : ∀ call ∈ calls, TradeOrder upper call) :
    Follows (calls.foldl (orderStep upper) (Account.opened opening)) := by
  refine Runs.foldl_invariant (A := TradeOrder upper) (J := Follows) ?_ (opened opening) hcalls
  intro account call hcall hinv
  rcases orderStep_cases upper account call with h | ⟨price, fill, hfills, h⟩
  · rwa [h]
  · rw [h]
    exact hinv.record hcall hfills

end Follows

/-- A run only appends to the log. -/
theorem trades_prefix_of_run (upper : String → String) (account : Account ℚ)
    (calls : List (TradeCall ℚ)) :
    account.trades <+: (calls.foldl (orderStep upper) account).trades := by
  induction calls generalizing account with
  | nil => exact List.prefix_rfl
  | cons call calls ih =>
    refine List.IsPrefix.trans ?_ (ih (orderStep upper account call))
    rcases orderStep_cases upper account call with h | ⟨price, fill, -, h⟩
    · rw [h]
    · rw [h, Account.record_trades]
      exact List.prefix_append _ _

/-- After every run of orders from an empty account with increasing timestamps, the replay computes
for every sale the P&L recorded on it, passes through the positions stored after each order of the
run, counts every sale as won or lost and totals the recorded P&L. -/
theorem performance_follows (upper : String → String) (opening : ℚ) (calls : List (TradeCall ℚ))
    (hcalls : ∀ call ∈ calls, TradeOrder upper call) (account : Account ℚ)
    (hrun : account = calls.foldl (orderStep upper) (Account.opened opening))
    (hclock : (account.trades.map Trade.timestamp).Pairwise (· < ·)) :
    (∀ done trade, done ++ [trade] <+: account.trades → trade.action = "SELL" →
        SaleReplayed (replay done) trade) ∧
      (∀ before after, before ++ after = calls →
        let past := before.foldl (orderStep upper) (Account.opened opening)
        PositionsAgree (replay past.trades) past ∧
          ∃ rest, account.trades = past.trades ++ rest ∧
            replay account.trades =
              rest.foldl PerformanceEngine.replayTrade (replay past.trades)) ∧
      (replay account.trades).wins + (replay account.trades).losses =
        (salesOf account.trades).length ∧
      (replay account.trades).profit - (replay account.trades).loss = account.recordedPnl := by
  have hinv : Follows account := hrun ▸ Follows.of_run opening hcalls
  -- every part of the log is replayed in its own order
  have hreplay : ∀ trades, trades <+: account.trades → replay trades = replayLog trades := by
    intro trades htrades
    have hsorted := hclock.sublist (htrades.sublist.map Trade.timestamp)
    rw [replay, byTimestamp_eq_self hsorted, replayLog]
  have hall := hreplay account.trades List.prefix_rfl
  refine ⟨?_, ?_, ?_, ?_⟩
  · intro done trade hdone haction
    rw [hreplay done ((List.prefix_append done [trade]).trans hdone)]
    exact hinv.replayed done trade hdone haction
  · rintro before after rfl
    rw [List.foldl_append] at hrun
    obtain ⟨rest, hrest⟩ := trades_prefix_of_run upper
      (before.foldl (orderStep upper) (Account.opened opening)) after
    have hlog : account.trades =
        (before.foldl (orderStep upper) (Account.opened opening)).trades ++ rest := by
      rw [hrun, hrest]
    have hpast := hreplay _ (hlog ▸ List.prefix_append _ rest)
    have hbefore : Follows (before.foldl (orderStep upper) (Account.opened opening)) :=
      Follows.of_run opening fun call hcall => hcalls call (List.mem_append_left _ hcall)
    simp only
    rw [hpast, hall]
    refine ⟨hbefore.positions, rest, hlog, ?_⟩
    rw [hlog, replayLog, replayLog, List.foldl_append]
  · rw [hall, hinv.counted]
  · rw [hall, hinv.totalled, recordedPnl_eq]

/-- Buy a share, sell it, and buy another one. -/
def reopened : List (TradeCall ℚ) :=
  [{ oneShare 1 "buy" 100 with stamp := ⟨1, 1⟩ }, { oneShare 2 "Sell" 150 with stamp := ⟨2, 2⟩ },
    { oneShare 3 "BUY" 200 with stamp := ⟨3, 3⟩ }]

/-- The account that `reopened` leaves. -/
def reopenedAccount : Account ℚ :=
  ⟨99850, [⟨"AAPL", 1, 200⟩],
    [⟨1, "AAPL", "BUY", 1, 100, none, 1⟩, ⟨2, "AAPL", "SELL", 1, 150, some 50, 2⟩,
      ⟨3, "AAPL", "BUY", 1, 200, none, 3⟩], []⟩

/-- A position that was closed and opened again. -/
theorem performance_follows_reopened :
    (replay reopenedAccount.trades).profit - (replay reopenedAccount.trades).loss =
      reopenedAccount.recordedPnl := by
  have hcalls : ∀ call ∈ reopened, TradeOrder String.toUpper call := by
    simp only [reopened, List.forall_mem_cons]
    exact ⟨⟨Or.inl (by decide +kernel), one_pos⟩, ⟨Or.inr (by decide +kernel), one_pos⟩,
      ⟨Or.inl (by decide +kernel), one_pos⟩, by simp⟩
  have hrun : reopenedAccount =
      reopened.foldl (orderStep String.toUpper) (Account.opened 100000) := by decide +kernel
  exact (performance_follows String.toUpper 100000 reopened hcalls reopenedAccount hrun
    (by decide +kernel)).2.2.2

end TradingSimulator
